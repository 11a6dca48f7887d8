/-! # Tables

A finite map kept as its list of entries, oldest first, with no key twice. Every operation is
described by what `get?` answers afterwards.
-/

namespace PortalNet

structure Table (κ α : Type) where
  entries : List (κ × α)
  nodup : (entries.map Prod.fst).Nodup

namespace Table

variable {κ α β : Type}

instance : EmptyCollection (Table κ α) := ⟨⟨[], by simp⟩⟩

instance : Inhabited (Table κ α) := ⟨∅⟩

theorem ext_entries {s t : Table κ α} (h : s.entries = t.entries) : s = t := by
  cases s; cases t; cases h; rfl

variable [DecidableEq κ]

/-- The value of the first entry with this key. -/
def find (k : κ) : List (κ × α) → Option α
  | [] => none
  | (k', a) :: rest => if k' = k then some a else find k rest

/-- Changes the value in place, or adds an entry at the end. -/
def put (k : κ) (a : α) : List (κ × α) → List (κ × α)
  | [] => [(k, a)]
  | (k', b) :: rest => if k' = k then (k, a) :: rest else (k', b) :: put k a rest

theorem mem_keys_put {k j : κ} {a : α} {l : List (κ × α)} :
    j ∈ (put k a l).map Prod.fst ↔ j = k ∨ j ∈ l.map Prod.fst := by
  induction l with
  | nil => simp [put]
  | cons e l ih =>
    obtain ⟨k', b⟩ := e
    by_cases h : k' = k
    · subst h; simp [put]
    · simp only [put, h, if_false, List.map_cons, List.mem_cons, ih]
      grind

theorem nodup_put {k : κ} {a : α} {l : List (κ × α)} (h : (l.map Prod.fst).Nodup) :
    ((put k a l).map Prod.fst).Nodup := by
  induction l with
  | nil => simp [put]
  | cons e l ih =>
    obtain ⟨k', b⟩ := e
    simp only [List.map_cons, List.nodup_cons] at h
    by_cases hk : k' = k
    · subst hk; simpa [put] using h
    · simp only [put, hk, if_false, List.map_cons, List.nodup_cons, mem_keys_put]
      exact ⟨by grind, ih h.2⟩

def get? (t : Table κ α) (k : κ) : Option α :=
  find k t.entries

def contains (t : Table κ α) (k : κ) : Bool :=
  (t.get? k).isSome

def insert (t : Table κ α) (k : κ) (a : α) : Table κ α where
  entries := put k a t.entries
  nodup := nodup_put t.nodup

def filter (t : Table κ α) (p : κ → α → Bool) : Table κ α where
  entries := t.entries.filter fun e => p e.1 e.2
  nodup := t.nodup.sublist (List.filter_sublist.map _)

def erase (t : Table κ α) (k : κ) : Table κ α :=
  t.filter fun k' _ => k' ≠ k

def mapValues (t : Table κ α) (f : κ → α → β) : Table κ β where
  entries := t.entries.map fun e => (e.1, f e.1 e.2)
  nodup := by simpa [Function.comp_def] using t.nodup

/-- Changes the value under one key, if there is one. -/
def modify (t : Table κ α) (k : κ) (f : α → α) : Table κ α :=
  t.mapValues fun k' a => if k' = k then f a else a

def keys (t : Table κ α) : List κ :=
  t.entries.map Prod.fst

def values (t : Table κ α) : List α :=
  t.entries.map Prod.snd

def size (t : Table κ α) : Nat :=
  t.entries.length

def isEmpty (t : Table κ α) : Bool :=
  t.entries.isEmpty

/-- A table of the given entries; of two with one key the later counts. -/
def ofList (l : List (κ × α)) : Table κ α :=
  l.foldl (fun t e => t.insert e.1 e.2) ∅

section find

variable {k j : κ} {a : α} {l : List (κ × α)}

theorem find_put : find j (put k a l) = if k = j then some a else find j l := by
  induction l with
  | nil => simp [put, find]
  | cons e l ih =>
    obtain ⟨k', b⟩ := e
    by_cases h : k' = k
    · subst h; by_cases hj : k' = j <;> simp [put, find, hj]
    · simp only [put, h, if_false, find, ih]
      grind

theorem find_eq_none_iff : find k l = none ↔ k ∉ l.map Prod.fst := by
  induction l with
  | nil => simp [find]
  | cons e l ih =>
    obtain ⟨k', b⟩ := e
    by_cases h : k' = k
    · simp [find, h]
    · simp only [find, h, if_false, ih, List.map_cons, List.mem_cons]
      grind

theorem mem_of_find (h : find k l = some a) : (k, a) ∈ l := by
  induction l with
  | nil => simp [find] at h
  | cons e l ih =>
    obtain ⟨k', b⟩ := e
    by_cases hk : k' = k
    · simp_all [find]
    · simp only [find, hk, if_false] at h
      exact List.mem_cons_of_mem _ (ih h)

theorem find_of_mem (hl : (l.map Prod.fst).Nodup) (h : (k, a) ∈ l) : find k l = some a := by
  induction l with
  | nil => simp at h
  | cons e l ih =>
    obtain ⟨k', b⟩ := e
    simp only [List.map_cons, List.nodup_cons] at hl
    rcases List.mem_cons.1 h with h | h
    · cases h; simp [find]
    · have : k' ≠ k := by
        rintro rfl
        exact hl.1 (List.mem_map.2 ⟨_, h, rfl⟩)
      simp [find, this, ih hl.2 h]

theorem find_map {f : κ → α → β} :
    find k (l.map fun e => (e.1, f e.1 e.2)) = (find k l).map (f k) := by
  induction l with
  | nil => rfl
  | cons e l ih =>
    obtain ⟨k', b⟩ := e
    by_cases h : k' = k <;> simp [find, h, ih]

end find

omit [DecidableEq κ] in
@[simp] theorem size_mapValues {t : Table κ α} {f : κ → α → β} : (t.mapValues f).size = t.size :=
  List.length_map ..

variable {t : Table κ α} {k j : κ} {a : α}

@[simp] theorem size_modify {f : α → α} : (t.modify k f).size = t.size :=
  size_mapValues

theorem get?_eq_some_iff : t.get? k = some a ↔ (k, a) ∈ t.entries :=
  ⟨mem_of_find, find_of_mem t.nodup⟩

theorem get?_eq_none_iff : t.get? k = none ↔ k ∉ t.keys :=
  find_eq_none_iff

@[simp] theorem get?_empty : (∅ : Table κ α).get? k = none := rfl

omit [DecidableEq κ] in
@[simp] theorem size_empty : (∅ : Table κ α).size = 0 := rfl

theorem get?_insert : (t.insert k a).get? j = if k = j then some a else t.get? j :=
  find_put

@[simp] theorem get?_insert_self : (t.insert k a).get? k = some a := by
  simp [get?_insert]

theorem get?_mapValues {f : κ → α → β} : (t.mapValues f).get? k = (t.get? k).map (f k) :=
  find_map

theorem get?_modify {f : α → α} :
    (t.modify k f).get? j = if j = k then (t.get? j).map f else t.get? j := by
  rw [modify, get?_mapValues]
  by_cases h : j = k <;> simp [h]

theorem get?_filter {p : κ → α → Bool} : (t.filter p).get? k = (t.get? k).filter (p k) := by
  cases h : (t.get? k).filter (p k) with
  | none =>
    rw [get?_eq_none_iff]
    intro hk
    obtain ⟨⟨k', a⟩, ha, rfl⟩ := List.mem_map.1 hk
    have ha := List.mem_filter.1 ha
    rw [get?_eq_some_iff.2 ha.1] at h
    simp_all
  | some a =>
    rw [Option.filter_eq_some_iff] at h
    rw [get?_eq_some_iff]
    exact List.mem_filter.2 ⟨get?_eq_some_iff.1 h.1, h.2⟩

theorem get?_erase : (t.erase k).get? j = if j = k then none else t.get? j := by
  rw [erase, get?_filter]
  by_cases h : j = k
  · cases t.get? j <;> simp [h]
  · cases t.get? j <;> simp [h]

@[simp] theorem get?_erase_self : (t.erase k).get? k = none := by
  simp [get?_erase]

theorem mem_keys_iff : k ∈ t.keys ↔ (t.get? k).isSome := by
  rw [← Decidable.not_iff_not, ← get?_eq_none_iff]
  simp

theorem contains_iff : t.contains k = true ↔ k ∈ t.keys := by
  rw [mem_keys_iff, contains]

theorem mem_values_iff : a ∈ t.values ↔ ∃ k, t.get? k = some a := by
  constructor
  · intro h
    obtain ⟨⟨k, a⟩, he, rfl⟩ := List.mem_map.1 h
    exact ⟨k, get?_eq_some_iff.2 he⟩
  · rintro ⟨k, h⟩
    exact List.mem_map.2 ⟨(k, a), get?_eq_some_iff.1 h, rfl⟩

/-- The values around the one under a key stand under other keys. -/
theorem values_of_get? (h : t.get? k = some a) :
    ∃ l₁ l₂, t.values = l₁ ++ a :: l₂ ∧ ∀ b ∈ l₁ ++ l₂, ∃ j, j ≠ k ∧ t.get? j = some b := by
  obtain ⟨e₁, e₂, he⟩ := List.append_of_mem (get?_eq_some_iff.1 h)
  refine ⟨e₁.map Prod.snd, e₂.map Prod.snd, by simp [values, he], ?_⟩
  intro b hb
  rw [← List.map_append] at hb
  obtain ⟨⟨j, b⟩, hj, rfl⟩ := List.mem_map.1 hb
  refine ⟨j, ?_, get?_eq_some_iff.2 ?_⟩
  · rintro rfl
    have hn := t.nodup
    rw [he, List.map_append, List.map_cons, List.perm_middle.nodup_iff, List.nodup_cons,
      ← List.map_append] at hn
    exact hn.1 (List.mem_map.2 ⟨_, hj, rfl⟩)
  · rw [he]
    rcases List.mem_append.1 hj with hj | hj
    · exact List.mem_append_left _ hj
    · exact List.mem_append_right _ (List.mem_cons_of_mem _ hj)

section lists

variable {f : α → α} {l : List (κ × α)}

theorem filter_of_not_mem (h : k ∉ l.map Prod.fst) : (l.filter fun e => e.1 ≠ k) = l := by
  apply List.filter_eq_self.2
  intro e he
  have hk : e.1 ≠ k := fun hk => h (List.mem_map.2 ⟨e, he, hk⟩)
  exact decide_eq_true hk

theorem map_of_not_mem (h : k ∉ l.map Prod.fst) :
    (l.map fun e => (e.1, if e.1 = k then f e.2 else e.2)) = l := by
  induction l with
  | nil => rfl
  | cons e l ih =>
    obtain ⟨hk, hl⟩ := not_or.1 (mt List.mem_cons.2 h)
    have hk' : e.1 ≠ k := fun he => hk he.symm
    rw [List.map_cons, ih hl, if_neg hk']

theorem put_of_not_mem (h : k ∉ l.map Prod.fst) : put k a l = l ++ [(k, a)] := by
  induction l with
  | nil => rfl
  | cons e l ih =>
    obtain ⟨k', b⟩ := e
    obtain ⟨hk, hl⟩ := not_or.1 (mt List.mem_cons.2 h)
    have hk' : k' ≠ k := fun he => hk he.symm
    rw [put, if_neg hk', ih hl, List.cons_append]

theorem length_filter (hl : (l.map Prod.fst).Nodup) (h : (k, a) ∈ l) :
    (l.filter fun e => e.1 ≠ k).length + 1 = l.length := by
  induction l with
  | nil => simp at h
  | cons e l ih =>
    obtain ⟨k', b⟩ := e
    simp only [List.map_cons, List.nodup_cons] at hl
    by_cases hk : k' = k
    · subst hk
      rw [List.filter_cons_of_neg (by simp), filter_of_not_mem hl.1, List.length_cons]
    · have hm : (k, a) ∈ l := by grind
      rw [List.filter_cons_of_pos (by simpa using hk), List.length_cons, List.length_cons,
        ih hl.2 hm]

theorem filter_put : ((put k a l).filter fun e => e.1 ≠ k) = l.filter fun e => e.1 ≠ k := by
  induction l with
  | nil => simp [put]
  | cons e l ih =>
    obtain ⟨k', b⟩ := e
    by_cases hk : k' = k
    · simp [put, hk]
    · simp only [put, hk, if_false, List.filter_cons, ih]

theorem filter_put_of_ne (h : j ≠ k) :
    ((put j a l).filter fun e => e.1 ≠ k) = put j a (l.filter fun e => e.1 ≠ k) := by
  induction l with
  | nil => simp [put, h]
  | cons e l ih =>
    obtain ⟨k', b⟩ := e
    by_cases hj : k' = j
    · subst hj
      simp [put, h]
    · have hput : ∀ l : List (κ × α), put j a ((k', b) :: l) = (k', b) :: put j a l :=
        fun _ => if_neg hj
      by_cases hk : k' = k
      · rw [hput, List.filter_cons_of_neg (by simpa using hk), ih,
          List.filter_cons_of_neg (by simpa using hk)]
      · rw [hput, List.filter_cons_of_pos (by simpa using hk), ih,
          List.filter_cons_of_pos (by simpa using hk), hput]

theorem filter_map_key :
    ((l.map fun e => (e.1, if e.1 = k then f e.2 else e.2)).filter fun e => e.1 ≠ k) =
      l.filter fun e => e.1 ≠ k := by
  induction l with
  | nil => rfl
  | cons e l ih =>
    by_cases hk : e.1 = k
    · simp only [List.map_cons, List.filter_cons, ih, hk, ne_eq, not_true, decide_false,
        Bool.false_eq_true, if_false]
    · simp only [List.map_cons, List.filter_cons, ih, hk, if_false]

theorem map_put (hl : (l.map Prod.fst).Nodup) :
    ((put k a l).map fun e => (e.1, if e.1 = k then f e.2 else e.2)) = put k (f a) l := by
  induction l with
  | nil => simp [put]
  | cons e l ih =>
    obtain ⟨k', b⟩ := e
    simp only [List.map_cons, List.nodup_cons] at hl
    by_cases hk : k' = k
    · subst hk
      simp only [put, if_true, List.map_cons, map_of_not_mem hl.1]
    · simp only [put, hk, if_false, List.map_cons, ih hl.2]

theorem put_of_mem (hl : (l.map Prod.fst).Nodup) (h : k ∈ l.map Prod.fst) :
    put k a l = l.map fun e => (e.1, if e.1 = k then a else e.2) := by
  induction l with
  | nil => simp at h
  | cons e l ih =>
    obtain ⟨k', b⟩ := e
    simp only [List.map_cons, List.nodup_cons] at hl
    by_cases hk : k' = k
    · subst hk
      rw [put, if_pos rfl, List.map_cons, if_pos rfl, map_of_not_mem (f := fun _ => a) hl.1]
    · have hm : k ∈ l.map Prod.fst := by grind
      rw [put, if_neg hk, List.map_cons, if_neg hk, ih hl.2 hm]

theorem perm_of_mem (hl : (l.map Prod.fst).Nodup) (h : (k, a) ∈ l) :
    l.Perm ((k, a) :: l.filter fun e => e.1 ≠ k) := by
  induction l with
  | nil => simp at h
  | cons e l ih =>
    obtain ⟨k', b⟩ := e
    simp only [List.map_cons, List.nodup_cons] at hl
    by_cases hk : k' = k
    · subst hk
      obtain rfl : b = a := by
        rcases List.mem_cons.1 h with h | h
        · cases h; rfl
        · exact absurd (List.mem_map.2 ⟨_, h, rfl⟩) hl.1
      rw [List.filter_cons_of_neg (by simp), filter_of_not_mem hl.1]
    · have hm : (k, a) ∈ l := by grind
      rw [List.filter_cons_of_pos (by simpa using hk)]
      exact ((ih hl.2 hm).cons _).trans (.swap ..)

end lists

theorem entries_insert (h : t.get? k = none) : (t.insert k a).entries = t.entries ++ [(k, a)] :=
  put_of_not_mem (get?_eq_none_iff.1 h)

theorem size_insert (h : t.get? k = none) : (t.insert k a).size = t.size + 1 := by
  rw [size, entries_insert h, List.length_append]
  rfl

/-- New values come behind those that are there, in their order. -/
theorem entries_insertAll {key : α → κ} {l : List α} (hnew : ∀ a ∈ l, t.get? (key a) = none)
    (distinct : (l.map key).Nodup) :
    (l.foldl (fun t a => t.insert (key a) a) t).entries =
      t.entries ++ l.map fun a => (key a, a) := by
  induction l generalizing t with
  | nil => simp
  | cons a l ih =>
    rw [List.map_cons, List.nodup_cons] at distinct
    have hnew' : ∀ b ∈ l, (t.insert (key a) a).get? (key b) = none := fun b hb => by
      rw [get?_insert, if_neg]
      · exact hnew b (List.mem_cons_of_mem _ hb)
      · exact fun he => distinct.1 (List.mem_map.2 ⟨b, hb, he.symm⟩)
    rw [List.foldl_cons, ih hnew' distinct.2, entries_insert (hnew a List.mem_cons_self),
      List.append_assoc, List.map_cons]
    rfl

theorem size_erase (h : t.get? k = some a) : (t.erase k).size + 1 = t.size :=
  length_filter t.nodup (get?_eq_some_iff.1 h)

theorem erase_modify_self {f : α → α} : (t.modify k f).erase k = t.erase k :=
  ext_entries filter_map_key

theorem erase_mapValues {f : κ → α → β} : (t.mapValues f).erase k = (t.erase k).mapValues f :=
  ext_entries List.filter_map

theorem erase_modify {f : α → α} {j : κ} : (t.modify k f).erase j = (t.erase j).modify k f :=
  erase_mapValues

theorem erase_insert_self : (t.insert k a).erase k = t.erase k :=
  ext_entries filter_put

theorem erase_insert_of_ne (h : j ≠ k) : (t.insert j a).erase k = (t.erase k).insert j a :=
  ext_entries (filter_put_of_ne h)

/-- A new entry can be taken out again. -/
theorem erase_insert (h : t.get? k = none) : (t.insert k a).erase k = t := by
  rw [erase_insert_self]
  exact ext_entries (filter_of_not_mem (get?_eq_none_iff.1 h))

theorem insert_eq_modify {b : α} (h : t.get? k = some a) :
    t.insert k b = t.modify k fun _ => b :=
  ext_entries (put_of_mem t.nodup (mem_keys_iff.2 (by rw [h]; rfl)))

theorem perm_values_erase (h : t.get? k = some a) : t.values.Perm (a :: (t.erase k).values) :=
  (perm_of_mem t.nodup (get?_eq_some_iff.1 h)).map Prod.snd

theorem perm_values_insert : (t.insert k a).values.Perm (a :: (t.erase k).values) := by
  rw [← erase_insert_self (a := a)]
  exact perm_values_erase get?_insert_self

omit [DecidableEq κ] in
theorem nodup_entries (t : Table κ α) : t.entries.Nodup :=
  List.Pairwise.of_map Prod.fst (fun _ _ hne he => hne (congrArg Prod.fst he)) t.nodup

/-- The order of the entries does not matter to what a table answers. -/
theorem get?_perm {s : Table κ α} (h : s.entries.Perm t.entries) : s.get? k = t.get? k := by
  apply Option.ext
  intro a
  rw [get?_eq_some_iff, get?_eq_some_iff, h.mem_iff]

/-- Tables that answer alike hold the same entries. -/
theorem perm_entries {s : Table κ α} (h : ∀ k, s.get? k = t.get? k) :
    s.entries.Perm t.entries := by
  rw [List.perm_ext_iff_of_nodup s.nodup_entries t.nodup_entries]
  rintro ⟨k, a⟩
  rw [← get?_eq_some_iff, ← get?_eq_some_iff, h k]

theorem size_insert_le : (t.insert k a).size ≤ t.size + 1 := by
  cases h : t.get? k with
  | none => exact Nat.le_of_eq (size_insert h)
  | some b =>
    rw [insert_eq_modify h, size_modify]
    exact Nat.le_succ _

theorem modify_insert_self {f : α → α} : (t.insert k a).modify k f = t.insert k (f a) :=
  ext_entries (map_put t.nodup)

theorem mapValues_congr {f g : κ → α → β} (h : ∀ k a, t.get? k = some a → f k a = g k a) :
    t.mapValues f = t.mapValues g :=
  ext_entries (List.map_congr_left fun e he =>
    congrArg (Prod.mk e.1) (h e.1 e.2 (get?_eq_some_iff.2 he)))

theorem mapValues_eq_self {f : κ → α → α} (h : ∀ k a, t.get? k = some a → f k a = a) :
    t.mapValues f = t :=
  (mapValues_congr h).trans (ext_entries (List.map_id _))

theorem insert_of_get? (h : t.get? k = some a) : t.insert k a = t := by
  rw [insert_eq_modify h]
  refine mapValues_eq_self fun j b hb => ?_
  split
  · next hj =>
    subst hj
    exact Option.some.inj (h.symm.trans hb)
  · rfl

theorem insert_mapValues {f : κ → α → α} {b : α} (h : t.get? k = some a) :
    (t.mapValues f).insert k b = t.mapValues fun j c => if j = k then b else f j c := by
  have hk : (t.mapValues f).get? k = some (f k a) := by rw [get?_mapValues, h]; rfl
  rw [insert_eq_modify hk]
  exact ext_entries (List.map_map ..)

theorem insert_insert {b : α} : (t.insert k a).insert k b = t.insert k b := by
  rw [insert_eq_modify get?_insert_self]
  exact modify_insert_self

end Table

end PortalNet
