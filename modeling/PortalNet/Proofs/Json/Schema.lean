import Mathlib.Data.List.Lattice
import Mathlib.Data.List.Nodup
import Mathlib.Data.List.Pairwise
import PortalNet.Json.Form
import PortalNet.Proofs.Json.RoundTrip

/-! # What a reader of records tells apart

A record is read from the members of an object by their names. The order of the members, members of
other names, members that only say what their lack would say, and the choice between the names of
one member go unnoticed, here and in the records within.
-/

namespace PortalNet

namespace Json

/-- No object in the value has two members of one name. -/
inductive Distinct : Json → Prop
  | null : Distinct null
  | bool (b : Bool) : Distinct (bool b)
  | number (n : JsonNumber) : Distinct (number n)
  | string (s : String) : Distinct (string s)
  | array {items : List Json} (h : ∀ j ∈ items, Distinct j) : Distinct (array items)
  | object {members : List (String × Json)} (names : (members.map (·.1)).Nodup)
      (h : ∀ m ∈ members, Distinct m.2) : Distinct (object members)

theorem Legible.distinct {n : Nat} {j : Json} (h : Legible n j) : j.Distinct := by
  induction h with
  | null => exact .null
  | bool b => exact .bool b
  | number => exact .number _
  | string s => exact .string s
  | array _ ih => exact .array ih
  | object _ names ih => exact .object names ih

/-- A value without what stands at the end of a path of names. -/
def dropAt : List String → Json → Json
  | [name], object members => object (members.filter (·.1 ≠ name))
  | name :: path, object members =>
    object (members.map fun m => if m.1 = name then (m.1, m.2.dropAt path) else m)
  | _, j => j

variable {name key : String} {names : List String} {members members' : List (String × Json)}
  {value : Json} {o : Option Json}

section distinct

theorem distinct_object_iff : (object members).Distinct ↔
    (members.map (·.1)).Nodup ∧ ∀ m ∈ members, m.2.Distinct := by
  refine ⟨fun h => ?_, fun ⟨hnames, hvalues⟩ => .object hnames hvalues⟩
  cases h with
  | object hnames hvalues => exact ⟨hnames, hvalues⟩

theorem distinct_perm (h : (object members).Distinct) (hperm : members.Perm members') :
    (object members').Distinct := by
  obtain ⟨hnames, hvalues⟩ := distinct_object_iff.1 h
  exact .object ((hperm.map _).nodup_iff.1 hnames) fun m hm => hvalues m (hperm.mem_iff.2 hm)

theorem distinct_cons_iff : (object ((key, value) :: members)).Distinct ↔
    key ∉ members.map (·.1) ∧ value.Distinct ∧ (object members).Distinct := by
  simp only [distinct_object_iff, List.map_cons, List.nodup_cons, List.forall_mem_cons]
  tauto

end distinct

section find

theorem find?_cons_self : find? key ((key, value) :: members) = some value := if_pos rfl

theorem find?_cons_of_ne (h : key ≠ name) :
    find? name ((key, value) :: members) = find? name members := if_neg h

theorem find?_eq_none_iff : find? name members = none ↔ name ∉ members.map (·.1) := by
  refine ⟨fun h hmem => ?_, find?_eq_none⟩
  induction members with
  | nil => cases hmem
  | cons m members ih =>
    rw [find?] at h
    split at h
    · cases h
    · next hne => exact ih h ((List.mem_cons.1 hmem).resolve_left (Ne.symm hne))

theorem find?_eq_some_iff (h : (members.map (·.1)).Nodup) :
    find? name members = some value ↔ (name, value) ∈ members := by
  refine ⟨mem_of_find?, fun hmem => ?_⟩
  induction members with
  | nil => cases hmem
  | cons m members ih =>
    rw [List.map_cons, List.nodup_cons] at h
    rw [find?]
    rcases List.mem_cons.1 hmem with rfl | hmem
    · exact if_pos rfl
    · rw [if_neg fun hkey => h.1 (List.mem_map.2 ⟨_, hmem, hkey.symm⟩), ih h.2 hmem]

theorem find?_perm (h : (members.map (·.1)).Nodup) (hperm : members.Perm members') :
    find? name members = find? name members' :=
  Option.ext fun value => by
    rw [find?_eq_some_iff h, find?_eq_some_iff ((hperm.map _).nodup_iff.1 h), hperm.mem_iff]

theorem find?_filter : find? name (members.filter (·.1 ≠ key)) =
    if name = key then none else find? name members := by
  induction members with
  | nil => exact (ite_self none).symm
  | cons m members ih =>
    by_cases hkey : m.1 = key
    · rw [List.filter_cons_of_neg (by simpa using hkey), ih, find?, hkey]
      split
      · rfl
      · next hne => rw [if_neg (Ne.symm hne)]
    · rw [List.filter_cons_of_pos (by simpa using hkey), find?, find?, ih]
      split
      · next hname => rw [if_neg (hname ▸ hkey)]
      · rfl

theorem find?_map {f : Json → Json} :
    find? name (members.map fun m => if m.1 = key then (m.1, f m.2) else m) =
      if name = key then (find? name members).map f else find? name members := by
  induction members with
  | nil => exact (ite_self none).symm
  | cons m members ih =>
    rw [List.map_cons, find?, apply_ite Prod.fst, ite_self, ih, find?]
    split
    · next hname =>
      subst hname
      by_cases hkey : m.1 = key <;> simp [hkey]
    · rfl

theorem nodup_unique : ((unique members).map (·.1)).Nodup := by
  induction members with
  | nil => exact List.nodup_nil
  | cons m members ih =>
    rw [unique]
    split
    · exact ih
    · next hkey =>
      refine List.nodup_cons.2 ⟨fun hmem => ?_, ih⟩
      obtain ⟨e, he, hname⟩ := List.mem_map.1 hmem
      exact find?_eq_none_iff.1 (Option.not_isSome_iff_eq_none.1 hkey)
        (List.mem_map.2 ⟨e, mem_of_mem_unique he, hname⟩)

end find

end Json

namespace Source

mutual

/-- Of the members of one name only the last is read. -/
theorem distinct_value? : ∀ {s : Source} {j : Json}, s.value? = some j → j.Distinct
  | .null, _, rfl => .null
  | .bool b, _, rfl => .bool b
  | .number l, j, h => by
    obtain ⟨n, -, rfl⟩ := Option.map_eq_some_iff.1 h
    exact .number n
  | .string pieces, j, h => by
    obtain ⟨s, -, rfl⟩ := Option.map_eq_some_iff.1 h
    exact .string s
  | .array items, j, h => by
    obtain ⟨js, hjs, rfl⟩ := Option.map_eq_some_iff.1 h
    exact .array (distinct_values? hjs)
  | .object members, j, h => by
    obtain ⟨ms, hms, rfl⟩ := Option.map_eq_some_iff.1 h
    exact .object Json.nodup_unique fun m hm =>
      distinct_memberValues? hms m (Json.mem_of_mem_unique hm)

theorem distinct_values? : ∀ {ss : List Source} {js : List Json},
    values? ss = some js → ∀ j ∈ js, j.Distinct
  | [], _, rfl => by rintro _ ⟨⟩
  | s :: ss, js, h => by
    simp only [values?, Option.bind_eq_bind, Option.bind_eq_some_iff] at h
    obtain ⟨j, hj, js', hjs, h⟩ := h
    cases h
    exact List.forall_mem_cons.2 ⟨distinct_value? hj, distinct_values? hjs⟩

theorem distinct_memberValues? : ∀ {members : List (List Piece × Source)}
    {ms : List (String × Json)}, memberValues? members = some ms → ∀ m ∈ ms, m.2.Distinct
  | [], _, rfl => by rintro _ ⟨⟩
  | (key, s) :: members, ms, h => by
    simp only [memberValues?, Option.bind_eq_bind, Option.bind_eq_some_iff] at h
    obtain ⟨name, -, j, hj, ms', hms, h⟩ := h
    cases h
    exact List.forall_mem_cons.2 ⟨distinct_value? hj, distinct_memberValues? hms⟩

end

end Source

namespace Json

variable {name key : String} {names : List String} {members members' : List (String × Json)}
  {value : Json} {o : Option Json}

/-- The one member of an object that goes by one of these names, if there is one; two are a
fault. -/
def member? (names : List String) (members : List (String × Json)) : Option (Option Json) :=
  match names.filterMap (find? · members) with
  | [] => some none
  | [value] => some (some value)
  | _ => none

section member

theorem fields?_object {fields : List (List String)} :
    (object members).fields? fields = fields.mapM (member? · members) := rfl

@[simp] theorem member?_singleton : member? [name] members = some (find? name members) := by
  rw [member?, List.filterMap_cons, List.filterMap_nil]
  cases find? name members <;> rfl

theorem member?_eq_none_iff :
    member? names members = some none ↔ ∀ name ∈ names, find? name members = none := by
  rw [← List.filterMap_eq_nil_iff, member?]
  split <;> simp_all

theorem member?_congr (h : ∀ name ∈ names, find? name members = find? name members') :
    member? names members = member? names members' := by
  rw [member?, member?, List.filterMap_congr h]

theorem member?_cons_of_notMem (h : key ∉ names) :
    member? names ((key, value) :: members) = member? names members :=
  member?_congr fun _ hname => find?_cons_of_ne (ne_of_mem_of_not_mem hname h).symm

/-- A member that goes by one of the names is the one member if no other does. -/
theorem member?_cons_of_mem (hnames : names.Nodup) (hkey : key ∈ names)
    (hmembers : find? key members = none) :
    member? names ((key, value) :: members) = some o ↔
      some value = o ∧ member? names members = some none := by
  obtain ⟨front, back, rfl⟩ := List.append_of_mem hkey
  have hapart : key ∉ front ∧ key ∉ back := by
    rw [List.perm_middle.nodup_iff, List.nodup_cons, List.mem_append, not_or] at hnames
    exact hnames.1
  have hothers : ∀ others : List String, key ∉ others →
      others.filterMap (find? · ((key, value) :: members)) = others.filterMap (find? · members) :=
    fun _ hothers => List.filterMap_congr fun _ hname =>
      find?_cons_of_ne (ne_of_mem_of_not_mem hname hothers).symm
  rw [member?_eq_none_iff, ← List.filterMap_eq_nil_iff, member?]
  simp only [List.filterMap_append, List.filterMap_cons, find?_cons_self, hmembers,
    hothers _ hapart.1, hothers _ hapart.2]
  cases front.filterMap (find? · members) <;> cases back.filterMap (find? · members) <;> simp

end member

/-- What a reader of records of a type does with one member. -/
structure RecordField (R : Type) where
  names : List String
  /-- What the lack of the member says. If it says nothing, there has to be one. -/
  default : Option Json
  /-- The changes within the member that go unnoticed. -/
  within : List (String × Json) → List (String × Json) → Prop
  /-- What the record then has. -/
  reads : Option Json → R → Prop
  reads_none : ∀ value r, default = some value → reads (some value) r → reads none r
  not_reads_none : ∀ r, default = none → ¬ reads none r
  distinct_within : ∀ ms ms', within ms ms' → (object ms).Distinct → (object ms').Distinct
  reads_within : ∀ ms ms' r, within ms ms' → (object ms).Distinct →
    reads (some (object ms)) r → reads (some (object ms')) r

/-- The record has what is read from the one member, or from its lack. -/
def RecordField.Found {R : Type} (f : RecordField R) (members : List (String × Json)) (r : R) :
    Prop :=
  ∃ o, member? f.names members = some o ∧ f.reads o r

/-- All that a reader of records of a type looks for in an object. -/
structure Schema (R : Type) where
  fields : List (RecordField R)
  nodup : (fields.flatMap (·.names)).Nodup

namespace Schema

variable {R : Type} {schema : Schema R} {f g : RecordField R} {r : R}

/-- The record that is read from an object with these members. -/
def Reads (schema : Schema R) (members : List (String × Json)) (r : R) : Prop :=
  ∀ f ∈ schema.fields, f.Found members r

/-- Changes of an object that the reader does not notice. -/
inductive Alike (schema : Schema R) : List (String × Json) → List (String × Json) → Prop
  | reorder {ms ms' : List (String × Json)} : ms.Perm ms' → Alike schema ms ms'
  | add {ms : List (String × Json)} {key : String} {value : Json} :
    (∀ f ∈ schema.fields, key ∉ f.names) → key ∉ ms.map (·.1) → value.Distinct →
    Alike schema ms ((key, value) :: ms)
  | drop {ms : List (String × Json)} {f : RecordField R} {key : String} {value : Json} :
    f ∈ schema.fields → key ∈ f.names → f.default = some value →
    Alike schema ((key, value) :: ms) ms
  | rename {ms : List (String × Json)} {f : RecordField R} {key key' : String} {value : Json} :
    f ∈ schema.fields → key ∈ f.names → key' ∈ f.names → key' ∉ ms.map (·.1) →
    Alike schema ((key, value) :: ms) ((key', value) :: ms)
  | inside {ms inner inner' : List (String × Json)} {f : RecordField R} {key : String} :
    f ∈ schema.fields → key ∈ f.names → f.within inner inner' →
    Alike schema ((key, object inner) :: ms) ((key, object inner') :: ms)
  | trans {ms ms' ms'' : List (String × Json)} :
    Alike schema ms ms' → Alike schema ms' ms'' → Alike schema ms ms''

theorem nodup_names (hf : f ∈ schema.fields) : f.names.Nodup :=
  (List.nodup_flatMap.1 schema.nodup).1 f hf

theorem eq_of_mem_names (hf : f ∈ schema.fields) (hg : g ∈ schema.fields) (hkey : key ∈ f.names)
    (hkey' : key ∈ g.names) : f = g := by
  by_contra hne
  have : Std.Symm (Function.onFun List.Disjoint (RecordField.names (R := R))) :=
    ⟨fun _ _ => List.Disjoint.symm⟩
  exact (List.nodup_flatMap.1 schema.nodup).2.forall hf hg hne hkey hkey'

/-- What is read besides one member. -/
def ReadsBut (schema : Schema R) (f : RecordField R) (members : List (String × Json)) (r : R) :
    Prop :=
  ∀ g ∈ schema.fields, g ≠ f → g.Found members r

theorem reads_iff (hf : f ∈ schema.fields) :
    schema.Reads members r ↔ f.Found members r ∧ schema.ReadsBut f members r := by
  refine ⟨fun h => ⟨h f hf, fun g hg _ => h g hg⟩, fun ⟨h, hothers⟩ g hg => ?_⟩
  by_cases hgf : g = f
  · exact hgf ▸ h
  · exact hothers g hg hgf

theorem reads_of_missing (hf : f ∈ schema.fields) (h : member? f.names members = some none) :
    schema.Reads members r ↔ f.reads none r ∧ schema.ReadsBut f members r := by
  simp only [reads_iff hf, RecordField.Found, h, Option.some.injEq, exists_eq_left']

/-- A member at the front is read by one field, and all others see what comes behind it. -/
theorem reads_cons_iff (hf : f ∈ schema.fields) (hkey : key ∈ f.names)
    (h : find? key members = none) : schema.Reads ((key, value) :: members) r ↔
      member? f.names members = some none ∧ f.reads (some value) r ∧
        schema.ReadsBut f members r := by
  have hothers : schema.ReadsBut f ((key, value) :: members) r ↔ schema.ReadsBut f members r :=
    forall₃_congr fun g hg hgf => by
      have hkey' : key ∉ g.names := fun hkey' => hgf (eq_of_mem_names hg hf hkey' hkey)
      rw [RecordField.Found, RecordField.Found, member?_cons_of_notMem hkey']
  simp only [reads_iff hf, RecordField.Found, member?_cons_of_mem (nodup_names hf) hkey h, hothers,
    and_assoc, exists_eq_left']

theorem reads_congr (h : ∀ f ∈ schema.fields, ∀ name ∈ f.names,
    find? name members = find? name members') :
    schema.Reads members r ↔ schema.Reads members' r :=
  forall₂_congr fun f hf => by rw [RecordField.Found, RecordField.Found, member?_congr (h f hf)]

/-- What is not noticed leaves the members distinct and the record as it was read. -/
theorem Alike.reads (h : schema.Alike members members') (hmembers : (object members).Distinct) :
    (object members').Distinct ∧ ∀ r, schema.Reads members r → schema.Reads members' r := by
  induction h with
  | reorder hperm =>
    refine ⟨distinct_perm hmembers hperm, fun r => (reads_congr fun _ _ _ _ => ?_).1⟩
    exact find?_perm (distinct_object_iff.1 hmembers).1 hperm
  | add hunknown hkey hvalue =>
    refine ⟨distinct_cons_iff.2 ⟨hkey, hvalue, hmembers⟩,
      fun r => (reads_congr fun f hf name hname => ?_).1⟩
    exact (find?_cons_of_ne (ne_of_mem_of_not_mem hname (hunknown f hf)).symm).symm
  | drop hf hkey hdefault =>
    obtain ⟨hnot, -, hrest⟩ := distinct_cons_iff.1 hmembers
    refine ⟨hrest, fun r hr => ?_⟩
    obtain ⟨hmissing, hreads, hothers⟩ := (reads_cons_iff hf hkey (find?_eq_none hnot)).1 hr
    exact (reads_of_missing hf hmissing).2 ⟨RecordField.reads_none _ _ r hdefault hreads, hothers⟩
  | rename hf hkey hkey' hnew =>
    obtain ⟨hnot, hvalue, hrest⟩ := distinct_cons_iff.1 hmembers
    refine ⟨distinct_cons_iff.2 ⟨hnew, hvalue, hrest⟩, fun r hr => ?_⟩
    exact (reads_cons_iff hf hkey' (find?_eq_none hnew)).2
      ((reads_cons_iff hf hkey (find?_eq_none hnot)).1 hr)
  | inside hf hkey hwithin =>
    obtain ⟨hnot, hinner, hrest⟩ := distinct_cons_iff.1 hmembers
    have hinner' := RecordField.distinct_within _ _ _ hwithin hinner
    refine ⟨distinct_cons_iff.2 ⟨hnot, hinner', hrest⟩, fun r hr => ?_⟩
    obtain ⟨hmissing, hreads, hothers⟩ := (reads_cons_iff hf hkey (find?_eq_none hnot)).1 hr
    exact (reads_cons_iff hf hkey (find?_eq_none hnot)).2
      ⟨hmissing, RecordField.reads_within _ _ _ r hwithin hinner hreads, hothers⟩
  | trans _ _ ih ih' =>
    obtain ⟨hmembers', hreads⟩ := ih hmembers
    obtain ⟨hmembers'', hreads'⟩ := ih' hmembers'
    exact ⟨hmembers'', fun r hr => hreads' r (hreads r hr)⟩

/-- The record has to have a member of just this name. -/
def Needs (schema : Schema R) (name : String) : Prop :=
  ∃ f ∈ schema.fields, f.names = [name] ∧ f.default.isNone

theorem Needs.not_reads (h : schema.Needs name) (hmembers : find? name members = none) :
    ¬ schema.Reads members r := by
  obtain ⟨f, hf, hnames, hdefault⟩ := h
  have hmissing : member? f.names members = some none := by
    rw [hnames, member?_singleton, hmembers]
  exact fun hr => f.not_reads_none r (Option.isNone_iff_eq_none.1 hdefault)
    ((reads_of_missing hf hmissing).1 hr).1

end Schema

namespace RecordField

variable {R α S : Type} [OfJson α] [OfJson S] {r : R}

/-- A member that is read as a whole. -/
def plain (names : List String) (default : Option Json) (reads : Option Json → R → Prop)
    (reads_none : ∀ value r, default = some value → reads (some value) r → reads none r)
    (not_reads_none : ∀ r, default = none → ¬ reads none r) : RecordField R where
  names
  default
  within _ _ := False
  reads
  reads_none
  not_reads_none
  distinct_within _ _ hwithin := hwithin.elim
  reads_within _ _ _ hwithin := hwithin.elim

/-- A member that there has to be. -/
def required (name : String) (get : R → α) (h : (OfJson.missing : Option α) = none) :
    RecordField R :=
  .plain [name] none (fun o r => field? o = some (get r))
    (fun _ _ hdefault => nomatch hdefault) fun _ _ hr => nomatch h.symm.trans hr

@[simp] theorem found_required {get : R → α} {h : (OfJson.missing : Option α) = none} :
    (required name get h).Found members r ↔ field? (find? name members) = some (get r) := by
  simp [Found, required, plain]

/-- A member that may be null or missing. -/
def nullable (names : List String) (means : Option α → R → Prop) : RecordField R :=
  .plain names (some null) (fun o r => ∃ a, field? o = some a ∧ means a r)
    (fun _ _ hdefault hr => by
      obtain rfl := Option.some.inj hdefault
      exact hr)
    fun _ hdefault => nomatch hdefault

@[simp] theorem found_nullable {means : Option α → R → Prop} :
    (nullable names means).Found members r ↔
      ∃ o, member? names members = some o ∧ ∃ a, field? o = some a ∧ means a r := Iff.rfl

/-- A part of the record that may be null or missing. -/
def optional (names : List String) (get : R → Option α) : RecordField R :=
  .nullable names fun a r => a = get r

@[simp] theorem found_optional {get : R → Option α} :
    (optional names get).Found members r ↔
      ∃ o, member? names members = some o ∧ field? o = some (get r) := by
  simp [optional]

/-- A flag that may be missing. -/
def flag (name : String) (default : Bool) (get : R → Bool) : RecordField R :=
  .plain [name] (some (bool default)) (fun o r => fieldOr default o = some (get r))
    (fun _ _ hdefault hr => by
      obtain rfl := Option.some.inj hdefault
      exact hr)
    fun _ hdefault => nomatch hdefault

@[simp] theorem found_flag {default : Bool} {get : R → Bool} :
    (flag name default get).Found members r ↔
      fieldOr default (find? name members) = some (get r) := by
  simp [Found, flag, plain]

/-- A member that is a record itself. -/
def record (name : String) (get : R → S) (schema : Schema S)
    (hmissing : (OfJson.missing : Option S) = none)
    (hread : ∀ members s, (object members).read? = some s ↔ schema.Reads members s) :
    RecordField R where
  names := [name]
  default := none
  within := schema.Alike
  reads o r := field? o = some (get r)
  reads_none _ _ hdefault := nomatch hdefault
  not_reads_none _ _ hr := nomatch hmissing.symm.trans hr
  distinct_within _ _ hwithin hdistinct := (hwithin.reads hdistinct).1
  reads_within _ _ _ hwithin hdistinct hr :=
    (hread _ _).2 ((hwithin.reads hdistinct).2 _ ((hread _ _).1 hr))

@[simp] theorem found_record {get : R → S} {schema : Schema S}
    {hmissing : (OfJson.missing : Option S) = none}
    {hread : ∀ members s, (object members).read? = some s ↔ schema.Reads members s} :
    (record name get schema hmissing hread).Found members r ↔
      field? (find? name members) = some (get r) := by
  simp [Found, record]

end RecordField

section dropAt

variable {R S : Type} [OfJson S] {schema : Schema R} {inner : Schema S} {get : R → S} {r : R}
  {hmissing : (OfJson.missing : Option S) = none}
  {hread : ∀ members s, (object members).read? = some s ↔ inner.Reads members s}

/-- An object of which nothing is read. -/
def Schema.Refuses (schema : Schema R) (j : Json) : Prop :=
  ∃ members, j = object members ∧ ∀ r, ¬ schema.Reads members r

theorem Schema.Needs.refuses (h : schema.Needs name) :
    schema.Refuses ((object members).dropAt [name]) :=
  ⟨_, rfl, fun _ => h.not_reads (find?_filter.trans (if_pos rfl))⟩

/-- What a record within needs is needed of the whole. -/
theorem Schema.Refuses.outer {path : List String} {j : Json}
    (h : inner.Refuses (j.dropAt (key :: path)))
    (hf : .record name get inner hmissing hread ∈ schema.fields)
    (hj : find? name members = some j) :
    schema.Refuses ((object members).dropAt (name :: key :: path)) := by
  obtain ⟨members', hmembers', hrefuses⟩ := h
  refine ⟨_, rfl, fun r hr => hrefuses (get r) ((hread _ _).1 ?_)⟩
  have hfound := RecordField.found_record.1 (hr _ hf)
  rw [find?_map (f := dropAt (key :: path)), if_pos rfl, hj, Option.map_some, hmembers'] at hfound
  exact hfound

end dropAt

end Json

end PortalNet
