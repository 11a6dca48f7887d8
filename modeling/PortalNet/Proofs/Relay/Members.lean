import PortalNet.Relay.Directory

/-! # Members of a directory

Who is registered after each operation, as long as every member stands under its own name.
-/

namespace PortalNet.Directory

variable {d : Directory} {addr a : Address} {name n : String} {now limit : Nat} {m : Member}

def Has (d : Directory) (name : String) : Prop :=
  (d.get? name).isSome

instance : Decidable (d.Has name) :=
  inferInstanceAs (Decidable ((d.get? name).isSome = true))

/-- Every member stands under its own name. -/
def Keyed (d : Directory) : Prop :=
  ∀ n m, d.get? n = some m → m.name = n

/-- What the directory comes to when only these leave. -/
structure Later (d : Directory) (gone : String → Prop) (d' : Directory) : Prop where
  keyed : d'.Keyed
  has : ∀ n, d.Has n → gone n ∨ d'.Has n

theorem exists_of_nameAt? (h : d.nameAt? addr = some name) :
    ∃ k m, d.get? k = some m ∧ m.name = name ∧ m.addr = addr := by
  obtain ⟨m, hm, hname⟩ := Option.map_eq_some_iff.1 h
  obtain ⟨k, hk⟩ := Table.mem_values_iff.1 (List.mem_of_find?_eq_some hm)
  exact ⟨k, m, hk, hname, by simpa using List.find?_some hm⟩

theorem has_of_addressOf? (h : d.addressOf? name = some addr) : d.Has name := by
  obtain ⟨m, hm, -⟩ := Option.map_eq_some_iff.1 h
  rw [Has, hm]
  rfl

theorem Keyed.has_of_nameAt? (hd : d.Keyed) (h : d.nameAt? addr = some name) : d.Has name := by
  obtain ⟨k, m, hk, rfl, -⟩ := exists_of_nameAt? h
  rw [Has, hd k m hk, hk]
  rfl

theorem Keyed.later_self (hd : d.Keyed) : d.Later (fun _ => False) d :=
  ⟨hd, fun _ hn => .inr hn⟩

theorem Later.mono {p q : String → Prop} {d' : Directory} (h : d.Later p d')
    (hpq : ∀ n, p n → q n) : d.Later q d' :=
  ⟨h.keyed, fun n hn => (h.has n hn).imp_left (hpq n)⟩

theorem Later.trans {p : String → Prop} {d' d'' : Directory} (h : d.Later (fun _ => False) d')
    (h' : d'.Later p d'') : d.Later p d'' :=
  ⟨h'.keyed, fun n hn => h'.has n ((h.has n hn).resolve_left id)⟩

theorem keyed_empty : ({} : Directory).Keyed := by
  rintro n m ⟨⟩

section deregister

theorem fst_deregister_iff : (d.deregister name).1 = true ↔ d.Has name :=
  Iff.rfl

theorem get?_deregister : (d.deregister name).2.get? n = if n = name then none else d.get? n :=
  Table.get?_erase

theorem Keyed.deregister (hd : d.Keyed) : (d.deregister name).2.Keyed := by
  intro n m h
  rw [get?_deregister] at h
  split at h
  · cases h
  · exact hd n m h

theorem has_deregister_iff : (d.deregister name).2.Has n ↔ n ≠ name ∧ d.Has n := by
  rw [Has, get?_deregister]
  by_cases hn : n = name
  · simp [hn]
  · simp [hn, Has]

theorem Keyed.later_deregister (hd : d.Keyed) : d.Later (· = name) (d.deregister name).2 where
  keyed := hd.deregister
  has n hn := by
    by_cases hname : n = name
    · exact .inl hname
    · exact .inr (has_deregister_iff.2 ⟨hname, hn⟩)

end deregister

section register

/-- The directory without the other name that the address may have. -/
def vacate (d : Directory) (name : String) (addr : Address) : Directory :=
  match d.nameAt? addr with
  | some previous => if previous = name then d else (d.deregister previous).2
  | none => d

theorem get?_register :
    (d.register name addr now).2.get? n =
      if name = n then some ⟨name, addr, now⟩ else (d.vacate name addr).get? n :=
  Table.get?_insert

theorem Keyed.vacate (hd : d.Keyed) : (d.vacate name addr).Keyed := by
  unfold Directory.vacate
  split
  · split
    · exact hd
    · exact hd.deregister
  · exact hd

theorem Keyed.register (hd : d.Keyed) : (d.register name addr now).2.Keyed := by
  intro n m h
  rw [get?_register] at h
  split at h
  · next hn =>
    obtain rfl := Option.some.inj h
    exact hn
  · exact hd.vacate n m h

/-- Whoever was at the address under another name is gone. -/
theorem has_register_iff :
    (d.register name addr now).2.Has n ↔ n = name ∨ d.Has n ∧ d.nameAt? addr ≠ some n := by
  rw [Has, get?_register]
  split
  · next hn => simp [hn]
  · next hn =>
    have hne : n ≠ name := fun h => hn h.symm
    have hvacate : (d.vacate name addr).Has n ↔ d.Has n ∧ d.nameAt? addr ≠ some n := by
      unfold Directory.vacate
      cases hprevious : d.nameAt? addr with
      | none => simp
      | some previous =>
        by_cases hp : previous = name
        · subst hp
          simp [hn]
        · simp only [hp, if_false, has_deregister_iff, ne_eq, Option.some.injEq, eq_comm, and_comm]
    rw [or_iff_right hne]
    exact hvacate

theorem Keyed.later_register (hd : d.Keyed) (name : String) (addr : Address) (now : Nat) :
    d.Later (fun n => d.nameAt? addr = some n ∧ n ≠ name) (d.register name addr now).2 where
  keyed := hd.register
  has n hn := by
    rw [has_register_iff]
    by_cases hname : n = name
    · exact .inr (.inl hname)
    · by_cases haddr : d.nameAt? addr = some n
      · exact .inl ⟨haddr, hname⟩
      · exact .inr (.inr ⟨hn, haddr⟩)

end register

section heartbeat

theorem fst_heartbeat_iff :
    (d.heartbeat addr now).1 = true ↔ ∃ name, d.nameAt? addr = some name := by
  unfold heartbeat
  split
  · next name hname => simp [hname]
  · next hname => simp [hname]

theorem nameAt?_heartbeat : (d.heartbeat addr now).2.nameAt? a = d.nameAt? a := by
  unfold heartbeat
  split
  · next name _ =>
    have hp : ∀ e : String × Member,
        (if e.1 = name then { e.2 with lastSeen := now } else e.2).addr = e.2.addr := by
      intro e
      split <;> rfl
    have hn : ∀ e : String × Member,
        (if e.1 = name then { e.2 with lastSeen := now } else e.2).name = e.2.name := by
      intro e
      split <;> rfl
    simp only [nameAt?, Table.values, Table.modify, Table.mapValues, List.map_map, List.find?_map,
      Option.map_map, Function.comp_def, hp, hn]
  · rfl

theorem get?_heartbeat :
    (d.heartbeat addr now).2.get? n =
      if d.nameAt? addr = some n then (d.get? n).map ({ · with lastSeen := now })
      else d.get? n := by
  unfold heartbeat
  cases d.nameAt? addr with
  | none => rfl
  | some name =>
    change (d.members.modify name _).get? n = _
    simp only [Table.get?_modify, Option.some.injEq, eq_comm]
    rfl

theorem addressOf?_heartbeat : (d.heartbeat addr now).2.addressOf? n = d.addressOf? n := by
  rw [addressOf?, get?_heartbeat, addressOf?]
  split
  · rw [Option.map_map]
    rfl
  · rfl

theorem Keyed.heartbeat (hd : d.Keyed) : (d.heartbeat addr now).2.Keyed := by
  intro n m h
  rw [get?_heartbeat] at h
  split at h
  · obtain ⟨m, hm, rfl⟩ := Option.map_eq_some_iff.1 h
    exact hd n m hm
  · exact hd n m h

theorem has_heartbeat_iff : (d.heartbeat addr now).2.Has n ↔ d.Has n := by
  rw [Has, get?_heartbeat]
  split
  · rw [Option.isSome_map]
    rfl
  · rfl

theorem Keyed.later_heartbeat (hd : d.Keyed) (addr : Address) (now : Nat) :
    d.Later (fun _ => False) (d.heartbeat addr now).2 where
  keyed := hd.heartbeat
  has _ hn := .inr (has_heartbeat_iff.2 hn)

end heartbeat

section evict

theorem get?_evict :
    (d.evict now limit).2.get? n = (d.get? n).filter fun m => !m.isSilent now limit :=
  Table.get?_filter

theorem Keyed.evict (hd : d.Keyed) : (d.evict now limit).2.Keyed := by
  intro n m h
  rw [get?_evict, Option.filter_eq_some_iff] at h
  exact hd n m h.1

theorem Keyed.mem_evict_iff (hd : d.Keyed) :
    n ∈ (d.evict now limit).1 ↔ ∃ m, d.get? n = some m ∧ m.isSilent now limit := by
  simp only [Directory.evict, List.mem_map, List.mem_filter, Table.mem_values_iff]
  constructor
  · rintro ⟨m, ⟨⟨k, hk⟩, hsilent⟩, rfl⟩
    have hk : d.get? k = some m := hk
    obtain rfl := hd k m hk
    exact ⟨m, hk, hsilent⟩
  · rintro ⟨m, hm, hsilent⟩
    exact ⟨m, ⟨⟨n, hm⟩, hsilent⟩, hd n m hm⟩

theorem Keyed.has_evict_iff (hd : d.Keyed) :
    (d.evict now limit).2.Has n ↔ d.Has n ∧ n ∉ (d.evict now limit).1 := by
  rw [hd.mem_evict_iff, Has, Has, get?_evict]
  cases d.get? n with
  | none => simp
  | some m => by_cases hm : m.isSilent now limit <;> simp [Option.filter, hm]

theorem Keyed.later_evict (hd : d.Keyed) :
    d.Later (· ∈ (d.evict now limit).1) (d.evict now limit).2 where
  keyed := hd.evict
  has n hn := by
    by_cases hout : n ∈ (d.evict now limit).1
    · exact .inl hout
    · exact .inr (hd.has_evict_iff.2 ⟨hn, hout⟩)

end evict

end PortalNet.Directory
