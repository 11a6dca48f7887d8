import PortalNet.Proofs.Relay.Run

/-! # One name for one address

However servers register, come back elsewhere or under other names, and go, a directory never holds
two names for one address. Whoever sends from an address is therefore one server or nobody.
-/

namespace PortalNet

inductive DirectoryEvent where
  | register (name : String) (addr : Address) (now : Nat)
  | deregister (name : String)
  | heartbeat (addr : Address) (now : Nat)
  | evict (now limit : Nat)

namespace Directory

def after (d : Directory) : DirectoryEvent → Directory
  | .register name addr now => (d.register name addr now).2
  | .deregister name => (d.deregister name).2
  | .heartbeat addr now => (d.heartbeat addr now).2
  | .evict now limit => (d.evict now limit).2

def run (d : Directory) (es : List DirectoryEvent) : Directory :=
  es.foldl after d

/-- Every member stands under its own name, and no two share an address. -/
structure OneToOne (d : Directory) : Prop where
  keyed : d.Keyed
  inj : ∀ n k a, d.addressOf? n = some a → d.addressOf? k = some a → n = k

/-- Nobody is registered at the address under another name. -/
def Reserves (d : Directory) (addr : Address) (name : String) : Prop :=
  ∀ n, d.addressOf? n = some addr → n = name

variable {d : Directory} {addr a : Address} {name n : String} {now limit : Nat}
  {e : DirectoryEvent} {es : List DirectoryEvent}

theorem addressOf?_eq_some_iff :
    d.addressOf? name = some addr ↔ ∃ m, d.get? name = some m ∧ m.addr = addr :=
  Option.map_eq_some_iff

theorem run_append {fs : List DirectoryEvent} : d.run (es ++ fs) = (d.run es).run fs :=
  List.foldl_append ..

theorem addressOf?_deregister :
    (d.deregister name).2.addressOf? n = if n = name then none else d.addressOf? n := by
  rw [addressOf?, get?_deregister]
  split <;> rfl

theorem addressOf?_register :
    (d.register name addr now).2.addressOf? n =
      if name = n then some addr else (d.vacate name addr).addressOf? n := by
  rw [addressOf?, get?_register]
  split <;> rfl

theorem addressOf?_of_evict (h : (d.evict now limit).2.addressOf? n = some a) :
    d.addressOf? n = some a := by
  obtain ⟨m, hm, rfl⟩ := addressOf?_eq_some_iff.1 h
  rw [get?_evict, Option.filter_eq_some_iff] at hm
  exact addressOf?_eq_some_iff.2 ⟨m, hm.1, rfl⟩

theorem addressOf?_of_vacate (h : (d.vacate name addr).addressOf? n = some a) :
    d.addressOf? n = some a := by
  unfold Directory.vacate at h
  split at h
  · split at h
    · exact h
    · rw [addressOf?_deregister] at h
      split at h
      · cases h
      · exact h
  · exact h

/-- No event but a registration of the name puts it at an address. -/
theorem addressOf?_of_after (h : (d.after e).addressOf? n = some a) :
    d.addressOf? n = some a ∨ ∃ now, e = .register n a now := by
  cases e with
  | register name addr now =>
    rw [after, addressOf?_register] at h
    split at h
    · next hn =>
      obtain rfl := Option.some.inj h
      exact .inr ⟨now, by rw [hn]⟩
    · exact .inl (addressOf?_of_vacate h)
  | deregister name =>
    rw [after, addressOf?_deregister] at h
    split at h
    · cases h
    · exact .inl h
  | heartbeat addr now => exact .inl (addressOf?_heartbeat.symm.trans h)
  | evict now limit => exact .inl (addressOf?_of_evict h)

namespace OneToOne

theorem empty : ({} : Directory).OneToOne :=
  ⟨keyed_empty, by rintro n k a ⟨⟩⟩

/-- Looking for the name of an address answers the one name that has it. -/
theorem nameAt?_eq_some_iff (hd : d.OneToOne) :
    d.nameAt? addr = some name ↔ d.addressOf? name = some addr := by
  have hfound : ∀ n, d.nameAt? addr = some n → d.addressOf? n = some addr := by
    intro n h
    obtain ⟨k, m, hk, rfl, haddr⟩ := exists_of_nameAt? h
    exact addressOf?_eq_some_iff.2 ⟨m, by rw [hd.keyed k m hk, hk], haddr⟩
  constructor
  · exact hfound name
  · intro h
    obtain ⟨m, hm, rfl⟩ := addressOf?_eq_some_iff.1 h
    have hsome : (d.nameAt? m.addr).isSome := by
      rw [nameAt?, Option.isSome_map, List.find?_isSome]
      exact ⟨m, Table.mem_values_iff.2 ⟨name, hm⟩, by simp⟩
    obtain ⟨n, hn⟩ := Option.isSome_iff_exists.1 hsome
    rw [hn, hd.inj n name m.addr (hfound n hn) h]

theorem nameAt?_eq_none_iff (hd : d.OneToOne) :
    d.nameAt? addr = none ↔ ∀ n, d.addressOf? n ≠ some addr := by
  simp only [Option.eq_none_iff_forall_ne_some, ne_eq, hd.nameAt?_eq_some_iff]

/-- Whoever sends from an address has one name. -/
theorem addressOf?_eq_some_iff (hd : d.OneToOne) (h : d.addressOf? name = some addr) :
    d.addressOf? n = some addr ↔ n = name :=
  ⟨fun hn => hd.inj n name addr hn h, fun hn => hn ▸ h⟩

/-- The address is left to the name. -/
theorem reserves_vacate (hd : d.OneToOne) : (d.vacate name addr).Reserves addr name := by
  intro n hn
  have hname := hd.nameAt?_eq_some_iff.2 (addressOf?_of_vacate hn)
  simp only [Directory.vacate, hname] at hn
  split at hn
  · assumption
  · rw [addressOf?_deregister, if_pos rfl] at hn
    cases hn

theorem register (hd : d.OneToOne) : (d.register name addr now).2.OneToOne := by
  refine ⟨hd.keyed.register, ?_⟩
  have hother : ∀ n a, name ≠ n → (d.vacate name addr).addressOf? n = some a → a ≠ addr := by
    rintro n a hne hn rfl
    exact hne (hd.reserves_vacate n hn).symm
  intro n k a hn hk
  rw [addressOf?_register] at hn hk
  split at hn <;> split at hk
  · next h h' => exact h.symm.trans h'
  · next h h' => exact absurd (Option.some.inj hn).symm (hother k a h' hk)
  · next h h' => exact absurd (Option.some.inj hk).symm (hother n a h hn)
  · exact hd.inj n k a (addressOf?_of_vacate hn) (addressOf?_of_vacate hk)

theorem keyed_after (hd : d.OneToOne) (e : DirectoryEvent) : (d.after e).Keyed := by
  cases e with
  | register => exact hd.keyed.register
  | deregister => exact hd.keyed.deregister
  | heartbeat => exact hd.keyed.heartbeat
  | evict => exact hd.keyed.evict

theorem after (hd : d.OneToOne) (e : DirectoryEvent) : (d.after e).OneToOne := by
  by_cases hregister : ∃ name addr now, e = .register name addr now
  · obtain ⟨name, addr, now, rfl⟩ := hregister
    exact hd.register
  -- any other event leaves every address to whoever had it
  · have hold : ∀ n a, (d.after e).addressOf? n = some a → d.addressOf? n = some a := by
      intro n a h
      refine (addressOf?_of_after h).resolve_right ?_
      rintro ⟨now, rfl⟩
      exact hregister ⟨n, a, now, rfl⟩
    exact ⟨hd.keyed_after e, fun n k a hn hk => hd.inj n k a (hold n a hn) (hold k a hk)⟩

theorem run (hd : d.OneToOne) (es : List DirectoryEvent) : (d.run es).OneToOne := by
  induction es generalizing d with
  | nil => exact hd
  | cons e es ih => exact ih (hd.after e)

end OneToOne

/-- An address stays with a name as long as nobody registers there under another one. -/
theorem Reserves.run (h : d.Reserves addr name)
    (hes : ∀ n now, .register n addr now ∈ es → n = name) : (d.run es).Reserves addr name := by
  induction es generalizing d with
  | nil => exact h
  | cons e es ih =>
    refine ih (fun n hn => ?_) fun n now hn => hes n now (List.mem_cons_of_mem _ hn)
    rcases addressOf?_of_after hn with hold | ⟨now, rfl⟩
    · exact h n hold
    · exact hes n now List.mem_cons_self

end Directory

namespace Relay

/-- What a step does to the directory. -/
def directoryEvents (r : Relay) : RelayStep → List DirectoryEvent
  | .handle (.packet (.register version name) addr) now =>
    if version ≠ protocolVersion then [] else [.register name addr now]
  | .handle (.packet .notice addr) now =>
    .heartbeat addr now :: (r.directory.nameAt? addr).toList.map .deregister
  | .handle (.packet _ addr) now => [.heartbeat addr now]
  | .handle .. => []
  | .evict now limit => [.evict now limit]

/-- What a run does to the directory. -/
def directoryHistory (r : Relay) : List RelayStep → List DirectoryEvent
  | [] => []
  | step :: steps => r.directoryEvents step ++ (r.after step).directoryHistory steps

variable {r : Relay} {step : RelayStep} {steps : List RelayStep} {addr : Address} {now : Nat}

theorem directory_register {version : UInt32} {name : String} :
    (r.register version name addr now).1.directory =
      r.directory.run (if version ≠ protocolVersion then [] else [.register name addr now]) := by
  unfold register
  split
  · rfl
  · dsimp only
    split
    · split <;> rfl
    · rfl

theorem directory_forward {source target : String} {message : RelayMessage} :
    (r.forward source target message).1.directory = r.directory := by
  unfold forward
  split
  · split
    · split <;> rfl
    · rfl
  · rfl

theorem directory_switch {source target : String} {player : Uuid} :
    (r.switch source addr player target).1.directory = r.directory := by
  unfold switch
  split <;> rfl

theorem directory_after (r : Relay) (step : RelayStep) :
    (r.after step).directory = r.directory.run (r.directoryEvents step) := by
  cases step with
  | evict now limit => rfl
  | handle event now =>
    cases event with
    | serverTimeout | shutdown => rfl
    | packet packet addr =>
      cases packet with
      | register version name => exact directory_register
      | _ =>
        simp only [after, handle, receive, directoryEvents, Directory.nameAt?_heartbeat]
        cases r.directory.nameAt? addr with
        | none => rfl
        | some source =>
          first
            | exact directory_forward
            | exact directory_switch
            | rfl

theorem directory_run (r : Relay) (steps : List RelayStep) :
    (r.run steps).directory = r.directory.run (r.directoryHistory steps) := by
  induction steps generalizing r with
  | nil => rfl
  | cons step steps ih =>
    rw [directoryHistory, Directory.run_append, ← directory_after]
    exact ih (r.after step)

/-- At every moment of every run names and addresses stand for each other. -/
theorem oneToOne_run (steps : List RelayStep) : (({} : Relay).run steps).directory.OneToOne := by
  rw [directory_run]
  exact Directory.OneToOne.empty.run _

theorem registers_of_mem_directoryEvents {name : String}
    (h : .register name addr now ∈ r.directoryEvents step) :
    step = .handle (.packet (.register protocolVersion name) addr) now := by
  unfold directoryEvents at h
  split at h
  · next version name' addr' now' =>
    split at h
    · cases h
    · next hversion =>
      obtain ⟨rfl, rfl, rfl⟩ := DirectoryEvent.register.inj (List.mem_singleton.1 h)
      rw [Decidable.not_not.1 hversion]
  all_goals simp at h

theorem registers_of_mem_directoryHistory {name : String}
    (h : .register name addr now ∈ r.directoryHistory steps) :
    .handle (.packet (.register protocolVersion name) addr) now ∈ steps := by
  induction steps generalizing r with
  | nil => cases h
  | cons step steps ih =>
    rcases List.mem_append.1 h with h | h
    · rw [registers_of_mem_directoryEvents h]
      exact List.mem_cons_self
    · exact List.mem_cons_of_mem _ (ih h)

end Relay

end PortalNet
