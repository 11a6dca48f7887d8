import PortalNet.Proofs.Relay.Members
import PortalNet.Proofs.Session.Run
import PortalNet.Relay

/-! # Runs of the relay

All that can happen to the members and the lookups of a relay, one step after the other. Lookups
are numbered in 64 bits, and as long as the numbers suffice no number is used twice.
-/

namespace PortalNet

namespace Sample

def survivalAddress : Address := ⟨.v4 (.replicate 4 127), 30001⟩

def creativeAddress : Address := ⟨.v4 (.replicate 4 127), 30002⟩

def lookup : Lookup := ⟨player, "survival", "creative"⟩

end Sample

inductive RelayStep where
  | handle (event : RelayEvent) (now : Nat)
  | evict (now limit : Nat)

/-- The number of the query that a packet carries. -/
def Packet.queryId? : Packet → Option UInt64
  | .deliver _ (.getSelection id _) => some id
  | _ => none

theorem Lookup.involves_iff {k : Lookup} {n : String} :
    k.involves n ↔ k.source = n ∨ k.target = n := by
  simp [Lookup.involves]

namespace Relay

def after (r : Relay) : RelayStep → Relay
  | .handle event now => (r.handle event now).2.1
  | .evict now limit => (r.evict now limit).2

def run (r : Relay) (steps : List RelayStep) : Relay :=
  steps.foldl after r

/-- The number of the query that the relay sends of its own accord. -/
def asks? (r : Relay) : RelayStep → Option UInt64
  | .handle (.packet (.switchServer player target) addr) now =>
    (r.receive (.switchServer player target) addr now).2.findSome? fun letter => letter.2.queryId?
  | _ => none

/-- The numbers of the queries of a run, in order. -/
def asked (r : Relay) : List RelayStep → List UInt64
  | [] => []
  | step :: steps => (r.asks? step).toList ++ (r.after step).asked steps

/-- The numbers that are left suffice for a run. -/
def Lasts (r : Relay) (steps : List RelayStep) : Prop :=
  r.nextRequest.toNat + (r.asked steps).length < 2 ^ 64

instance (r : Relay) (steps : List RelayStep) : Decidable (r.Lasts steps) :=
  inferInstanceAs (Decidable (_ < _))

/-- A member is removed, has said farewell, or has come back under another name. -/
inductive Departs (r : Relay) (name : String) : RelayStep → Prop where
  | evicted (now limit : Nat) : name ∈ (r.evict now limit).1 → Departs r name (.evict now limit)
  | deregistered (addr : Address) (now : Nat) : r.directory.nameAt? addr = some name →
      Departs r name (.handle (.packet .notice addr) now)
  | renamed (other : String) (addr : Address) (now : Nat) :
      r.directory.nameAt? addr = some name → name ≠ other →
      Departs r name (.handle (.packet (.register protocolVersion other) addr) now)

/-- Some member forwards a response with this number. -/
inductive Answers (r : Relay) (id : UInt64) : RelayStep → Prop where
  | forwarded (source target : String) (player : Uuid) (selection : Option ExternalSelection)
      (addr : Address) (now : Nat) : r.directory.nameAt? addr = some source →
      Answers r id
        (.handle (.packet (.forward target (.selectionResponse id player selection)) addr) now)

/-- What a step can do to members and lookups. Only an eviction leaves the lookups of whoever
departs in place. -/
inductive Change (r : Relay) : RelayStep → Relay → Prop where
  | keep {step : RelayStep} (d : Directory) : r.asks? step = none →
      r.directory.Later (fun _ => False) d → Change r step { r with directory := d }
  | ask {step : RelayStep} (d : Directory) (k : Lookup) : r.asks? step = some r.nextRequest →
      r.directory.Later (fun _ => False) d → (∀ n, k.involves n → d.Has n) →
      Change r step {
        directory := d
        lookups := r.lookups.insert r.nextRequest k
        nextRequest := r.nextRequest + 1 }
  | answer {step : RelayStep} (d : Directory) (id : UInt64) : r.asks? step = none →
      r.directory.Later (fun _ => False) d → r.Answers id step →
      Change r step { r with directory := d, lookups := r.lookups.erase id }
  | depart {step : RelayStep} (d : Directory) (name : String) : r.asks? step = none →
      r.directory.Later (· = name) d → r.Departs name step →
      Change r step ({ r with directory := d }.forget name)
  | evict (d : Directory) (now limit : Nat) :
      r.directory.Later (r.Departs · (.evict now limit)) d →
      Change r (.evict now limit) { r with directory := d }
  | expire (name : String) (now : Nat) : r.directory.Keyed →
      Change r (.handle (.serverTimeout name) now) (r.forget name)

section change

variable {r : Relay} {addr : Address} {now : Nat}

theorem change_register (hd : r.directory.Keyed) (version : UInt32) (name : String)
    (addr : Address) (now : Nat) :
    r.Change (.handle (.packet (.register version name) addr) now)
      (r.register version name addr now).1 := by
  by_cases hversion : version = protocolVersion
  · subst hversion
    have hlater := hd.later_register name addr now
    simp only [register, ne_eq, not_true, if_false]
    cases hprevious : r.directory.nameAt? addr with
    | none => exact .keep _ rfl (hlater.mono (by simp [hprevious]))
    | some previous =>
      rw [hprevious] at hlater
      by_cases hp : previous = name
      · simp only [hp, if_true]
        refine .keep _ rfl (hlater.mono ?_)
        rintro n ⟨hn, hne⟩
        exact hne ((Option.some.inj hn).symm.trans hp)
      · simp only [hp, if_false]
        refine .depart _ previous rfl (hlater.mono ?_) (.renamed name addr now hprevious hp)
        rintro n ⟨hn, -⟩
        exact (Option.some.inj hn).symm
  · simp only [register, ne_eq, hversion, not_false_eq_true, if_true]
    exact .keep _ rfl hd.later_self

theorem change_switch (hd : r.directory.Keyed) (player : Uuid) (target : String) (addr : Address)
    (now : Nat) :
    r.Change (.handle (.packet (.switchServer player target) addr) now)
      (r.receive (.switchServer player target) addr now).1 := by
  have hbeat := hd.later_heartbeat addr now
  have hasks : r.asks? (.handle (.packet (.switchServer player target) addr) now) =
      (r.receive (.switchServer player target) addr now).2.findSome? (·.2.queryId?) := rfl
  simp only [receive, Directory.nameAt?_heartbeat] at hasks ⊢
  cases hsource : r.directory.nameAt? addr with
  | none =>
    rw [hsource] at hasks
    exact .keep _ hasks hbeat
  | some source =>
    rw [hsource] at hasks
    simp only [receiveFrom, switch] at hasks ⊢
    cases htarget : (r.directory.heartbeat addr now).2.get? target with
    | none =>
      rw [htarget] at hasks
      exact .keep _ hasks hbeat
    | some m =>
      rw [htarget] at hasks
      refine .ask _ ⟨player, source, target⟩ hasks hbeat fun n hn => ?_
      rcases Lookup.involves_iff.1 hn with rfl | rfl
      · exact (hbeat.has _ (hd.has_of_nameAt? hsource)).resolve_left id
      · rw [Directory.Has, htarget]
        rfl

theorem change_forward (hd : r.directory.Keyed) (target : String) (message : RelayMessage)
    (addr : Address) (now : Nat) :
    r.Change (.handle (.packet (.forward target message) addr) now)
      (r.receive (.forward target message) addr now).1 := by
  have hbeat := hd.later_heartbeat addr now
  simp only [receive, Directory.nameAt?_heartbeat]
  cases hsource : r.directory.nameAt? addr with
  | none => exact .keep _ rfl hbeat
  | some source =>
    cases message with
    | teleport | mirrorSelection | getSelection => exact .keep _ rfl hbeat
    | selectionResponse id player selection =>
      have hanswer : r.Answers id _ :=
        .forwarded source target player selection addr now hsource
      simp only [receiveFrom, forward]
      cases r.lookups.get? id with
      | none => exact .keep _ rfl hbeat
      | some k => cases selection <;> exact .answer _ id rfl hbeat hanswer

theorem change_packet (hd : r.directory.Keyed) (packet : Packet) (addr : Address) (now : Nat) :
    r.Change (.handle (.packet packet addr) now) (r.receive packet addr now).1 := by
  have hbeat := hd.later_heartbeat addr now
  cases packet with
  | register version name => exact change_register hd version name addr now
  | switchServer player target => exact change_switch hd player target addr now
  | forward target message => exact change_forward hd target message addr now
  | notice =>
    simp only [receive, Directory.nameAt?_heartbeat]
    cases hsource : r.directory.nameAt? addr with
    | none => exact .keep _ rfl hbeat
    | some source =>
      exact .depart _ source rfl (hbeat.trans hbeat.keyed.later_deregister)
        (.deregistered addr now hsource)
  | join | move | command | leave | joined | teleported | transfer | commandResult | disconnected
  | registered | heartbeat | deliver =>
    simp only [receive, Directory.nameAt?_heartbeat]
    cases r.directory.nameAt? addr with
    | none => exact .keep _ rfl hbeat
    | some source => exact .keep _ rfl hbeat

theorem change (hd : r.directory.Keyed) (step : RelayStep) : r.Change step (r.after step) := by
  cases step with
  | evict now limit => exact .evict _ now limit (hd.later_evict.mono fun n hn => .evicted _ _ hn)
  | handle event now =>
    cases event with
    | packet packet addr => exact change_packet hd packet addr now
    | serverTimeout name => exact .expire name now hd
    | shutdown => exact .keep _ rfl hd.later_self

end change

namespace Change

variable {r r' : Relay} {step : RelayStep} {id : UInt64} {k : Lookup}

theorem keyed (h : r.Change step r') : r'.directory.Keyed := by
  cases h with
  | keep d _ hd | ask d k _ hd | answer d id _ hd | depart d name _ hd | evict d now limit hd =>
    exact hd.keyed
  | expire name now hd => exact hd

theorem get?_forget {name : String} :
    (r.forget name).lookups.get? id = (r.lookups.get? id).filter fun k => !k.involves name :=
  Table.get?_filter

/-- A lookup that a step adds has the number of the query that goes out, and is for members. -/
theorem lookup_cases (h : r.Change step r') (hk : r'.lookups.get? id = some k) :
    r.lookups.get? id = some k ∨ r.asks? step = some id ∧ id = r.nextRequest ∧
      ∀ n, k.involves n → r'.directory.Has n := by
  cases h with
  | keep | evict => exact .inl hk
  | ask d k' hasks _ hmembers =>
    rw [Table.get?_insert] at hk
    split at hk
    · next hid =>
      obtain rfl := Option.some.inj hk
      exact .inr ⟨hid ▸ hasks, hid.symm, hmembers⟩
    · exact .inl hk
  | answer d id' =>
    rw [Table.get?_erase] at hk
    split at hk
    · cases hk
    · exact .inl hk
  | depart | expire =>
    rw [get?_forget, Option.filter_eq_some_iff] at hk
    exact .inl hk.1

/-- A lookup goes when it is answered, or when one of the two goes or is said to have gone. -/
theorem lost_cases (h : r.Change step r') (hk : r.lookups.get? id = some k)
    (hne : r'.lookups.get? id ≠ some k) :
    id = r.nextRequest ∨ r.Answers id step ∨
      ∃ n, k.involves n ∧
        (r.Departs n step ∨ ∃ now, step = .handle (.serverTimeout n) now) := by
  have hforget : ∀ name, (r.lookups.get? id).filter (fun k => !k.involves name) ≠ some k →
      k.involves name := by
    intro name hname
    cases hn : k.involves name with
    | true => rfl
    | false => exact absurd (by simp [hk, Option.filter, hn]) hname
  cases h with
  | keep | evict => exact absurd hk hne
  | ask d k' =>
    by_cases hid : r.nextRequest = id
    · exact .inl hid.symm
    · exact absurd (Table.get?_insert.trans ((if_neg hid).trans hk)) hne
  | answer d id' _ _ hanswer =>
    by_cases hid : id = id'
    · exact .inr (.inl (hid ▸ hanswer))
    · exact absurd (Table.get?_erase.trans ((if_neg hid).trans hk)) hne
  | depart d name _ _ hdepart =>
    rw [get?_forget] at hne
    exact .inr (.inr ⟨name, hforget name hne, .inl hdepart⟩)
  | expire name now =>
    rw [get?_forget] at hne
    exact .inr (.inr ⟨name, hforget name hne, .inr ⟨now, rfl⟩⟩)

/-- Whoever a lookup is for is registered, unless they were not before or have just been evicted. -/
theorem involved_cases {n : String} (h : r.Change step r') (hk : r'.lookups.get? id = some k)
    (hn : k.involves n) :
    r'.directory.Has n ∨ r.lookups.get? id = some k ∧
      (r.directory.Has n → ∃ now limit, step = .evict now limit ∧ n ∈ (r.evict now limit).1) := by
  rcases h.lookup_cases hk with hold | ⟨-, -, hmembers⟩
  · by_cases hhas : r.directory.Has n
    · cases h with
      | keep d _ hd | ask d _ _ hd | answer d _ _ hd =>
        exact .inl ((hd.has n hhas).resolve_left not_false)
      | depart d name _ hd =>
        rw [get?_forget, Option.filter_eq_some_iff] at hk
        refine .inl ((hd.has n hhas).resolve_left ?_)
        rintro rfl
        simp [hn] at hk
      | evict d now limit hd =>
        rcases hd.has n hhas with ⟨_, _, hout⟩ | hhas'
        · exact .inr ⟨hold, fun _ => ⟨now, limit, rfl, hout⟩⟩
        · exact .inl hhas'
      | expire => exact .inl hhas
    · exact .inr ⟨hold, fun h => absurd h hhas⟩
  · exact .inl (hmembers n hn)

theorem nextRequest_eq (h : r.Change step r') :
    r.asks? step = none ∧ r'.nextRequest = r.nextRequest ∨
    r.asks? step = some r.nextRequest ∧ r'.nextRequest = r.nextRequest + 1 := by
  cases h with
  | keep d hasks | answer d id hasks | depart d name hasks => exact .inl ⟨hasks, rfl⟩
  | ask d k hasks => exact .inr ⟨hasks, rfl⟩
  | evict | expire => exact .inl ⟨rfl, rfl⟩

end Change

section numbers

variable {r : Relay} {step : RelayStep} {steps later : List RelayStep} {id : UInt64} {k : Lookup}

/-- Members stand under their own names, and lookups have numbers that are used up. -/
structure Sound (r : Relay) : Prop where
  keyed : r.directory.Keyed
  lt_next : ∀ id k, r.lookups.get? id = some k → id < r.nextRequest

theorem sound_initial : ({} : Relay).Sound :=
  ⟨Directory.keyed_empty, by rintro id k ⟨⟩⟩

theorem Sound.toNat_nextRequest (hr : r.Sound) (hn : r.Lasts (step :: steps)) :
    (r.after step).nextRequest.toNat = r.nextRequest.toNat + (r.asks? step).toList.length := by
  unfold Lasts at hn
  simp only [asked, List.length_append] at hn
  rcases (change hr.keyed step).nextRequest_eq with ⟨hasks, hnext⟩ | ⟨hasks, hnext⟩
  · rw [hasks, hnext]
    rfl
  · rw [hasks] at hn ⊢
    simp only [Option.toList_some, List.length_cons, List.length_nil] at hn ⊢
    rw [hnext, UInt64.toNat_add]
    exact Nat.mod_eq_of_lt (by change r.nextRequest.toNat + 1 < _; omega)

theorem Sound.after (hr : r.Sound) (hn : r.Lasts (step :: steps)) :
    (r.after step).Sound ∧ (r.after step).Lasts steps := by
  have hnext := hr.toNat_nextRequest hn
  have hchange := change hr.keyed step
  refine ⟨⟨hchange.keyed, ?_⟩, ?_⟩
  · intro id k hk
    rw [UInt64.lt_iff_toNat_lt, hnext]
    rcases hchange.lookup_cases hk with hold | ⟨hasks, rfl, -⟩
    · have := UInt64.lt_iff_toNat_lt.1 (hr.lt_next id k hold)
      omega
    · simp [hasks]
  · unfold Lasts at hn ⊢
    simp only [asked, List.length_append] at hn
    omega

/-- The queries of a run are numbered one after the other. -/
theorem Sound.run (hr : r.Sound) (hn : r.Lasts steps) :
    (r.run steps).Sound ∧
      (r.asked steps).map UInt64.toNat =
        List.range' r.nextRequest.toNat (r.asked steps).length ∧
      (r.run steps).nextRequest.toNat = r.nextRequest.toNat + (r.asked steps).length := by
  induction steps generalizing r with
  | nil => exact ⟨hr, rfl, rfl⟩
  | cons step steps ih =>
    obtain ⟨hr', hn'⟩ := hr.after hn
    obtain ⟨hrun, hmap, hnext'⟩ := ih hr' hn'
    have hnext := hr.toNat_nextRequest hn
    refine ⟨hrun, ?_, ?_⟩
    · rw [asked, List.map_append, hmap, hnext, List.length_append, ← List.range'_append_1]
      rcases (change hr.keyed step).nextRequest_eq with ⟨hasks, -⟩ | ⟨hasks, -⟩ <;> simp [hasks]
    · rw [asked, List.length_append]
      exact hnext'.trans (by rw [hnext]; omega)

theorem run_append : r.run (steps ++ later) = (r.run steps).run later :=
  List.foldl_append ..

theorem asked_append : r.asked (steps ++ later) = r.asked steps ++ (r.run steps).asked later := by
  induction steps generalizing r with
  | nil => rfl
  | cons step steps ih =>
    rw [List.cons_append, asked, ih, asked, List.append_assoc]
    rfl

theorem lasts_of_append (hn : r.Lasts (steps ++ later)) : r.Lasts steps := by
  unfold Lasts at hn ⊢
  rw [asked_append, List.length_append] at hn
  omega

theorem Sound.lasts_append (hr : r.Sound) (hn : r.Lasts (steps ++ later)) :
    (r.run steps).Sound ∧ (r.run steps).Lasts later := by
  obtain ⟨hrun, -, hnext⟩ := hr.run (lasts_of_append hn)
  refine ⟨hrun, ?_⟩
  unfold Lasts at hn ⊢
  rw [asked_append, List.length_append] at hn
  omega

/-- No query has the number of an earlier query or of a lookup. -/
theorem Sound.fresh (hr : r.Sound) (hn : r.Lasts (steps ++ later))
    (hid : id ∈ (r.run steps).asked later) :
    (r.run steps).lookups.get? id = none ∧ id ∉ r.asked steps := by
  obtain ⟨hrun, hlater⟩ := hr.lasts_append hn
  obtain ⟨-, hmap, hnext⟩ := hr.run (lasts_of_append hn)
  have hle : (r.run steps).nextRequest.toNat ≤ id.toNat := by
    have hmem := List.mem_map_of_mem (f := UInt64.toNat) hid
    rw [(hrun.run hlater).2.1, List.mem_range'_1] at hmem
    exact hmem.1
  constructor
  · cases hk : (r.run steps).lookups.get? id with
    | none => rfl
    | some k =>
      have := UInt64.lt_iff_toNat_lt.1 (hrun.lt_next id k hk)
      omega
  · intro hold
    have hmem := List.mem_map_of_mem (f := UInt64.toNat) hold
    rw [hmap, List.mem_range'_1] at hmem
    omega

/-- Under a number that is used up there is what was there before, or nothing. -/
theorem Sound.get?_run (hr : r.Sound) (hn : r.Lasts steps) (hid : id < r.nextRequest)
    (hk : (r.run steps).lookups.get? id = some k) : r.lookups.get? id = some k := by
  induction steps generalizing r with
  | nil => exact hk
  | cons step steps ih =>
    obtain ⟨hr', hn'⟩ := hr.after hn
    have hid' : id < (r.after step).nextRequest := by
      have := UInt64.lt_iff_toNat_lt.1 hid
      rw [UInt64.lt_iff_toNat_lt, hr.toNat_nextRequest hn]
      omega
    rcases (change hr.keyed step).lookup_cases (ih hr' hn' hid' hk) with hold | ⟨-, rfl, -⟩
    · exact hold
    · exact absurd hid (UInt64.lt_irrefl _)

/-- The relay has come about by a run that left it numbers. -/
def Reachable (r : Relay) : Prop :=
  ∃ steps, ({} : Relay).Lasts steps ∧ r = ({} : Relay).run steps

theorem Reachable.sound (hr : r.Reachable) : r.Sound := by
  obtain ⟨steps, hn, rfl⟩ := hr
  exact (sound_initial.run hn).1

end numbers

end Relay

end PortalNet
