import PortalNet.Proofs.Relay.Run
import PortalNet.Relay.Loop

/-! # Runs of the relay at work

An eviction is acted on only when the timeout that it puts in the queue has its turn. No lookup
stays behind for a server that is gone, but one that is new can fall to an eviction that is old.
-/

namespace PortalNet

inductive LoopStep where
  | arrive (packet : Packet) (addr : Address)
  | stop
  | evict (now limit : Nat)
  | turn (now : Nat)

namespace Sample

/-- Two servers register, the second one late. -/
def registrations : List LoopStep :=
  [.arrive (.register protocolVersion "survival") survivalAddress,
    .arrive (.register protocolVersion "creative") creativeAddress, .turn 0, .turn 90]

/-- The player leaves the one for the other. -/
def switch : LoopStep :=
  .arrive (.switchServer player "creative") survivalAddress

end Sample

namespace RelayLoop

def after (l : RelayLoop) : LoopStep → RelayLoop
  | .arrive packet addr => l.arrive packet addr
  | .stop => l.stop
  | .evict now limit => l.evict now limit
  | .turn now => (l.turn now).1

def run (l : RelayLoop) (steps : List LoopStep) : RelayLoop :=
  steps.foldl after l

/-- What a step means to the relay itself. -/
def relaySteps (l : RelayLoop) : LoopStep → List RelayStep
  | .arrive .. | .stop => []
  | .evict now limit => [.evict now limit]
  | .turn now =>
    match l.running, l.queue with
    | true, event :: _ => [.handle event now]
    | _, _ => []

def history (l : RelayLoop) : List LoopStep → List RelayStep
  | [] => []
  | step :: steps => l.relaySteps step ++ (l.after step).history steps

/-- The queries that the relay sends in a run. -/
def asked (l : RelayLoop) (steps : List LoopStep) : List UInt64 :=
  l.relay.asked (l.history steps)

/-- The server is registered, or is about to be noticed as gone. -/
def Knows (l : RelayLoop) (server : String) : Prop :=
  l.relay.directory.Has server ∨ .serverTimeout server ∈ l.queue

def Departs (l : RelayLoop) (server : String) (step : LoopStep) : Prop :=
  ∃ s ∈ l.relaySteps step, l.relay.Departs server s

/-- One of the servers of the lookup departs on the way. -/
def Parts (l : RelayLoop) (k : Lookup) (steps : List LoopStep) : Prop :=
  ∃ before step later n, steps = before ++ step :: later ∧ k.involves n ∧
    (l.run before).Departs n step

def Answers (l : RelayLoop) (id : UInt64) (step : LoopStep) : Prop :=
  ∃ s ∈ l.relaySteps step, l.relay.Answers id s

section steps

variable {l : RelayLoop} {step : LoopStep} {steps later : List LoopStep} {s : RelayStep}
  {server : String}

/-- A turn handles the first event, if there is one and the relay still takes any. -/
theorem turn_cases (l : RelayLoop) (now : Nat) :
    (∃ event queue, l.queue = event :: queue ∧ l.relaySteps (.turn now) = [.handle event now] ∧
      (l.after (.turn now)).relay = l.relay.after (.handle event now) ∧
      (l.after (.turn now)).queue = queue) ∨
    (l.relaySteps (.turn now) = [] ∧ l.after (.turn now) = l) := by
  simp only [relaySteps, after, turn]
  cases hrunning : l.running with
  | false => exact .inr ⟨rfl, rfl⟩
  | true =>
    cases hqueue : l.queue with
    | nil => exact .inr ⟨rfl, rfl⟩
    | cons event queue => exact .inl ⟨event, queue, rfl, rfl, rfl, rfl⟩

theorem relay_after : (l.after step).relay = l.relay.run (l.relaySteps step) := by
  cases step with
  | arrive | stop | evict => rfl
  | turn now =>
    rcases l.turn_cases now with ⟨event, queue, -, hsteps, hrelay, -⟩ | ⟨hsteps, hafter⟩
    · rw [hsteps, hrelay]
      rfl
    · rw [hsteps, hafter]
      rfl

theorem relay_run : (l.run steps).relay = l.relay.run (l.history steps) := by
  induction steps generalizing l with
  | nil => rfl
  | cons step steps ih =>
    rw [history, Relay.run_append, ← relay_after]
    exact ih

theorem run_append : l.run (steps ++ later) = (l.run steps).run later :=
  List.foldl_append ..

theorem history_append :
    l.history (steps ++ later) = l.history steps ++ (l.run steps).history later := by
  induction steps generalizing l with
  | nil => rfl
  | cons step steps ih =>
    rw [List.cons_append, history, ih, history, List.append_assoc]
    rfl

/-- A step does at most one thing to the relay. -/
theorem relaySteps_cases (l : RelayLoop) (step : LoopStep) :
    l.relaySteps step = [] ∧ (l.after step).relay = l.relay ∨
    ∃ s, l.relaySteps step = [s] ∧ (l.after step).relay = l.relay.after s := by
  have hrelay : (l.after step).relay = l.relay.run (l.relaySteps step) := relay_after
  cases step with
  | arrive | stop => exact .inl ⟨rfl, rfl⟩
  | evict now limit => exact .inr ⟨_, rfl, rfl⟩
  | turn now =>
    rcases l.turn_cases now with ⟨event, queue, -, hsteps, -⟩ | ⟨hsteps, -⟩
    · exact .inr ⟨_, hsteps, by rwa [hsteps] at hrelay⟩
    · exact .inl ⟨hsteps, by rwa [hsteps] at hrelay⟩

/-- A timeout waits until its turn comes. -/
theorem timeout_after (h : .serverTimeout server ∈ l.queue) :
    .serverTimeout server ∈ (l.after step).queue ∨
    ∃ now, l.relaySteps step = [.handle (.serverTimeout server) now] := by
  cases step with
  | arrive | stop | evict => exact .inl (List.mem_append_left _ h)
  | turn now =>
    rcases l.turn_cases now with ⟨event, queue, hqueue, hsteps, -, hrest⟩ | ⟨-, hafter⟩
    · rw [hqueue] at h
      rcases List.mem_cons.1 h with rfl | h
      · exact .inr ⟨now, hsteps⟩
      · exact .inl (hrest ▸ h)
    · exact .inl (by rwa [hafter])

/-- A timeout that waits after a step waited before, or its server has just been evicted. -/
theorem timeout_of_after (h : .serverTimeout server ∈ (l.after step).queue) :
    .serverTimeout server ∈ l.queue ∨ l.Departs server step := by
  cases step with
  | arrive | stop =>
    rcases List.mem_append.1 h with h | h
    · exact .inl h
    · simp at h
  | evict now limit =>
    rcases List.mem_append.1 h with h | h
    · exact .inl h
    · obtain ⟨name, hname, heq⟩ := List.mem_map.1 h
      obtain rfl := RelayEvent.serverTimeout.inj heq
      exact .inr ⟨_, List.mem_singleton_self _, .evicted now limit hname⟩
  | turn now =>
    rcases l.turn_cases now with ⟨event, queue, hqueue, -, -, hrest⟩ | ⟨-, hafter⟩
    · exact .inl (hqueue ▸ List.mem_cons_of_mem _ (hrest ▸ h))
    · exact .inl (hafter ▸ h)

/-- Only a timeout that waits is handled. -/
theorem timeout_of_relaySteps {now : Nat}
    (h : l.relaySteps step = [.handle (.serverTimeout server) now]) :
    .serverTimeout server ∈ l.queue := by
  cases step with
  | arrive | stop | evict => cases h
  | turn now' =>
    rcases l.turn_cases now' with ⟨event, queue, hqueue, hsteps, -⟩ | ⟨hsteps, -⟩
    · rw [hsteps] at h
      cases h
      rw [hqueue]
      exact List.mem_cons_self
    · rw [hsteps] at h
      cases h

theorem timeout_of_run (h : .serverTimeout server ∈ (l.run steps).queue) :
    .serverTimeout server ∈ l.queue ∨
    ∃ mid step rest, steps = mid ++ step :: rest ∧ (l.run mid).Departs server step := by
  induction steps generalizing l with
  | nil => exact .inl h
  | cons step steps ih =>
    rcases ih h with h | ⟨mid, e, rest, rfl, hdeparts⟩
    · rcases timeout_of_after h with h | hdeparts
      · exact .inl h
      · exact .inr ⟨[], step, steps, rfl, hdeparts⟩
    · exact .inr ⟨step :: mid, e, rest, rfl, hdeparts⟩

end steps

section known

variable {l : RelayLoop} {step : LoopStep} {steps : List LoopStep} {n : String}

/-- Every lookup is for two servers that the loop knows. -/
structure Sound (l : RelayLoop) : Prop where
  keyed : l.relay.directory.Keyed
  knows : ∀ id k n, l.relay.lookups.get? id = some k → k.involves n → l.Knows n

theorem sound_initial : ({} : RelayLoop).Sound :=
  ⟨Directory.keyed_empty, by rintro id k n ⟨⟩⟩

theorem timeout_of_evict {now limit : Nat} (h : l.relaySteps step = [.evict now limit])
    (hn : n ∈ (l.relay.evict now limit).1) : .serverTimeout n ∈ (l.after step).queue := by
  cases step with
  | arrive | stop => cases h
  | evict now' limit' =>
    cases h
    exact List.mem_append_right _ (List.mem_map.2 ⟨n, hn, rfl⟩)
  | turn now' =>
    rcases l.turn_cases now' with ⟨event, queue, -, hsteps, -⟩ | ⟨hsteps, -⟩ <;>
      rw [hsteps] at h <;> cases h

theorem Sound.after (hl : l.Sound) (step : LoopStep) : (l.after step).Sound := by
  rcases l.relaySteps_cases step with ⟨hnone, hrelay⟩ | ⟨s, hone, hrelay⟩
  · refine ⟨hrelay ▸ hl.keyed, fun id k n hk hn => ?_⟩
    rw [hrelay] at hk
    rcases hl.knows id k n hk hn with hhas | hwaits
    · exact .inl (hrelay ▸ hhas)
    · refine .inr ((timeout_after hwaits).resolve_right ?_)
      rintro ⟨now, h⟩
      rw [hnone] at h
      cases h
  · have hchange := Relay.change hl.keyed s
    rw [← hrelay] at hchange
    refine ⟨hchange.keyed, fun id k n hk hn => ?_⟩
    rcases hchange.involved_cases hk hn with hhas | ⟨hold, hevicted⟩
    · exact .inl hhas
    · rcases hl.knows id k n hold hn with hhas | hwaits
      · obtain ⟨now, limit, rfl, hout⟩ := hevicted hhas
        exact .inr (timeout_of_evict hone hout)
      · rcases timeout_after hwaits with hwaits | ⟨now, h⟩
        · exact .inr hwaits
        -- the step is the timeout of the server, after which no lookup is for it
        · rw [hone] at h
          cases h
          rw [hrelay] at hk
          have hk : (l.relay.forget n).lookups.get? id = some k := hk
          rw [Relay.Change.get?_forget, Option.filter_eq_some_iff] at hk
          simp [hn] at hk

theorem Sound.run (hl : l.Sound) (steps : List LoopStep) : (l.run steps).Sound := by
  induction steps generalizing l with
  | nil => exact hl
  | cons step steps ih => exact ih (hl.after step)

end known

section runs

variable {steps before later : List LoopStep} {id : UInt64} {k : Lookup}

/-- The first number is one, and the last one can only be counted up to. -/
def numberLimit : Nat := 2 ^ 64 - 1

theorem relay_run_initial :
    (({} : RelayLoop).run steps).relay = ({} : Relay).run (({} : RelayLoop).history steps) :=
  relay_run

theorem lasts_history (hn : (({} : RelayLoop).asked steps).length < numberLimit) :
    ({} : Relay).Lasts (({} : RelayLoop).history steps) := by
  change 1 + (({} : RelayLoop).asked steps).length < 2 ^ 64
  unfold numberLimit at hn
  omega

theorem relay_sound_run (hn : (({} : RelayLoop).asked steps).length < numberLimit) :
    (({} : RelayLoop).run steps).relay.Sound := by
  rw [relay_run_initial]
  exact (Relay.sound_initial.run (lasts_history hn)).1

/-- At every moment of every run the two servers of a lookup are registered or have a timeout that
still waits. Short of an overflow of the numbers every query has a number that no query had before
and no lookup has. -/
theorem run_lookups_known (steps : List LoopStep) :
    let l := ({} : RelayLoop).run steps
    (∀ id k, l.relay.lookups.get? id = some k → l.Knows k.source ∧ l.Knows k.target) ∧
    ((({} : RelayLoop).asked steps).length < numberLimit →
      l.relay.lookups.keys.Nodup ∧
      (∀ id k, l.relay.lookups.get? id = some k → id < l.relay.nextRequest) ∧
      (({} : RelayLoop).asked steps).Nodup ∧
      ∀ before step later id, steps = before ++ step :: later →
        let l := ({} : RelayLoop).run before
        id ∈ l.asked [step] →
        l.relay.lookups.get? id = none ∧ id ∉ ({} : RelayLoop).asked before) := by
  intro l
  have hl : l.Sound := sound_initial.run steps
  refine ⟨fun id k hk => ?_, fun hn => ?_⟩
  · exact ⟨hl.knows id k _ hk (Lookup.involves_iff.2 (.inl rfl)),
      hl.knows id k _ hk (Lookup.involves_iff.2 (.inr rfl))⟩
  · have hlasts := lasts_history hn
    obtain ⟨-, hmap, -⟩ := Relay.sound_initial.run hlasts
    refine ⟨l.relay.lookups.nodup, (relay_sound_run hn).lt_next, ?_, ?_⟩
    · have hnodup : ((({} : RelayLoop).asked steps).map UInt64.toNat).Nodup :=
        hmap ▸ List.nodup_range'
      exact List.Pairwise.of_map _ (fun _ _ hne heq => hne (congrArg _ heq)) hnodup
    · rintro before step later id rfl l₀ hid
      have hsplit : before ++ step :: later = before ++ [step] ++ later := by simp
      rw [hsplit, history_append, history_append] at hlasts
      have hid : id ∈ l₀.relay.asked (l₀.history [step]) := hid
      rw [relay_run_initial] at hid
      have hfresh := Relay.sound_initial.fresh (Relay.lasts_of_append hlasts) hid
      rwa [← relay_run_initial] at hfresh

open Sample in
/-- Both servers are gone and the lookup is still there. -/
theorem lookup_known_after_eviction :
    let steps := registrations ++ [switch, .turn 90, .evict 200 20]
    let l := ({} : RelayLoop).run steps
    (({} : RelayLoop).asked steps).length < numberLimit ∧
      l.relay.lookups.get? 1 = some lookup ∧ l.Knows "survival" ∧ l.Knows "creative" ∧
      1 < l.relay.nextRequest := by
  intro steps l
  have hn : (({} : RelayLoop).asked steps).length < numberLimit := by decide +kernel
  have hk : l.relay.lookups.get? 1 = some lookup := by decide +kernel
  obtain ⟨hknows, hnumbers⟩ := run_lookups_known steps
  obtain ⟨hsource, htarget⟩ := hknows 1 _ hk
  obtain ⟨-, hlt, -⟩ := hnumbers hn
  exact ⟨hn, hk, hsource, htarget, hlt 1 _ hk⟩

/-- A lookup that is lost without an answer has lost one of its servers since it was made, or falls
to a timeout of one of them that was waiting even then. -/
theorem lost_for_cause {steps between : List LoopStep} {last : LoopStep}
    (hn : (({} : RelayLoop).asked (steps ++ between)).length < numberLimit) :
    let l := ({} : RelayLoop).run steps
    let l' := l.run between
    l.relay.lookups.get? id = some k → l'.relay.lookups.get? id = some k →
    (l'.after last).relay.lookups.get? id = none →
    l'.Answers id last ∨ l.Parts k (between ++ [last]) ∨
      ∃ n now, k.involves n ∧ .serverTimeout n ∈ l.queue ∧
        l'.relaySteps last = [.handle (.serverTimeout n) now] := by
  intro l l' hmade hkept hlost
  have hsound := relay_sound_run hn
  rw [run_append] at hsound
  rcases l'.relaySteps_cases last with ⟨-, hrelay⟩ | ⟨s, hone, hrelay⟩
  · rw [hrelay, hkept] at hlost
    cases hlost
  have hmem : s ∈ l'.relaySteps last := by simp [hone]
  have hchange := Relay.change hsound.keyed s
  rw [← hrelay] at hchange
  rcases hchange.lost_cases hkept (by simp [hlost]) with
    rfl | hanswer | ⟨n, hkn, hdeparts | htimeout⟩
  · exact absurd (hsound.lt_next _ k hkept) (UInt64.lt_irrefl _)
  · exact .inl ⟨s, hmem, hanswer⟩
  · exact .inr (.inl ⟨between, last, [], n, rfl, hkn, s, hmem, hdeparts⟩)
  · obtain ⟨now, rfl⟩ := htimeout
    rcases timeout_of_run (timeout_of_relaySteps hone) with
      hwaits | ⟨mid, step, rest, rfl, hdeparts⟩
    · exact .inr (.inr ⟨n, now, hkn, hwaits, hone⟩)
    · exact .inr (.inl ⟨mid, step, rest ++ [last], n, by simp, hkn, hdeparts⟩)

open Sample in
/-- The server that was asked says farewell. -/
theorem lost_to_farewell :
    let steps := registrations ++ [switch, .turn 90]
    let between := [.arrive .notice survivalAddress]
    let l := ({} : RelayLoop).run steps
    let l' := l.run between
    (({} : RelayLoop).asked (steps ++ between)).length < numberLimit ∧
      l.relay.lookups.get? 1 = some lookup ∧ l'.relay.lookups.get? 1 = some lookup ∧
      (l'.after (.turn 90)).relay.lookups.get? 1 = none ∧
      l.Parts lookup (between ++ [.turn 90]) := by
  intro steps between l l'
  have hn : (({} : RelayLoop).asked (steps ++ between)).length < numberLimit := by decide +kernel
  have hmade : l.relay.lookups.get? 1 = some lookup := by decide +kernel
  have hkept : l'.relay.lookups.get? 1 = some lookup := by decide +kernel
  have hlost : (l'.after (.turn 90)).relay.lookups.get? 1 = none := by decide +kernel
  refine ⟨hn, hmade, hkept, hlost, ?_⟩
  rcases lost_for_cause hn hmade hkept hlost with ⟨s, hs, hanswer⟩ | hparts | ⟨n, now, -, hwaits, -⟩
  · obtain rfl := List.mem_singleton.1 hs
    cases hanswer
  · exact hparts
  · cases hwaits

open Sample in
/-- A server that was evicted has come back and asked for a player when the timeout is handled. The
lookup is dropped, though both servers are registered and nobody departed since it was made. -/
theorem new_lookup_falls_to_old_eviction :
    let l := ({} : RelayLoop).run (registrations ++
      [.arrive (.register protocolVersion "survival") survivalAddress, switch, .evict 100 20,
        .turn 100])
    let made := l.after (.turn 100)
    let l' := made.after (.turn 100)
    (l.relay.lookups.get? 1 = none ∧ made.relay.lookups.get? 1 = some lookup ∧
      l'.relay.lookups.get? 1 = none) ∧
    (∀ n, lookup.involves n → made.relay.directory.Has n ∧ l'.relay.directory.Has n) ∧
    ¬ made.Answers 1 (.turn 100) ∧ ¬ made.Parts lookup [.turn 100] := by
  intro l made l'
  have hstep : made.relaySteps (.turn 100) = [.handle (.serverTimeout "survival") 100] := rfl
  refine ⟨by decide +kernel, ?_, ?_, ?_⟩
  · intro n hn
    rcases Lookup.involves_iff.1 hn with rfl | rfl <;> exact ⟨by decide +kernel, by decide +kernel⟩
  · rintro ⟨s, hs, hanswer⟩
    rw [hstep, List.mem_singleton] at hs
    subst hs
    cases hanswer
  · rintro ⟨before, step, later, n, hsplit, -, s, hs, hdeparts⟩
    have hbefore : before = [] := by
      cases before with
      | nil => rfl
      | cons => simp at hsplit
    subst hbefore
    obtain ⟨rfl, -⟩ := List.cons.inj hsplit
    have hs : s ∈ made.relaySteps (.turn 100) := hs
    rw [hstep, List.mem_singleton] at hs
    subst hs
    cases hdeparts

end runs

end RelayLoop

end PortalNet
