import PortalNet.Backend.Loop
import PortalNet.Proofs.Backend.Isolation

/-! # Runs of the server at work

What follows from a player's silence is done when the timeout has its turn, later than the silence
was noticed, and is not reconsidered: a player who has been heard in between goes all the same.
-/

namespace PortalNet

inductive BackendLoopStep where
  | arrive (packet : Packet) (addr : Address)
  | stop
  | patrol (now : Nat)
  | turn (now : Nat) (fresh : Nat → Uuid)
  | tick
  | host (worlds : Worlds)

namespace BackendLoop

def after (l : BackendLoop) : BackendLoopStep → BackendLoop
  | .arrive packet addr => l.arrive packet addr
  | .stop => l.stop
  | .patrol now => l.patrol now
  | .turn now fresh => (l.turn now fresh).1
  | .tick => l.tick.1
  | .host worlds => { l with backend := l.backend.after (.host worlds) }

def run (l : BackendLoop) (steps : List BackendLoopStep) : BackendLoop :=
  steps.foldl after l

/-- What a step means to the server itself. -/
def backendSteps (l : BackendLoop) : BackendLoopStep → List BackendStep
  | .arrive .. | .stop | .patrol _ => []
  | .turn now fresh =>
    match l.running, l.queue with
    | true, event :: _ => [.handle event now fresh]
    | _, _ => []
  | .tick => if l.running then [.tick] else []
  | .host worlds => [.host worlds]

def history (l : BackendLoop) : List BackendLoopStep → List BackendStep
  | [] => []
  | step :: steps => l.backendSteps step ++ (l.after step).history steps

/-- A packet from an address that is not the relay's is handled. -/
def Hears (l : BackendLoop) (addr : Address) (time : Nat) (step : BackendLoopStep) : Prop :=
  ∃ packet fresh, .handle (.packet packet addr) time fresh ∈ l.backendSteps step ∧
    l.backend.relay ≠ some addr

/-- The address is heard on the way. -/
def Heard (l : BackendLoop) (addr : Address) (time : Nat) (steps : List BackendLoopStep) : Prop :=
  ∃ before step later, steps = before ++ step :: later ∧ (l.run before).Hears addr time step

end BackendLoop

/-- Who is connected from where, and when they were heard last. -/
def Session.pulse (x : Session) : Uuid × Address × Nat :=
  (x.player, x.addr, x.lastSeen)

theorem Session.pulse_traverse (x : Session) (r : Registry) (cooldown : UInt32) :
    (x.traverse r cooldown).1.pulse = x.pulse := by
  unfold traverse
  split
  · rfl
  · split
    · rfl
    · simp only [enter]
      repeat' split <;> try rfl

theorem Session.isSilent_congr {x y : Session} {now later limit : Nat}
    (h : x.isSilent now limit = true) (hy : y.lastSeen = x.lastSeen) (hle : now ≤ later) :
    y.isSilent later limit = true := by
  simp only [isSilent, decide_eq_true_eq, hy] at h ⊢
  omega

namespace Backend

variable {b : Backend} {step : BackendStep} {h : Handle} {y : Session} {now : Nat}

theorem mem_silent_iff (hb : b.sessions.Addressed) :
    h ∈ b.silent now ↔
      ∃ x, b.sessions.session? h = some x ∧ x.isSilent now b.settings.playerTimeout := by
  unfold silent Store.silent
  constructor
  · intro hh
    obtain ⟨x, hx, rfl⟩ := List.mem_map.1 hh
    obtain ⟨hx, hsilent⟩ := List.mem_filter.1 hx
    obtain ⟨k, hk⟩ := Table.mem_values_iff.1 hx
    refine ⟨x, ?_, hsilent⟩
    rw [hb.handle_eq k x hk]
    exact hk
  · rintro ⟨x, hx, hsilent⟩
    exact List.mem_map.2 ⟨x, List.mem_filter.2 ⟨Table.mem_values_iff.2 ⟨h, hx⟩, hsilent⟩,
      hb.handle_eq h x hx⟩

/-- Only a packet from the address of a session makes the session one that was heard later. -/
theorem pulse_of_after (hb : b.sessions.Addressed) (hs : b.sessions.Consistent)
    (hn : b.sessions.Lasts (b.events step)) (hlt : h < b.sessions.nextHandle)
    (hy : (b.after step).sessions.session? h = some y) :
    ∃ x, b.sessions.session? h = some x ∧ y.player = x.player ∧ y.addr = x.addr ∧
      (y.lastSeen = x.lastSeen ∨ ∃ packet fresh,
        step = .handle (.packet packet x.addr) y.lastSeen fresh ∧ b.relay ≠ some x.addr) := by
  have hkept : b.sessions.Narrows Session.pulse (b.after step).sessions →
      ∃ x, b.sessions.session? h = some x ∧ y.player = x.player ∧ y.addr = x.addr ∧
        (y.lastSeen = x.lastSeen ∨ ∃ packet fresh,
          step = .handle (.packet packet x.addr) y.lastSeen fresh ∧ b.relay ≠ some x.addr) := by
    intro hnarrows
    obtain ⟨x, hx, hpulse⟩ := hnarrows.session? h y hy
    obtain ⟨hp, hpulse⟩ := Prod.mk.inj hpulse
    obtain ⟨ha, hseen⟩ := Prod.mk.inj hpulse
    exact ⟨x, hx, hp, ha, .inl hseen⟩
  cases step with
  | host worlds => exact hkept .refl
  | tick =>
    refine hkept ?_
    rw [sessions_after]
    exact .run (keeps_tick Session.pulse_traverse)
  | handle event now fresh =>
    cases event with
    | shutdown => exact hkept .refl
    | playerTimeout handle => exact hkept .disconnect
    | packet packet addr =>
      by_cases hrelay : b.relay = some addr
      · refine hkept ?_
        rw [sessions_after, events, if_pos hrelay]
        exact .run fun e he => keeps_of_mem_relayEvents (fun _ _ _ => rfl) (fun _ _ => rfl) he
      · -- the handle is not a new one, so somebody had it before
        have hold : ∃ x, b.sessions.session? h = some x := by
          refine Option.ne_none_iff_exists'.1 fun hnone => ?_
          have hafter := hs.session?_run _ hn hlt hnone
          rw [← sessions_after, hy] at hafter
          cases hafter
        obtain ⟨x, hx⟩ := hold
        have hafter : (b.after (.handle (.packet packet addr) now fresh)).sessions =
            (b.receiveFromPlayer packet addr now fresh).1.sessions := by
          simp only [after, handle, receive, if_neg hrelay]
        rw [hafter] at hy
        have hisolated := @isolated_receiveFromPlayer b packet addr now fresh hb fun _ _ => hs
        rcases hisolated.sessions h y hy with hxy | ⟨x', hx', rfl, hsteered⟩ | ⟨hnone, -⟩
        · exact ⟨y, hxy, rfl, rfl, .inl rfl⟩
        · refine ⟨x', hx', hsteered.player, hsteered.addr, .inr ⟨packet, fresh, ?_, hrelay⟩⟩
          rw [hsteered.lastSeen]
        · cases hnone.symm.trans hx

end Backend

namespace BackendLoop

section steps

variable {l : BackendLoop} {step : BackendLoopStep} {steps later : List BackendLoopStep}
  {h : Handle} {addr : Address} {time : Nat}

/-- A turn handles the first event, if there is one and the server still takes any. -/
theorem turn_cases (l : BackendLoop) (now : Nat) (fresh : Nat → Uuid) :
    (∃ event queue, l.queue = event :: queue ∧
      l.backendSteps (.turn now fresh) = [.handle event now fresh] ∧
      (l.after (.turn now fresh)).backend = l.backend.after (.handle event now fresh) ∧
      (l.after (.turn now fresh)).queue = queue) ∨
    (l.backendSteps (.turn now fresh) = [] ∧ l.after (.turn now fresh) = l) := by
  simp only [backendSteps, after, turn]
  cases hrunning : l.running with
  | false => exact .inr ⟨rfl, rfl⟩
  | true =>
    cases hqueue : l.queue with
    | nil => exact .inr ⟨rfl, rfl⟩
    | cons event queue => exact .inl ⟨event, queue, rfl, rfl, rfl, rfl⟩

theorem backend_after : (l.after step).backend = l.backend.run (l.backendSteps step) := by
  cases step with
  | arrive | stop | patrol | host => rfl
  | tick =>
    simp only [after, tick, backendSteps]
    split <;> rfl
  | turn now fresh =>
    rcases l.turn_cases now fresh with ⟨event, queue, -, hsteps, hbackend, -⟩ | ⟨hsteps, hafter⟩
    · rw [hsteps, hbackend]
      rfl
    · rw [hsteps, hafter]
      rfl

theorem backend_run : (l.run steps).backend = l.backend.run (l.history steps) := by
  induction steps generalizing l with
  | nil => rfl
  | cons step steps ih =>
    rw [history, Backend.run_append, ← backend_after]
    exact ih

theorem run_append : l.run (steps ++ later) = (l.run steps).run later :=
  List.foldl_append ..

theorem history_append :
    l.history (steps ++ later) = l.history steps ++ (l.run steps).history later := by
  induction steps generalizing l with
  | nil => rfl
  | cons step steps ih =>
    rw [List.cons_append, history, ih, history, List.append_assoc]
    rfl

/-- A step does at most one thing to the server. -/
theorem backendSteps_cases (l : BackendLoop) (step : BackendLoopStep) :
    l.backendSteps step = [] ∨ ∃ s, l.backendSteps step = [s] := by
  cases step with
  | arrive | stop | patrol => exact .inl rfl
  | host worlds => exact .inr ⟨_, rfl⟩
  | tick =>
    simp only [backendSteps]
    split
    · exact .inr ⟨_, rfl⟩
    · exact .inl rfl
  | turn now fresh =>
    rcases l.turn_cases now fresh with ⟨event, queue, -, hsteps, -⟩ | ⟨hsteps, -⟩
    · exact .inr ⟨_, hsteps⟩
    · exact .inl hsteps

theorem Heard.cons (hheard : (l.after step).Heard addr time steps) :
    l.Heard addr time (step :: steps) := by
  obtain ⟨before, s, later, rfl, hears⟩ := hheard
  exact ⟨step :: before, s, later, rfl, hears⟩

/-- A timeout that waits after a step waited before, or the step has just put it there. -/
theorem timeout_of_after (hh : .playerTimeout h ∈ (l.after step).queue) :
    .playerTimeout h ∈ l.queue ∨ ∃ pass, step = .patrol pass ∧ h ∈ l.backend.silent pass := by
  cases step with
  | arrive | stop =>
    rcases List.mem_append.1 hh with hh | hh
    · exact .inl hh
    · simp at hh
  | patrol pass =>
    rcases List.mem_append.1 hh with hh | hh
    · exact .inl hh
    · obtain ⟨k, hk, heq⟩ := List.mem_map.1 hh
      obtain rfl := BackendEvent.playerTimeout.inj heq
      exact .inr ⟨pass, rfl, hk⟩
  | host worlds => exact .inl hh
  | tick =>
    simp only [after, tick] at hh
    split at hh <;> exact .inl hh
  | turn now fresh =>
    rcases l.turn_cases now fresh with ⟨event, queue, hqueue, -, -, hrest⟩ | ⟨-, hafter⟩
    · exact .inl (hqueue ▸ List.mem_cons_of_mem _ (hrest ▸ hh))
    · exact .inl (by rwa [hafter] at hh)

/-- Every timeout that waits was put there by a patrol. -/
theorem timeout_of_run (hh : .playerTimeout h ∈ (l.run steps).queue) :
    .playerTimeout h ∈ l.queue ∨
    ∃ before pass later, steps = before ++ .patrol pass :: later ∧
      h ∈ (l.run before).backend.silent pass := by
  induction steps generalizing l with
  | nil => exact .inl hh
  | cons step steps ih =>
    rcases ih hh with hh | ⟨before, pass, later, rfl, hsilent⟩
    · rcases timeout_of_after hh with hh | ⟨pass, rfl, hsilent⟩
      · exact .inl hh
      · exact .inr ⟨[], pass, steps, rfl, hsilent⟩
    · exact .inr ⟨step :: before, pass, later, rfl, hsilent⟩

theorem timeout_of_backendSteps {now : Nat} {fresh : Nat → Uuid}
    (hh : l.backendSteps step = [.handle (.playerTimeout h) now fresh]) :
    .playerTimeout h ∈ l.queue := by
  cases step with
  | arrive | stop | patrol | host => cases hh
  | tick =>
    simp only [backendSteps] at hh
    split at hh <;> cases hh
  | turn now' fresh' =>
    rcases l.turn_cases now' fresh' with ⟨event, queue, hqueue, hsteps, -⟩ | ⟨hsteps, -⟩
    · rw [hsteps] at hh
      cases hh
      rw [hqueue]
      exact List.mem_cons_self
    · rw [hsteps] at hh
      cases hh

end steps

/-- No two sessions share an address, and the handles that are left suffice for a run. -/
structure Sound (l : BackendLoop) (steps : List BackendLoopStep) : Prop where
  addressed : l.backend.sessions.Addressed
  consistent : l.backend.sessions.Consistent
  lasts : l.backend.sessions.Lasts (l.backend.history (l.history steps))

section sound

variable {l : BackendLoop} {step : BackendLoopStep} {steps later : List BackendLoopStep}
  {h : Handle} {x : Session}

theorem Sound.append (hl : l.Sound (steps ++ later)) :
    l.Sound steps ∧ (l.run steps).Sound later := by
  obtain ⟨haddressed, hs, hn⟩ := hl
  rw [history_append, Backend.history_append] at hn
  refine ⟨⟨haddressed, hs, Store.lasts_of_append hn⟩, ?_⟩
  obtain ⟨hrun, hlasts⟩ := hs.lasts_append hn
  rw [← Backend.sessions_run] at hrun hlasts
  constructor <;> rw [backend_run]
  · exact Backend.addressed_run haddressed _
  · exact hrun
  · exact hlasts

theorem Sound.lt_next (hl : l.Sound steps) (hlt : h < l.backend.sessions.nextHandle) :
    h < (l.run steps).backend.sessions.nextHandle := by
  obtain ⟨-, hnext, -⟩ := hl.consistent.run _ hl.lasts
  rw [backend_run, Backend.sessions_run, UInt32.lt_iff_toNat_lt, hnext]
  exact Nat.lt_add_right _ (UInt32.lt_iff_toNat_lt.1 hlt)

/-- A session that was there before a step is as it was, or its player has been heard. -/
theorem Sound.pulse_of_after (hl : l.Sound [step]) (hlt : h < l.backend.sessions.nextHandle)
    (hx : (l.after step).backend.sessions.session? h = some x) :
    ∃ y, l.backend.sessions.session? h = some y ∧ x.player = y.player ∧ x.addr = y.addr ∧
      (x.lastSeen = y.lastSeen ∨ l.Hears y.addr x.lastSeen step) := by
  obtain ⟨haddressed, hs, hn⟩ := hl
  rcases l.backendSteps_cases step with hnone | ⟨s, hone⟩
  · rw [backend_after, hnone] at hx
    exact ⟨x, hx, rfl, rfl, .inl rfl⟩
  · rw [backend_after, hone] at hx
    have hhistory : l.backend.history (l.history [step]) = l.backend.events s := by
      simp only [history, hone, Backend.history, List.append_nil]
    rw [hhistory] at hn
    obtain ⟨y, hy, hp, ha, hseen⟩ := Backend.pulse_of_after haddressed hs hn hlt hx
    refine ⟨y, hy, hp, ha, hseen.imp_right ?_⟩
    rintro ⟨packet, fresh, rfl, hrelay⟩
    exact ⟨packet, fresh, by rw [hone]; exact List.mem_singleton_self _, hrelay⟩

theorem Sound.pulse_of_run (hl : l.Sound steps) (hlt : h < l.backend.sessions.nextHandle)
    (hx : (l.run steps).backend.sessions.session? h = some x) :
    ∃ y, l.backend.sessions.session? h = some y ∧ x.player = y.player ∧ x.addr = y.addr ∧
      (x.lastSeen = y.lastSeen ∨ l.Heard x.addr x.lastSeen steps) := by
  induction steps generalizing l with
  | nil => exact ⟨x, hx, rfl, rfl, .inl rfl⟩
  | cons step steps ih =>
    obtain ⟨hstep, hrest⟩ := @Sound.append l [step] steps hl
    obtain ⟨z, hz, hp, ha, hseen⟩ := ih hrest (hstep.lt_next hlt) hx
    obtain ⟨y, hy, hp', ha', hseen'⟩ := hstep.pulse_of_after hlt hz
    refine ⟨y, hy, hp.trans hp', ha.trans ha', ?_⟩
    rcases hseen with hseen | hheard
    · rw [hseen]
      refine hseen'.imp_right fun hears => ?_
      exact ⟨[], step, steps, rfl, by rwa [ha, ha']⟩
    · exact .inr hheard.cons

end sound

/-- Whoever a timeout disconnects was silent for too long when a patrol came by, and still is,
unless a packet of theirs has been handled since. -/
theorem timed_out_silent {settings : Settings} {relay : Option Address} {file : Option String}
    {supply : Nat → Uuid} {b₀ : Backend}
    (hstart : Backend.start settings relay file supply = .ok b₀) (steps : List BackendLoopStep)
    (hn : b₀.sessions.opened (b₀.history (BackendLoop.history ⟨b₀, [], true⟩ steps)) <
      Store.handleLimit) :
    let l₀ : BackendLoop := ⟨b₀, [], true⟩
    let l := l₀.run steps
    ∀ h x now fresh,
      l.backendSteps (.turn now fresh) = [.handle (.playerTimeout h) now fresh] →
      l.backend.sessions.session? h = some x →
      (l.after (.turn now fresh)).backend.sessions.session? h = none ∧
      ∃ before pass later y, steps = before ++ .patrol pass :: later ∧
        (l₀.run before).backend.sessions.session? h = some y ∧
        x.player = y.player ∧ x.addr = y.addr ∧
        y.isSilent pass b₀.settings.playerTimeout ∧
        ((∀ now, pass ≤ now → x.isSilent now b₀.settings.playerTimeout) ∨
          (l₀.run (before ++ [.patrol pass])).Heard x.addr x.lastSeen later) := by
  intro l₀ l h x now fresh htimeout hx
  have hempty := Backend.start_sessions hstart
  have hl : l₀.Sound steps := by
    refine ⟨hempty ▸ .empty _, hempty ▸ .empty _, ?_⟩
    rw [hempty] at hn ⊢
    exact Store.lasts_empty hn
  constructor
  · rw [backend_after, htimeout]
    exact Store.session?_disconnect.trans (if_pos rfl)
  · rcases timeout_of_run (timeout_of_backendSteps htimeout) with
      hno | ⟨before, pass, later, rfl, hh⟩
    · cases hno
    have hsplit : before ++ .patrol pass :: later = (before ++ [.patrol pass]) ++ later := by simp
    obtain ⟨-, hm⟩ := Sound.append (hsplit ▸ hl)
    have hpatrol : (l₀.run (before ++ [.patrol pass])).backend = (l₀.run before).backend := by
      rw [run_append]
      rfl
    have hsettings : (l₀.run before).backend.settings = b₀.settings := by
      rw [backend_run]
      exact (Backend.place_run b₀ _).1
    obtain ⟨y, hy, hsilent⟩ := (Backend.mem_silent_iff (hpatrol ▸ hm.addressed)).1 hh
    have hlt := (hpatrol ▸ hm.consistent).lt_next h y hy
    rw [hsettings] at hsilent
    obtain ⟨y', hy', hp, ha, hseen⟩ :=
      hm.pulse_of_run (hpatrol ▸ hlt) (by rwa [← run_append, ← hsplit])
    rw [hpatrol] at hy'
    obtain rfl := Option.some.inj (hy.symm.trans hy')
    refine ⟨before, pass, later, y, rfl, hy, hp, ha, hsilent, hseen.imp_left ?_⟩
    intro hseen now hle
    exact Session.isSilent_congr hsilent hseen hle

end BackendLoop

namespace Sample

/-- The player joins and is let in. -/
def visit : List BackendLoopStep :=
  [.arrive (.join protocolVersion player) address, .turn 0 supply]

end Sample

namespace BackendLoop

open Sample in
/-- The player of the sample is not heard again. -/
theorem idle_player_timed_out :
    let l₀ : BackendLoop := ⟨host, [], true⟩
    let l := l₀.run (visit ++ [.patrol (11 * second)])
    let turn := .turn (12 * second) supply
    host.sessions.opened (host.history (l₀.history (visit ++ [.patrol (11 * second)]))) <
      Store.handleLimit ∧
    l.backendSteps turn = [.handle (.playerTimeout 1) (12 * second) supply] ∧
    (l.backend.sessions.session? 1).isSome ∧
    (l.after turn).backend.sessions.session? 1 = none ∧
    ∃ before pass later y, visit ++ [.patrol (11 * second)] = before ++ .patrol pass :: later ∧
      (l₀.run before).backend.sessions.session? 1 = some y ∧
      y.isSilent pass host.settings.playerTimeout := by
  intro l₀ l turn
  have hn : host.sessions.opened (host.history (l₀.history (visit ++ [.patrol (11 * second)]))) <
      Store.handleLimit := by decide +kernel
  have htimeout : l.backendSteps turn = [.handle (.playerTimeout 1) (12 * second) supply] := rfl
  have hlive : (l.backend.sessions.session? 1).isSome := by decide +kernel
  obtain ⟨x, hx⟩ := Option.isSome_iff_exists.1 hlive
  obtain ⟨hclosed, before, pass, later, y, hsplit, hy, -, -, hsilent, -⟩ :=
    timed_out_silent start_host _ hn 1 x _ _ htimeout hx
  exact ⟨hn, htimeout, hlive, hclosed, before, pass, later, y, hsplit, hy, hsilent⟩

open Sample in
/-- A packet of the player waits while a patrol comes by, and is handled before the timeout. The
player has just been heard and goes all the same. -/
theorem heard_player_timed_out :
    let l₀ : BackendLoop := ⟨host, [], true⟩
    let turn := .turn (11 * second) supply
    let noticed := l₀.run (visit ++ [.arrive .heartbeat address, .patrol (11 * second)])
    let l := noticed.after turn
    noticed.Hears address (11 * second) turn ∧
    l.backendSteps turn = [.handle (.playerTimeout 1) (11 * second) supply] ∧
    (l.backend.sessions.session? 1).map Session.pulse = some (player, address, 11 * second) ∧
    l.backend.silent (11 * second) = [] ∧
    (l.after turn).backend.sessions.byPlayer? player = none := by
  intro l₀ turn noticed l
  exact ⟨⟨.heartbeat, supply, List.mem_singleton_self _, by decide⟩, rfl, by decide +kernel,
    by decide +kernel, by decide +kernel⟩

end BackendLoop

end PortalNet
