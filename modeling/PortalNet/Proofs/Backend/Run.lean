import PortalNet.Proofs.Backend.Tick
import PortalNet.Proofs.Session.Waiting

/-! # Runs of a server

What can happen to a server between two moments. A teleport that waits for a player is still there
when they join, whatever else happened.
-/

namespace PortalNet

/-- What a command makes of the session of the player who gives it. -/
def Session.obey (x : Session) : Command → Session
  | .selectCorner first block =>
    { x with selections := x.selections.setCorner first ⟨x.avatar.world, block⟩ }
  | .selectOrigin => { x with selections := x.selections.selectOrigin.2 }
  | .selectDestination => { x with selections := x.selections.selectDestination.2 }
  | .setSeesThrough enabled => { x with seesThrough := enabled }
  | _ => x

theorem Session.kept_obey (command : Command) : Kept (·.obey command) := by
  intro x
  cases command <;> exact ⟨rfl, rfl⟩

namespace Command

variable {s : Store} {r : Registry} {handle : Handle}

theorem editNearest_store {l : Location} (message : String)
    (change : Registry → Portal → Except PortalError Unit × Registry) :
    (editNearest s r l message change).store = s := by
  simp only [editNearest]
  split <;> rfl

/-- A command changes at most the session of the player who gives it. -/
theorem execute_store (s : Store) (r : Registry) (handle : Handle)
    (fresh : Nat → Uuid) (command : Command) :
    (command.execute s r handle fresh).store = s.modify handle (·.obey command) := by
  unfold execute
  cases hx : s.session? handle with
  | none => exact (Store.modify_of_none hx).symm
  | some session =>
    cases command with
    | selectCorner | selectOrigin | selectDestination => exact Store.modify_congr hx rfl
    | link | linkExternal | removeNearest => exact Store.modify_id.symm
    | rename | setAllowsNonPlayers => exact (editNearest_store _ _).trans Store.modify_id.symm
    | setSeesThrough enabled => rfl

end Command

/-- A step of a server. Worlds come and go without it. -/
inductive BackendStep where
  | handle (event : BackendEvent) (now : Nat) (fresh : Nat → Uuid)
  | tick
  | host (worlds : Worlds)

namespace Backend

def after (b : Backend) : BackendStep → Backend
  | .handle event now fresh => (b.handle event now fresh).2.1
  | .tick => b.tick.1
  | .host worlds => { b with registry := { b.registry with worlds } }

def run (b : Backend) (steps : List BackendStep) : Backend :=
  steps.foldl after b

/-- What a packet of the relay does to the sessions. -/
def relayEvents (b : Backend) : Packet → List StoreEvent
  | .deliver _ (.teleport r) => [.teleport r b.registry.worlds]
  | .deliver _ (.mirrorSelection m) => [.mirror m]
  | .deliver _ (.selectionResponse _ player (some selection)) => [.mirror ⟨player, selection⟩]
  | _ => []

/-- What a packet of a player does to the sessions. -/
def playerEvents (b : Backend) (packet : Packet) (addr : Address) (now : Nat) : List StoreEvent :=
  match packet with
  | .join version player =>
    if version ≠ protocolVersion then []
    else
      (b.sessions.byAddress? addr).toList.map .disconnect ++
        [.connect player addr b.spawn b.registry.worlds now]
  | _ =>
    match b.sessions.byAddress? addr with
    | none => []
    | some handle =>
      match packet with
      | .move motion =>
        [.modify handle fun x => { x.touch now with avatar := ⟨x.avatar.world, motion⟩ }]
      | .command command => [.modify handle fun x => (x.touch now).obey command]
      | .heartbeat => [.modify handle (·.touch now)]
      | .leave => [.disconnect handle]
      | _ => []

/-- What a step does to the sessions. -/
def events (b : Backend) : BackendStep → List StoreEvent
  | .handle (.packet packet addr) now _ =>
    if b.relay = some addr then b.relayEvents packet else b.playerEvents packet addr now
  | .handle (.playerTimeout handle) _ _ => [.disconnect handle]
  | .handle .shutdown _ _ | .host _ => []
  | .tick => [.edit fun _ x => (x.traverse b.tick.1.registry b.settings.cooldown).1]

/-- What a run does to the sessions. -/
def history (b : Backend) : List BackendStep → List StoreEvent
  | [] => []
  | step :: steps => b.events step ++ (b.after step).history steps

/-- What a step may do to the sessions. -/
inductive Causes (b : Backend) : BackendStep → StoreEvent → Prop where
  | disconnect (step : BackendStep) (handle : Handle) : Causes b step (.disconnect handle)
  | edit (step : BackendStep) (change : Handle → Session → Session) : Causes b step (.edit change)
  | mirror (step : BackendStep) (m : MirrorRequest) : Causes b step (.mirror m)
  | connect (version : UInt32) (p : Uuid) (addr : Address) (now : Nat) (fresh : Nat → Uuid) :
      Causes b (.handle (.packet (.join version p) addr) now fresh)
        (.connect p addr b.spawn b.registry.worlds now)
  | teleport (source : String) (r : TeleportRequest) (addr : Address) (now : Nat)
      (fresh : Nat → Uuid) : b.relay = some addr →
      Causes b (.handle (.packet (.deliver source (.teleport r)) addr) now fresh)
        (.teleport r b.registry.worlds)

/-- The sessions change by events that the step may cause. -/
def Follows (b : Backend) (step : BackendStep) (s : Store) : Prop :=
  ∃ es, s = b.sessions.run es ∧ ∀ e ∈ es, b.Causes step e

section events

variable {b : Backend} {packet : Packet} {addr : Address} {now : Nat} {fresh : Nat → Uuid}
  {step : BackendStep} {steps : List BackendStep}

theorem join_fst {q : Uuid} :
    (b.join protocolVersion q addr now).1 =
      { b with sessions := ((b.vacate addr).connect q addr b.spawn b.registry.worlds now).2 } := by
  simp only [join, ne_eq, not_true_eq_false, if_false]
  split
  · next h => rw [h]
  · next h => rw [h]

theorem join_sessions {q : Uuid} :
    (b.join protocolVersion q addr now).1.sessions =
      ((b.vacate addr).connect q addr b.spawn b.registry.worlds now).2 :=
  congrArg sessions join_fst

theorem join_out {q : Uuid} {a : Arrival}
    (ha : ((b.vacate addr).connect q addr b.spawn b.registry.worlds now).1 = some a) :
    (b.join protocolVersion q addr now).2 =
      [.send addr (.joined a.avatar.world.name a.avatar.motion)] := by
  simp only [join, ne_eq, not_true_eq_false, if_false]
  split
  · next h =>
    rw [h] at ha
    obtain rfl := Option.some.inj ha
    rfl
  · next h =>
    rw [h] at ha
    cases ha

theorem vacate_eq_run :
    b.vacate addr = b.sessions.run ((b.sessions.byAddress? addr).toList.map .disconnect) := by
  unfold vacate
  cases b.sessions.byAddress? addr <;> rfl

theorem runCommand_sessions {handle : Handle} {command : Command} :
    (b.runCommand handle command addr now fresh).1.sessions =
      b.sessions.modify handle fun x => (x.touch now).obey command := by
  simp only [runCommand]
  repeat' split
  all_goals exact (Command.execute_store ..).trans Store.modify_modify

theorem acceptSelection_fst {source : String} {m : MirrorRequest} :
    (b.acceptSelection source m).1 = { b with sessions := (b.sessions.mirror m).2 } := by
  simp only [acceptSelection]
  split <;> rfl

theorem receiveFromRelay_sessions :
    (b.receiveFromRelay packet).1.sessions = b.sessions.run (b.relayEvents packet) := by
  cases packet with
  | deliver source message =>
    cases message with
    | teleport r =>
      simp only [receiveFromRelay, receiveMessage]
      split <;> rfl
    | mirrorSelection m => exact congrArg sessions acceptSelection_fst
    | getSelection =>
      simp only [receiveFromRelay, receiveMessage]
      split <;> rfl
    | selectionResponse id q selection =>
      cases selection with
      | some selection => exact congrArg sessions acceptSelection_fst
      | none => rfl
  | _ => rfl

theorem receiveFromPlayer_sessions :
    (b.receiveFromPlayer packet addr now fresh).1.sessions =
      b.sessions.run (b.playerEvents packet addr now) := by
  cases packet with
  | join version player =>
    by_cases hversion : version = protocolVersion
    · subst hversion
      simp only [receiveFromPlayer, playerEvents, ne_eq, not_true_eq_false, if_false]
      rw [join_sessions, Store.run_append, ← vacate_eq_run]
      rfl
    · simp only [receiveFromPlayer, join, playerEvents, ne_eq, hversion, not_false_eq_true, if_true]
      rfl
  | move motion =>
    have hkept : Session.Kept fun x => { x.touch now with avatar := ⟨x.avatar.world, motion⟩ } :=
      fun _ => ⟨rfl, rfl⟩
    simp only [receiveFromPlayer, playerEvents]
    cases b.sessions.byAddress? addr with
    | none => rfl
    | some handle => exact (Store.after_modify hkept).symm
  | command command =>
    have hkept : Session.Kept fun x => (x.touch now).obey command := fun x =>
      Session.kept_obey command (x.touch now)
    simp only [receiveFromPlayer, playerEvents]
    cases b.sessions.byAddress? addr with
    | none => rfl
    | some handle => exact runCommand_sessions.trans (Store.after_modify hkept).symm
  | heartbeat =>
    have hkept : Session.Kept (·.touch now) := fun _ => ⟨rfl, rfl⟩
    simp only [receiveFromPlayer, playerEvents]
    cases b.sessions.byAddress? addr with
    | none => rfl
    | some handle => exact (Store.after_modify hkept).symm
  | _ =>
    simp only [receiveFromPlayer, playerEvents]
    cases b.sessions.byAddress? addr <;> rfl

/-- One step of a server is a run of its sessions. -/
theorem sessions_after (b : Backend) (step : BackendStep) :
    (b.after step).sessions = b.sessions.run (b.events step) := by
  cases step with
  | host worlds => rfl
  | tick => exact tick_sessions
  | handle event now fresh =>
    cases event with
    | shutdown | playerTimeout => rfl
    | packet packet addr =>
      simp only [after, handle, receive, events]
      split
      · exact receiveFromRelay_sessions
      · exact receiveFromPlayer_sessions

/-- A run of a server is a run of its sessions. -/
theorem sessions_run (b : Backend) (steps : List BackendStep) :
    (b.run steps).sessions = b.sessions.run (b.history steps) := by
  induction steps generalizing b with
  | nil => rfl
  | cons step steps ih =>
    rw [history, Store.run_append, ← sessions_after]
    exact ih (b.after step)

theorem run_append {later : List BackendStep} : b.run (steps ++ later) = (b.run steps).run later :=
  List.foldl_append ..

theorem history_append {later : List BackendStep} :
    b.history (steps ++ later) = b.history steps ++ (b.run steps).history later := by
  induction steps generalizing b with
  | nil => rfl
  | cons step steps ih =>
    rw [List.cons_append, history, ih, history, List.append_assoc]
    rfl

theorem consistent_run (hs : b.sessions.Consistent)
    (hn : b.sessions.Lasts (b.history steps)) : (b.run steps).sessions.Consistent := by
  rw [sessions_run]
  exact (hs.run _ hn).1

theorem causes_of_mem_playerEvents {e : StoreEvent} (he : e ∈ b.playerEvents packet addr now) :
    b.Causes (.handle (.packet packet addr) now fresh) e := by
  unfold playerEvents at he
  split at he
  · next version player =>
    split at he
    · cases he
    · rcases List.mem_append.1 he with he | he
      · obtain ⟨handle, -, rfl⟩ := List.mem_map.1 he
        exact .disconnect _ handle
      · obtain rfl := List.mem_singleton.1 he
        exact .connect version player addr now fresh
  · split at he
    · cases he
    · split at he
      all_goals first
        | obtain rfl := List.mem_singleton.1 he
        | cases he
      · exact .edit _ _
      · exact .edit _ _
      · exact .edit _ _
      · exact .disconnect _ _

theorem causes_of_mem_relayEvents (hrelay : b.relay = some addr) {e : StoreEvent}
    (he : e ∈ b.relayEvents packet) : b.Causes (.handle (.packet packet addr) now fresh) e := by
  unfold relayEvents at he
  split at he
  · next source r =>
    obtain rfl := List.mem_singleton.1 he
    exact .teleport source r addr now fresh hrelay
  · obtain rfl := List.mem_singleton.1 he
    exact .mirror _ _
  · obtain rfl := List.mem_singleton.1 he
    exact .mirror _ _
  · cases he

theorem causes_of_mem_events {e : StoreEvent} (he : e ∈ b.events step) : b.Causes step e := by
  unfold events at he
  split at he
  · split at he
    · exact causes_of_mem_relayEvents ‹_› he
    · exact causes_of_mem_playerEvents he
  · obtain rfl := List.mem_singleton.1 he
    exact .disconnect _ _
  · cases he
  · cases he
  · obtain rfl := List.mem_singleton.1 he
    exact .edit _ _

theorem follows_after (b : Backend) (step : BackendStep) :
    b.Follows step (b.after step).sessions :=
  ⟨b.events step, sessions_after b step, fun _ => causes_of_mem_events⟩

theorem place_join {version : UInt32} {q : Uuid} :
    (b.join version q addr now).1.settings = b.settings ∧
      (b.join version q addr now).1.relay = b.relay := by
  unfold join
  split
  · exact ⟨rfl, rfl⟩
  · split <;> exact ⟨rfl, rfl⟩

theorem place_receiveFromPlayer :
    (b.receiveFromPlayer packet addr now fresh).1.settings = b.settings ∧
      (b.receiveFromPlayer packet addr now fresh).1.relay = b.relay := by
  unfold receiveFromPlayer
  split
  · exact place_join
  · split
    · exact ⟨rfl, rfl⟩
    · split
      · exact ⟨rfl, rfl⟩
      · simp only [runCommand]
        split <;> exact ⟨rfl, rfl⟩
      · exact ⟨rfl, rfl⟩
      · exact ⟨rfl, rfl⟩
      · exact ⟨rfl, rfl⟩

theorem place_receiveFromRelay :
    (b.receiveFromRelay packet).1.settings = b.settings ∧
      (b.receiveFromRelay packet).1.relay = b.relay := by
  cases packet with
  | deliver source message =>
    cases message with
    | teleport r =>
      simp only [receiveFromRelay, receiveMessage]
      split <;> exact ⟨rfl, rfl⟩
    | mirrorSelection m =>
      simp only [receiveFromRelay, receiveMessage, acceptSelection_fst, and_self]
    | getSelection =>
      simp only [receiveFromRelay, receiveMessage]
      split <;> exact ⟨rfl, rfl⟩
    | selectionResponse id q selection =>
      cases selection with
      | some selection =>
        simp only [receiveFromRelay, receiveMessage, acceptSelection_fst, and_self]
      | none => exact ⟨rfl, rfl⟩
  | _ => exact ⟨rfl, rfl⟩

/-- A server keeps its name and its relay. -/
theorem place_after (b : Backend) (step : BackendStep) :
    (b.after step).settings = b.settings ∧ (b.after step).relay = b.relay := by
  cases step with
  | host | tick => exact ⟨rfl, rfl⟩
  | handle event now fresh =>
    cases event with
    | shutdown | playerTimeout => exact ⟨rfl, rfl⟩
    | packet packet addr =>
      simp only [after, handle, receive]
      split
      · exact place_receiveFromRelay
      · exact place_receiveFromPlayer

theorem place_run (b : Backend) (steps : List BackendStep) :
    (b.run steps).settings = b.settings ∧ (b.run steps).relay = b.relay := by
  induction steps generalizing b with
  | nil => exact ⟨rfl, rfl⟩
  | cons step steps ih =>
    obtain ⟨hsettings, hrelay⟩ := place_after b step
    obtain ⟨hsettings', hrelay'⟩ := ih (b.after step)
    exact ⟨hsettings'.trans hsettings, hrelay'.trans hrelay⟩

theorem start_sessions {settings : Settings} {relay : Option Address} {file : Option String}
    (h : start settings relay file fresh = .ok b) :
    b.sessions = .empty settings.maxPlayers := by
  simp only [start, bind, Except.bind, pure, Except.pure] at h
  repeat' split at h
  all_goals
    cases h
    try rfl

theorem start_relay {settings : Settings} {relay : Option Address} {file : Option String}
    (h : start settings relay file fresh = .ok b) : b.relay = relay := by
  simp only [start, bind, Except.bind, pure, Except.pure] at h
  repeat' split at h
  all_goals
    cases h
    try rfl

end events

section awaits

variable {b : Backend} {p : Uuid} {r : TeleportRequest} {addr : Address} {now : Nat}
  {fresh : Nat → Uuid} {step : BackendStep}

/-- The player stays away during the step, and the step brings no teleport for them. -/
structure Uneventful (b : Backend) (p : Uuid) (step : BackendStep) : Prop where
  offline : (b.after step).sessions.handleOf? p = none
  no_teleport : ∀ r ws, b.Causes step (.teleport r ws) → r.player ≠ p

theorem awaits_vacate (h : b.sessions.Awaits p r) : (b.vacate addr).Awaits p r := by
  unfold vacate
  split
  · exact h.disconnect
  · exact h

theorem lastPlaces_vacate (h : b.sessions.Awaits p r) :
    (b.vacate addr).lastPlaces.get? p = b.sessions.lastPlaces.get? p := by
  unfold vacate
  split
  · exact h.lastPlaces_disconnect
  · rfl

theorem awaits_join {version : UInt32} (h : b.sessions.Awaits p r)
    (hp : (b.join version p addr now).1.sessions.handleOf? p = none) :
    (b.join version p addr now).1.sessions.Awaits p r := by
  by_cases hversion : version = protocolVersion
  · subst hversion
    rw [join_sessions] at hp ⊢
    exact (awaits_vacate h).connect fun _ => hp
  · unfold join
    rw [if_pos hversion]
    exact h

theorem awaits_after (h : b.sessions.Awaits p r) (hstep : b.Uneventful p step) :
    (b.after step).sessions.Awaits p r := by
  obtain ⟨hoffline, hno⟩ := hstep
  obtain ⟨es, hes, hcauses⟩ := follows_after b step
  by_cases hjoin : ∃ version addr now fresh,
      step = .handle (.packet (.join version p) addr) now fresh
  · obtain ⟨version, addr, now, fresh, rfl⟩ := hjoin
    simp only [after, handle, receive] at hoffline ⊢
    split
    · exact h
    · next hrelay =>
      rw [if_neg hrelay] at hoffline
      exact awaits_join h hoffline
  · rw [hes]
    refine h.run ?_
    intro e he hcalls
    cases hcauses e he with
    | disconnect | edit | mirror => exact hcalls
    | connect version q addr now fresh =>
      obtain rfl : q = p := hcalls
      exact hjoin ⟨version, addr, now, fresh, rfl⟩
    | teleport source request addr now fresh hrelay =>
      exact hno request _ (.teleport source request addr now fresh hrelay) hcalls

/-- The player stays away throughout, and no teleport comes for them. -/
def StaysAway (b : Backend) (p : Uuid) : List BackendStep → Prop
  | [] => True
  | step :: steps => b.Uneventful p step ∧ (b.after step).StaysAway p steps

theorem awaits_run {steps : List BackendStep} (h : b.sessions.Awaits p r)
    (hsteps : b.StaysAway p steps) : (b.run steps).sessions.Awaits p r := by
  induction steps generalizing b with
  | nil => exact h
  | cons step steps ih => exact ih (awaits_after h hsteps.1) hsteps.2

/-- A join that lets the player in is answered with the place the request names. -/
theorem receive_join {version : UInt32} (h : b.sessions.Awaits p r)
    (hin : (b.receive (.join version p) addr now fresh).1.sessions.handleOf? p ≠ none) :
    (b.receive (.join version p) addr now fresh).2 =
      [.send addr (.joined
        (((b.sessions.lastPlaces.get? p).getD b.spawn).teleported r b.registry.worlds).world.name
        r.motion)] := by
  unfold receive at hin ⊢
  by_cases hrelay : b.relay = some addr
  · rw [if_pos hrelay] at hin
    exact absurd h.offline hin
  · rw [if_neg hrelay] at hin ⊢
    change (b.join version p addr now).1.sessions.handleOf? p ≠ none at hin
    change (b.join version p addr now).2 = _
    by_cases hversion : version = protocolVersion
    · subst hversion
      rw [join_sessions] at hin
      obtain ⟨a, ha, hplace⟩ := (awaits_vacate h).arrives hin
      rw [join_out ha, hplace, lastPlaces_vacate h]
      rfl
    · unfold join at hin
      rw [if_pos hversion] at hin
      exact absurd h.offline hin

end awaits

end Backend

end PortalNet
