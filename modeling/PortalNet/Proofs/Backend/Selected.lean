import PortalNet.Proofs.Backend.Run
import PortalNet.Proofs.Session.Selected

/-! # Selections through the run of a server

Whatever happens at a server, the destination that a player selected changes only by a command of
theirs, and the destination that they have on another server only by what other servers send.
-/

namespace PortalNet

namespace Session

variable {x : Session} {command : Command} {now : Nat}

theorem selections_obey_touch :
    ((x.touch now).obey command).selections = (x.obey command).selections := by
  cases command <;> rfl

theorem external_obey : (x.obey command).selections.external = x.selections.external := by
  cases command with
  | selectOrigin | selectDestination =>
    simp only [obey, Selections.selectOrigin, Selections.selectDestination]
    cases x.selections.current.bounds <;> rfl
  | _ => rfl

theorem destination_obey (h : command ≠ .selectDestination) :
    (x.obey command).selections.destination = x.selections.destination := by
  cases command with
  | selectDestination => exact absurd rfl h
  | selectOrigin =>
    simp only [obey, Selections.selectOrigin]
    cases x.selections.current.bounds <;> rfl
  | _ => rfl

theorem selections_enter {r : Registry} {p : Portal} :
    (x.enter r p).1.selections = x.selections := by
  simp only [enter]
  cases p.relocatesPlayers with
  | false => rfl
  | true =>
    cases p.dest.position.server with
    | some server => rfl
    | none => cases p.dest.world? r.worlds <;> rfl

theorem selections_traverse {r : Registry} {cooldown : UInt32} :
    (x.traverse r cooldown).1.selections = x.selections := by
  unfold traverse
  split
  · rfl
  · split
    · rfl
    · exact selections_enter

end Session

namespace Store

variable {s : Store} {p : Uuid} {α : Type} {part : Selections → α}

theorem leaves_modify {handle : Handle} {f : Session → Session}
    (h : ∀ x, s.byPlayer? p = some x → x.handle = handle →
      part (f x).selections = part x.selections) : s.Leaves p part (.modify handle f) := by
  intro x hx
  by_cases hh : x.handle = handle
  · simp only [hh, if_true]
    exact h x hx hh
  · simp only [hh, if_false]

end Store

namespace Backend

/-- The player selects a destination. -/
inductive Chooses (b : Backend) (p : Uuid) : BackendStep → Prop where
  | command (x : Session) (addr : Address) (now : Nat) (fresh : Nat → Uuid) :
      b.relay ≠ some addr → b.sessions.byPlayer? p = some x →
      b.sessions.byAddress? addr = some x.handle →
      Chooses b p (.handle (.packet (.command .selectDestination) addr) now fresh)

/-- Another server has a destination for the player. -/
inductive Mirrors (b : Backend) (p : Uuid) : BackendStep → Prop where
  | request (source : String) (selection : ExternalSelection) (addr : Address) (now : Nat)
      (fresh : Nat → Uuid) : b.relay = some addr →
      Mirrors b p (.handle (.packet (.deliver source (.mirrorSelection ⟨p, selection⟩)) addr) now
        fresh)
  | response (source : String) (id : UInt64) (selection : ExternalSelection) (addr : Address)
      (now : Nat) (fresh : Nat → Uuid) : b.relay = some addr →
      Mirrors b p (.handle (.packet
        (.deliver source (.selectionResponse id p (some selection))) addr) now fresh)

/-- Every step of a run meets a state of which this holds. -/
def Throughout (P : Backend → BackendStep → Prop) (b : Backend) : List BackendStep → Prop
  | [] => True
  | step :: steps => P b step ∧ (b.after step).Throughout P steps

section parts

variable {b : Backend} {p : Uuid} {step : BackendStep} {steps : List BackendStep} {packet : Packet}
  {addr : Address} {now : Nat} {α : Type} {part : Selections → α}

theorem leavesAll_relayEvents
    (hmirror : ∀ m, .mirror m ∈ b.relayEvents packet → m.player = p →
      ∀ l, part (l.aimed (some m.selection)) = part l) :
    b.sessions.LeavesAll p part (b.relayEvents packet) := by
  unfold relayEvents at hmirror ⊢
  split at hmirror
  · exact ⟨trivial, trivial⟩
  · exact ⟨hmirror _ List.mem_cons_self, trivial⟩
  · exact ⟨hmirror _ List.mem_cons_self, trivial⟩
  · trivial

theorem leavesAll_playerEvents
    (hcommand : ∀ x command, packet = .command command → b.sessions.byPlayer? p = some x →
      b.sessions.byAddress? addr = some x.handle →
      part (x.obey command).selections = part x.selections) :
    b.sessions.LeavesAll p part (b.playerEvents packet addr now) := by
  unfold playerEvents
  split
  · split
    · trivial
    · cases b.sessions.byAddress? addr with
      | none => exact ⟨trivial, trivial⟩
      | some handle => exact ⟨trivial, trivial, trivial⟩
  · cases haddr : b.sessions.byAddress? addr with
    | none => trivial
    | some handle =>
      cases packet with
      | command command =>
        refine ⟨Store.leaves_modify fun x hx hh => ?_, trivial⟩
        rw [Session.selections_obey_touch]
        exact hcommand x command rfl hx (hh ▸ haddr)
      | move | heartbeat => exact ⟨Store.leaves_modify fun _ _ _ => rfl, trivial⟩
      | leave => exact ⟨trivial, trivial⟩
      | _ => trivial

theorem leavesAll_events
    (hmirror : ∀ m, .mirror m ∈ b.events step → m.player = p →
      ∀ l, part (l.aimed (some m.selection)) = part l)
    (hcommand : ∀ x command addr now fresh,
      step = .handle (.packet (.command command) addr) now fresh → b.relay ≠ some addr →
      b.sessions.byPlayer? p = some x → b.sessions.byAddress? addr = some x.handle →
      part (x.obey command).selections = part x.selections) :
    b.sessions.LeavesAll p part (b.events step) := by
  cases step with
  | host worlds => trivial
  | tick => exact ⟨fun x _ => congrArg part Session.selections_traverse, trivial⟩
  | handle event now fresh =>
    cases event with
    | shutdown => trivial
    | playerTimeout handle => exact ⟨trivial, trivial⟩
    | packet packet addr =>
      simp only [events] at hmirror ⊢
      split
      · next hrelay =>
        rw [if_pos hrelay] at hmirror
        exact leavesAll_relayEvents hmirror
      · next hrelay =>
        refine leavesAll_playerEvents fun x command hpacket hx haddr => ?_
        exact hcommand x command addr now fresh (hpacket ▸ rfl) hrelay hx haddr

theorem mirror_not_mem_playerEvents {m : MirrorRequest} :
    .mirror m ∉ b.playerEvents packet addr now := by
  unfold playerEvents
  split
  · split <;> simp
  · split
    · simp
    · split <;> simp [StoreEvent.modify]

theorem mirrors_of_mem_events {m : MirrorRequest} (h : .mirror m ∈ b.events step) :
    b.Mirrors m.player step := by
  cases step with
  | host | tick => simp [events] at h
  | handle event now fresh =>
    cases event with
    | shutdown | playerTimeout => simp [events] at h
    | packet packet addr =>
      simp only [events] at h
      split at h
      · next hrelay =>
        unfold relayEvents at h
        split at h <;> simp at h
        · subst h
          exact .request _ _ addr now fresh hrelay
        · subst h
          exact .response _ _ _ addr now fresh hrelay
      · cases mirror_not_mem_playerEvents h

theorem leavesAll_external (h : ¬ b.Mirrors p step) :
    b.sessions.LeavesAll p (·.external) (b.events step) :=
  leavesAll_events (fun _ hm hp => absurd (hp ▸ mirrors_of_mem_events hm) h)
    fun _ _ _ _ _ _ _ _ _ => Session.external_obey

theorem leavesAll_destination (h : ¬ b.Chooses p step) :
    b.sessions.LeavesAll p (·.destination) (b.events step) := by
  refine leavesAll_events (fun _ _ _ _ => rfl) ?_
  rintro x command addr now fresh rfl hrelay hx haddr
  refine Session.destination_obey ?_
  rintro rfl
  exact h (.command x addr now fresh hrelay hx haddr)

theorem part_run {P : Backend → BackendStep → Prop} (hs : b.sessions.Consistent)
    (hn : b.sessions.Lasts (b.history steps)) (hsteps : b.Throughout P steps)
    (hP : ∀ {c step}, P c step → c.sessions.LeavesAll p part (c.events step)) :
    part ((b.run steps).sessions.selectionsOf p) = part (b.sessions.selectionsOf p) := by
  induction steps generalizing b with
  | nil => rfl
  | cons step steps ih =>
    obtain ⟨hs', hn'⟩ := hs.lasts_append hn
    rw [← sessions_after] at hs' hn'
    have hstep := hs.part_run (Store.lasts_of_append hn) (hP hsteps.1)
    rw [← sessions_after] at hstep
    exact (ih hs' hn' hsteps.2).trans hstep

/-- What a server has to say about a player it says as long as the player selects nothing else,
whether they are still there or have left. -/
theorem destination?_run (hs : b.sessions.Consistent) (hn : b.sessions.Lasts (b.history steps))
    (hsteps : b.Throughout (fun c step => ¬ c.Chooses p step) steps) (server : String) :
    (b.run steps).sessions.destination? p server = b.sessions.destination? p server := by
  have hpart := part_run hs hn hsteps leavesAll_destination
  rw [(consistent_run hs hn).destination?_eq, hs.destination?_eq]
  unfold Selections.externalForm?
  rw [hpart]

/-- A destination from another server is what the player has whenever they are connected, as long
as no other one comes. -/
theorem external_run (hs : b.sessions.Consistent) (hn : b.sessions.Lasts (b.history steps))
    (hsteps : b.Throughout (fun c step => ¬ c.Mirrors p step) steps) {e : ExternalSelection}
    (he : b.sessions.external? p = some e) {x : Session}
    (hx : (b.run steps).sessions.byPlayer? p = some x) : x.selections.external = some e := by
  rw [← Store.selectionsOf_of_some hx, part_run hs hn hsteps leavesAll_external]
  exact Store.external_selectionsOf he

end parts

end Backend

end PortalNet
