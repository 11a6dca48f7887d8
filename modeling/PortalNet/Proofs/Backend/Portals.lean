import PortalNet.Proofs.Backend.Run
import PortalNet.Proofs.Portal.Saved
import PortalNet.Proofs.Registry.Holding

/-! # The portals of a server

Whatever a server handles, its registry runs through events of the registry. From its start on, a
server therefore keeps account of the regions that its portals hold.
-/

namespace PortalNet

namespace Command

variable {s : Store} {r : Registry} {handle : Handle}

theorem runsTo_editNearest {l : Location} {message : String}
    {change : Registry → Portal → Except PortalError Unit × Registry}
    (h : ∀ (near : Registry) p, near.RunsTo (change near p).2) :
    r.RunsTo (editNearest s r l message change).registry := by
  simp only [editNearest]
  split
  · exact .resolveOrigins
  · exact .trans .resolveOrigins (h _ _)

theorem runsTo_execute {command : Command} {fresh : Nat → Uuid} :
    r.RunsTo (command.execute s r handle fresh).registry := by
  unfold execute
  cases s.session? handle with
  | none => exact .refl
  | some session =>
    cases command with
    | selectCorner | selectOrigin | selectDestination => exact .refl
    | link twoWay invert =>
      simp only [edit, Selections.link]
      split
      · exact .refl
      · exact .refl
      · exact .link
    | linkExternal invert =>
      simp only [edit, Selections.linkExternal]
      split
      · exact .refl
      · exact .refl
      · exact .linkExternal
    | removeNearest otherDirection => exact .quiet (.removeNearest _ otherDirection) rfl
    | rename name =>
      refine runsTo_editNearest fun near p => ?_
      split
      · exact .refl
      · exact .rename
    | setAllowsNonPlayers allow => exact runsTo_editNearest fun near p => .setAllowsNonPlayers
    | setSeesThrough enabled => exact .refl

end Command

namespace Backend

variable {b : Backend} {packet : Packet} {addr : Address} {now : Nat} {fresh : Nat → Uuid}
  {step : BackendStep} {steps : List BackendStep}

theorem acceptSelection_registry {source : String} {m : MirrorRequest} :
    (b.acceptSelection source m).1.registry = b.registry := by
  rw [acceptSelection_fst]

theorem receiveFromRelay_registry : (b.receiveFromRelay packet).1.registry = b.registry := by
  cases packet with
  | deliver source message =>
    cases message with
    | teleport r =>
      simp only [receiveFromRelay, receiveMessage]
      split <;> rfl
    | mirrorSelection m => exact acceptSelection_registry
    | getSelection =>
      simp only [receiveFromRelay, receiveMessage]
      split <;> rfl
    | selectionResponse id q selection =>
      cases selection with
      | some selection => exact acceptSelection_registry
      | none => rfl
  | _ => rfl

theorem join_registry {version : UInt32} {q : Uuid} :
    (b.join version q addr now).1.registry = b.registry := by
  unfold join
  split
  · rfl
  · split <;> rfl

theorem runsTo_receiveFromPlayer :
    b.registry.RunsTo (b.receiveFromPlayer packet addr now fresh).1.registry := by
  unfold receiveFromPlayer
  split
  · rw [join_registry]
    exact .refl
  · split
    · exact .refl
    · split
      · exact .refl
      · simp only [runCommand]
        repeat' split
        all_goals exact Command.runsTo_execute
      · exact .refl
      · exact .refl
      · exact .refl

theorem runsTo_after : b.registry.RunsTo (b.after step).registry := by
  cases step with
  | host worlds => exact .quiet (.host worlds) rfl
  | tick => exact .trans (.quiet (.observe _ _) rfl) (.quiet .update rfl)
  | handle event now fresh =>
    cases event with
    | shutdown | playerTimeout => exact .refl
    | packet packet addr =>
      simp only [after, handle, receive]
      split
      · rw [receiveFromRelay_registry]
        exact .refl
      · exact runsTo_receiveFromPlayer

/-- A run of a server is a run of its registry. -/
theorem runsTo_run : b.registry.RunsTo (b.run steps).registry := by
  induction steps generalizing b with
  | nil => exact .refl
  | cons step steps ih => exact .trans runsTo_after ih

/-- Portals that were just read keep nothing loaded, and their numbers are finite. -/
theorem idle_of_decode? {supply : Nat → Uuid} {text : String} {ps : List Portal}
    (h : Archive.decode? supply text = some ps) : ∀ p ∈ ps, p.held = none ∧ p.Grounded := by
  intro p hp
  have hfinite := Archive.finite_of_decode? h p hp
  simp only [Portal.numbers, List.forall_mem_append] at hfinite
  refine ⟨?_, hfinite.1.1, fun _ => hfinite.1.2, hfinite.2⟩
  obtain ⟨values, -, rfl⟩ := Option.map_eq_some_iff.1 h
  obtain ⟨⟨j, i⟩, -, hj⟩ := List.mem_filterMap.1 hp
  exact Portal.held_of_ofJson? hj

/-- A server starts with the portals of its file, each just read. -/
theorem runsTo_start {settings : Settings} {relay : Option Address} {file : Option String}
    (h : start settings relay file fresh = .ok b) :
    ∃ ws : Worlds, Registry.RunsTo { worlds := ws } b.registry := by
  simp only [start, bind, Except.bind, pure, Except.pure] at h
  split at h
  · cases file with
    | none =>
      cases h
      exact ⟨_, .refl⟩
    | some text =>
      dsimp only at h
      cases hd : Archive.decode? _ text with
      | none => rw [hd] at h; cases h
      | some ps =>
        rw [hd] at h
        cases h
        exact ⟨_, .registerAll (idle_of_decode? hd)⟩
  · cases h

/-- In every state of a server the holders of each chunk are counted. -/
theorem accounted_after_start {settings : Settings} {relay : Option Address} {file : Option String}
    (h : start settings relay file fresh = .ok b) : (b.run steps).registry.Accounted := by
  obtain ⟨ws, hstart⟩ := runsTo_start h
  obtain ⟨es, hes, -⟩ := hstart.trans runsTo_run
  rw [hes]
  exact Registry.run_induction .empty fun _ _ _ => .of_change

end Backend

end PortalNet
