import PortalNet.Proofs.Backend.Run
import PortalNet.Proofs.Registry.Run
import PortalNet.Proofs.Registry.Sweep

/-! # What commands leave alone

A command that fails changes nothing: whatever can go wrong is found before anything is written, and
of a search for the nearest portal only the places stay that the portals remember from then on. A
command that succeeds changes nothing that belongs to other players and nothing that waits for
players who are not connected.
-/

namespace PortalNet

/-- The portal without the places that its ends remember. -/
def Portal.forgotten (p : Portal) : Portal :=
  { p with origin := p.origin.position, dest := p.dest.position }

/-- Nothing has changed but the places that portals remember. -/
structure Registry.Consulted (r s : Registry) : Prop where
  portals : (s.portals.mapValues fun _ p => p.forgotten) =
    r.portals.mapValues fun _ p => p.forgotten
  worlds : s.worlds = r.worlds
  regions : s.regions = r.regions

namespace Registry.Consulted

variable {r : Registry}

theorem refl : r.Consulted r :=
  ⟨rfl, rfl, rfl⟩

theorem resolveOrigins {which : Portal → Bool} : r.Consulted (r.resolveOrigins which) := by
  refine ⟨Table.ext_entries ?_, rfl, rfl⟩
  simp only [Registry.resolveOrigins, Table.mapValues, List.map_map]
  refine List.map_congr_left fun e _ => ?_
  by_cases h : which e.2 <;> simp [h, Portal.forgotten, Portal.resolveOrigin]

end Registry.Consulted

namespace Registry

variable {r : Registry} {id : Uuid} {p : Portal}

theorem remove_found (hp : r.get? id = some p) (otherDirection : Bool) :
    ∃ s, r.remove id otherDirection = (some (p.shutDown r.regions).1, s) := by
  unfold remove
  rw [removeOne_of_get? hp]
  dsimp only
  split <;> exact ⟨_, rfl⟩

/-- A removal fails only if there is nothing to remove. -/
theorem consulted_removeNearest {l : Location} {otherDirection : Bool} {e : PortalError}
    (h : (r.removeNearest l otherDirection).1 = .error e) :
    r.Consulted (r.removeNearest l otherDirection).2 := by
  unfold removeNearest at h ⊢
  cases hp : r.closest? l reach with
  | none => exact .resolveOrigins
  | some p =>
    simp only [hp] at h ⊢
    cases hg : r.resolveOrigins.get? p.id with
    | none =>
      rw [remove_of_none hg]
      exact .resolveOrigins
    | some q =>
      obtain ⟨s, hs⟩ := remove_found hg otherDirection
      rw [hs] at h
      cases h

end Registry

/-- Only what its player has selected and wants to see may have changed in a session. -/
structure Session.Own (x y : Session) : Prop where
  handle : y.handle = x.handle
  player : y.player = x.player
  addr : y.addr = x.addr
  avatar : y.avatar = x.avatar
  lastSeen : y.lastSeen = x.lastSeen
  cooldown : y.cooldown = x.cooldown

theorem Session.own_obey (x : Session) (command : Command) : x.Own (x.obey command) := by
  cases command <;> constructor <;> rfl

/-- Nothing has changed but the session under one handle, and of that only what is its player's. -/
structure Store.Lane (s t : Store) (handle : Handle) : Prop where
  others : ∀ h, h ≠ handle → t.session? h = s.session? h
  own : ∀ x, s.session? handle = some x → ∃ y, t.session? handle = some y ∧ x.Own y
  absent : s.session? handle = none → t = s
  handles : t.handles = s.handles
  pendingTeleports : t.pendingTeleports = s.pendingTeleports
  pendingSelections : t.pendingSelections = s.pendingSelections
  retained : t.retained = s.retained
  lastPlaces : t.lastPlaces = s.lastPlaces
  nextHandle : t.nextHandle = s.nextHandle
  capacity : t.capacity = s.capacity

theorem Store.lane_obey (s : Store) (handle : Handle) (command : Command) :
    s.Lane (s.modify handle (·.obey command)) handle := by
  have hsession : ∀ h, (s.modify handle (·.obey command)).session? h =
      if h = handle then (s.session? h).map (·.obey command) else s.session? h :=
    fun h => Table.get?_modify
  refine ⟨?_, ?_, Store.modify_of_none, rfl, rfl, rfl, rfl, rfl, rfl, rfl⟩
  · intro h hne
    rw [hsession, if_neg hne]
  · intro x hx
    rw [hsession, if_pos rfl, hx]
    exact ⟨_, rfl, x.own_obey command⟩

namespace Selections

variable {l : Selections} {e : PortalError}

theorem selectOrigin_failed : l.selectOrigin.1 = .error e → l.selectOrigin.2 = l := by
  unfold selectOrigin
  cases l.current.bounds with
  | ok b => nofun
  | error e' => exact fun _ => rfl

theorem selectDestination_failed :
    l.selectDestination.1 = .error e → l.selectDestination.2 = l := by
  unfold selectDestination
  cases l.current.bounds with
  | ok b => nofun
  | error e' => exact fun _ => rfl

end Selections

namespace Command

variable {s : Store} {r : Registry} {handle : Handle}

/-- If there is no result then nothing has changed. -/
def Outcome.Harmless (o : Outcome) (s : Store) (r : Registry) : Prop :=
  ∀ f, o.result = .error f → o.store = s ∧ r.Consulted o.registry

theorem error_of_told {α : Type} {message : α → String} {result : Except PortalError α}
    {f : Failure} (h : told message result = .error f) : ∃ e, result = .error e := by
  cases result with
  | ok a => cases h
  | error e => exact ⟨e, rfl⟩

theorem error_of_map {ε α β : Type} {message : α → β} {result : Except ε α} {f : ε}
    (h : result.map message = .error f) : result = .error f := by
  cases result with
  | ok a => cases h
  | error g => exact congrArg _ (Except.error.inj h)

/-- Selections that are as they were before are put back into the session. -/
theorem harmless_select {x : Session} {message : String}
    {edited : Except PortalError Unit × Selections} (hx : s.session? handle = some x)
    (h : ∀ e, edited.1 = .error e → edited.2 = x.selections) :
    (select s r handle message edited).Harmless s r := by
  intro f hf
  obtain ⟨e, he⟩ := error_of_told hf
  have hsame : { x with selections := edited.2 } = x := by rw [h e he]
  exact ⟨(Store.modify_congr hx (g := id) hsame).trans Store.modify_id, .refl⟩

theorem harmless_edit {α : Type} {message : α → String} {edited : Except Failure α × Registry}
    (h : ∀ f, edited.1 = .error f → edited.2 = r) : (edit s message edited).Harmless s r := by
  intro f hf
  refine ⟨rfl, ?_⟩
  rw [edit, h f (error_of_map hf)]
  exact .refl

theorem harmless_editNearest {l : Location} {message : String}
    {change : Registry → Portal → Except PortalError Unit × Registry}
    (h : ∀ near p e, (change near p).1 = .error e → (change near p).2 = near) :
    (editNearest s r l message change).Harmless s r := by
  intro f hf
  refine ⟨editNearest_store _ _, ?_⟩
  simp only [editNearest] at hf ⊢
  cases hp : r.closest? l Registry.reach with
  | none => exact .resolveOrigins
  | some p =>
    simp only [hp] at hf ⊢
    obtain ⟨e, he⟩ := error_of_told hf
    rw [h _ _ e he]
    exact .resolveOrigins

theorem harmless_execute (command : Command) (fresh : Nat → Uuid) :
    (command.execute s r handle fresh).Harmless s r := by
  unfold execute
  cases hx : s.session? handle with
  | none => exact fun _ _ => ⟨rfl, .refl⟩
  | some x =>
    cases command with
    | selectCorner first block => exact harmless_select hx nofun
    | selectOrigin => exact harmless_select hx fun _ => Selections.selectOrigin_failed
    | selectDestination => exact harmless_select hx fun _ => Selections.selectDestination_failed
    | link twoWay invert => exact harmless_edit fun _ => Selections.link_failed
    | linkExternal invert => exact harmless_edit fun _ => Selections.linkExternal_failed
    | removeNearest otherDirection =>
      intro f hf
      obtain ⟨e, he⟩ := error_of_told hf
      exact ⟨rfl, Registry.consulted_removeNearest he⟩
    | rename name =>
      refine harmless_editNearest fun near p e he => ?_
      cases hauto : p.isAutoSpawned with
      | true => rfl
      | false =>
        rw [hauto] at he
        exact Registry.rename_failed (error_of_map he)
    | setAllowsNonPlayers allow =>
      exact harmless_editNearest fun _ _ _ => Registry.setAllowsNonPlayers_failed
    | setSeesThrough enabled => nofun

/-- A command that fails leaves all sessions, tables, portals, blocks and regions as they were, and
none ever changes what belongs to another player or waits for one. -/
theorem execute_in_lane (s : Store) (r : Registry) (handle : Handle) (command : Command)
    (fresh : Nat → Uuid) :
    let o := command.execute s r handle fresh
    (∀ f, o.result = .error f → o.store = s ∧ r.Consulted o.registry) ∧ s.Lane o.store handle := by
  refine ⟨harmless_execute command fresh, ?_⟩
  rw [execute_store]
  exact s.lane_obey handle command

end Command

namespace Sample

/-- A player who has selected two windows of different heights. -/
def linker : Store :=
  (Store.empty 1).run [.connect player address avatar {} 0,
    .modify 1 fun x => { x with
      selections.origin := some (.ofCorners world ⟨0, 0, 0⟩ ⟨1, 2, 0⟩)
      selections.destination := some (.ofCorners world ⟨0, 0, 5⟩ ⟨1, 3, 5⟩) }]

end Sample

open Sample in
/-- Neither of the two portals is registered. -/
theorem unequal_windows_unlinked :
    let o := (Command.link true false).execute linker {} 1 fun _ => player
    o.result =
        .error (.refused (.differentSizes ⟨(2 : Int), (3 : Int)⟩ ⟨(2 : Int), (4 : Int)⟩)) ∧
      o.store = linker ∧ Registry.Consulted {} o.registry := by
  have herror : ((Command.link true false).execute linker {} 1 fun _ => player).result =
      .error (.refused (.differentSizes ⟨(2 : Int), (3 : Int)⟩ ⟨(2 : Int), (4 : Int)⟩)) := by
    rfl
  obtain ⟨hfailed, -⟩ := Command.execute_in_lane linker {} 1 (.link true false) fun _ => player
  exact ⟨herror, hfailed _ herror⟩

end PortalNet
