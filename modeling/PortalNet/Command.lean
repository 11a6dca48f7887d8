import PortalNet.Registry.Link
import PortalNet.Session.Store

/-! # Commands

What a player can do to portals. A command touches the player's own selections and the registry,
and nothing that waits for players who are not connected.
-/

namespace PortalNet

inductive Command where
  | selectCorner (first : Bool) (block : Block)
  | selectOrigin
  | selectDestination
  | link (twoWay invert : Bool)
  | linkExternal (invert : Bool)
  | removeNearest (otherDirection : Bool)
  | rename (name : Option String)
  | setAllowsNonPlayers (allow : Bool)
  | setSeesThrough (enabled : Bool)
  deriving DecidableEq

namespace Command

/-- What a command answers and leaves behind. -/
structure Outcome where
  result : Except Failure String
  store : Store
  registry : Registry

/-- What is to be shown to the player. -/
def told {α : Type} (message : α → String) (result : Except PortalError α) :
    Except Failure String :=
  match result with
  | .ok a => .ok (message a)
  | .error e => .error (.refused e)

/-- Has the selections of a session edited. -/
def select (s : Store) (r : Registry) (handle : Handle) (message : String)
    (edited : Except PortalError Unit × Selections) : Outcome where
  result := told (fun _ => message) edited.1
  store := s.modify handle ({ · with selections := edited.2 })
  registry := r

/-- Has the registry edited. -/
def edit (s : Store) {α : Type} (message : α → String)
    (edited : Except Failure α × Registry) : Outcome where
  result := edited.1.map message
  store := s
  registry := edited.2

/-- Has the portal nearest to a place edited. -/
def editNearest (s : Store) (r : Registry) (l : Location) (message : String)
    (change : Registry → Portal → Except PortalError Unit × Registry) : Outcome :=
  let near := r.resolveOrigins
  match r.closest? l Registry.reach with
  | none => ⟨.error (.refused (.noPortalWithin Registry.reach)), s, near⟩
  | some p =>
    let (result, r) := change near p
    ⟨told (fun _ => message) result, s, r⟩

/-- Runs a command for the player of a session. The message of a success is shown to them. -/
def execute (s : Store) (r : Registry) (handle : Handle) (command : Command)
    (fresh : Nat → Uuid) : Outcome :=
  match s.session? handle with
  | none => ⟨.error (.refused (.sessionMissing handle)), s, r⟩
  | some session =>
    let here := session.avatar.location
    match command with
    | selectCorner first block =>
      let corner := if first then "First" else "Second"
      select s r handle s!"{corner} corner set to {block}"
        (return (), session.selections.setCorner first ⟨session.avatar.world, block⟩)
    | selectOrigin => select s r handle "Origin selected" session.selections.selectOrigin
    | selectDestination =>
      select s r handle "Destination selected" session.selections.selectDestination
    | link twoWay invert =>
      edit s (fun ids => s!"Linked {ids.length} portal(s)")
        (session.selections.link r { twoWay, invert, owner := session.player } fresh)
    | linkExternal invert =>
      edit s (fun _ => "Linked portal to the other server")
        (session.selections.linkExternal r { invert, owner := session.player } (fresh 0))
    | removeNearest otherDirection =>
      let (result, r) := r.removeNearest here otherDirection
      ⟨told (fun p => s!"Removed portal {p.id}") result, s, r⟩
    | rename name =>
      editNearest s r here "Portal renamed" fun r p =>
        if p.isAutoSpawned then (throw .netherPortalNamed, r)
        else
          let (result, r) := r.rename p.id name (fresh 0)
          (result.map fun _ => (), r)
    | setAllowsNonPlayers allow =>
      editNearest s r here s!"Non-player teleportation set to {allow}" fun r p =>
        r.setAllowsNonPlayers p.id allow
    | setSeesThrough enabled =>
      ⟨.ok s!"Seeing through portals set to {enabled}",
        s.modify handle ({ · with seesThrough := enabled }), r⟩

end Command

end PortalNet
