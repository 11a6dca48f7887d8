import PortalNet.Error
import PortalNet.Json.Basic
import PortalNet.World

/-! # Positions

A position is the window of a portal with the place it is in: a world of this server, or another
server that alone can find the world. An anchor is a position together with the location that it
resolved to, which is kept because looking up worlds is costly; only a lookup that succeeds is
kept, so a world that is loaded later is still found.
-/

namespace PortalNet

structure Position where
  worldId : Option Uuid
  worldName : Option String
  frame : Frame Double
  server : Option String
  /-- Whoever arrives goes on from wherever they last stood. -/
  lastPlayer : Bool
  deriving DecidableEq

namespace Position

def ofLocation (l : Location) (facing : Direction) : Position where
  worldId := l.world.id
  worldName := l.world.name
  frame := ⟨l.point, facing⟩
  server := none
  lastPlayer := false

/-- Ids of worlds mean nothing to another server. -/
def external (frame : Frame Double) (server worldName : String) (lastPlayer : Bool) : Position where
  worldId := none
  worldName
  frame
  server
  lastPlayer

def isExternal (p : Position) : Bool :=
  p.server.isSome

def block (p : Position) : Block :=
  .containing p.frame.center

def inverted (p : Position) : Position :=
  { p with frame := p.frame.inverted }

def Same (p q : Position) : Prop :=
  p.frame.facing = q.frame.facing ∧ p.frame.center.Same q.frame.center ∧ p.worldId = q.worldId ∧
    p.worldName = q.worldName ∧ p.server = q.server ∧ p.lastPlayer = q.lastPlayer

instance (p q : Position) : Decidable (p.Same q) :=
  inferInstanceAs (Decidable (_ ∧ _))

def toString (p : Position) : String :=
  let c := p.frame.center
  let world := p.worldName.getD "none"
  let place :=
    s!"x: {c.x.hundredths}, y: {c.y.hundredths}, z: {c.z.hundredths}, worldName: {world}"
  match p.server with
  | some server => s!"{place}, server: {server}"
  | none => place

instance : ToString Position := ⟨toString⟩

end Position

structure BlockPlace where
  world : World
  block : Block
  deriving DecidableEq

structure Anchor where
  position : Position
  cache : Option Location := none
  deriving DecidableEq

namespace Anchor

instance : Coe Position Anchor := ⟨fun p => { position := p }⟩

def world? (a : Anchor) (ws : Worlds) : Option World :=
  if a.position.isExternal then none
  else match a.cache with
    | some l => some l.world
    | none => ws.resolve? a.position.worldId a.position.worldName

def location? (a : Anchor) (ws : Worlds) : Option Location :=
  a.cache.or ((a.world? ws).map (⟨·, a.position.frame.center⟩))

/-- The anchor after its location has been asked for. -/
def resolved (a : Anchor) (ws : Worlds) : Anchor :=
  { a with cache := a.location? ws }

def block (a : Anchor) (ws : Worlds) : Except PortalError BlockPlace :=
  if a.position.isExternal then throw .blockOfExternal
  else match a.location? ws with
    | some l => return ⟨l.world, l.block⟩
    | none => throw (.worldUnavailable (a.position.worldName.getD ""))

def inverted (a : Anchor) : Anchor :=
  { a with position := a.position.inverted }

def withServer (a : Anchor) (server : Option String) : Anchor where
  position := { a.position with server }

def withLastPlayer (a : Anchor) (lastPlayer : Bool) : Anchor :=
  { a with position := { a.position with lastPlayer } }

/-- Asking does not change the answer. -/
theorem location?_resolved (a : Anchor) (ws : Worlds) :
    (a.resolved ws).location? ws = a.location? ws := by
  cases h : a.cache <;> simp [resolved, location?, h, world?]
  split <;> simp_all
  cases ws.resolve? a.position.worldId a.position.worldName <;> simp

end Anchor

end PortalNet
