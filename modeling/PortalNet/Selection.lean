import PortalNet.Position

/-! # Selections

A player selects a window by two opposite corner blocks, both of which belong to it. The window
stands in a plane of constant `x` if it spans `z`, and in one of constant `z` otherwise. Where a
window is cannot be reckoned if it is too wide or too far out for the arithmetic of blocks.
-/

namespace PortalNet

structure Corner where
  world : World
  block : Block
  deriving DecidableEq

/-- A word of a block has room for this number. -/
def InWord (n : Int) : Prop :=
  -2 ^ 31 ≤ n ∧ n < 2 ^ 31

instance (n : Int) : Decidable (InWord n) :=
  inferInstanceAs (Decidable (_ ∧ _))

/-- What the arithmetic of blocks makes of a result. -/
def checked (n : Int) : Except Failure Int :=
  if InWord n then return n else throw .overflow

structure Selection where
  a : Option Corner := none
  b : Option Corner := none
  inverted : Bool := false
  deriving DecidableEq

/-- The least and the greatest block of a window. -/
structure Bounds where
  world : World
  low : Block
  high : Block
  deriving DecidableEq

namespace Bounds

def facing (b : Bounds) : Direction :=
  if b.low.x = b.high.x ∧ b.low.z ≠ b.high.z then .east else .north

/-- How many blocks there are from one to another. -/
def span (low high : Int32) : Except Failure Int := do
  let distance ← checked (high.toInt - low.toInt)
  checked (distance + 1)

variable {α : Type} [Scalar α]

def middle (low high : Int32) : Except Failure α := do
  let sum ← checked (low.toInt + high.toInt)
  return Scalar.half ((← checked (sum + 1)) : α)

def face (low : Int32) : α :=
  (low.toInt : α) + Scalar.half ((1 : Int) : α)

def size (b : Bounds) : Except Failure (Size α) := do
  let width ← if b.facing.isXPlane then span b.low.z b.high.z else span b.low.x b.high.x
  let height ← span b.low.y b.high.y
  return ⟨width, height⟩

def center (b : Bounds) : Except Failure (Vec3 α) := do
  let y ← middle b.low.y b.high.y
  if b.facing.isXPlane then return ⟨face b.low.x, y, ← middle b.low.z b.high.z⟩
  else return ⟨← middle b.low.x b.high.x, y, face b.low.z⟩

end Bounds

namespace Selection

def ofCorners (world : World) (a b : Block) : Selection where
  a := some ⟨world, a⟩
  b := some ⟨world, b⟩

def least (m n : Int32) : Int32 :=
  if m ≤ n then m else n

def greatest (m n : Int32) : Int32 :=
  if m ≤ n then n else m

def bounds (s : Selection) : Except PortalError Bounds :=
  match s.a, s.b with
  | none, _ => throw .firstCornerUnset
  | some _, none => throw .secondCornerUnset
  | some ⟨v, a⟩, some ⟨w, b⟩ =>
    if v.id ≠ w.id then throw .cornersInDifferentWorlds
    else if a.x ≠ b.x ∧ a.z ≠ b.z then throw (.cornersNotInLine a b)
    else return {
      world := v
      low := ⟨least a.x b.x, least a.y b.y, least a.z b.z⟩
      high := ⟨greatest a.x b.x, greatest a.y b.y, greatest a.z b.z⟩ }

def world? (s : Selection) : Option World :=
  s.a.map (·.world)

def invert (s : Selection) : Selection :=
  { s with inverted := !s.inverted }

/-- The way in which a window with these bounds faces. -/
def facing (s : Selection) (b : Bounds) : Direction :=
  if s.inverted then b.facing.opposite else b.facing

def direction (s : Selection) : Except PortalError Direction :=
  s.bounds.map s.facing

/-- What is reckoned from the bounds, if the selection has any. -/
def reckon {β : Type} (s : Selection) (f : Bounds → Except Failure β) : Except Failure β :=
  match s.bounds with
  | .ok b => f b
  | .error e => throw (.refused e)

variable {α : Type} [Scalar α]

def size (s : Selection) : Except Failure (Size α) :=
  s.reckon (·.size)

def frame (s : Selection) : Except Failure (Frame α) :=
  s.reckon fun b => return ⟨← b.center, s.facing b⟩

def position (s : Selection) : Except Failure Position :=
  s.reckon fun b => return .ofLocation ⟨b.world, ← b.center⟩ (s.facing b)

end Selection

/-- A window that was selected on another server. -/
structure ExternalSelection where
  position : Position
  size : Size Double
  deriving DecidableEq

/-- What a player has selected: the corners in the making, and the two ends picked from them. -/
structure Selections where
  current : Selection := {}
  origin : Option Selection := none
  destination : Option Selection := none
  external : Option ExternalSelection := none
  deriving DecidableEq

namespace Selections

def setCorner (s : Selections) (first : Bool) (corner : Corner) : Selections :=
  { s with
    current := if first then { s.current with a := corner } else { s.current with b := corner } }

/-- Picks the window between the corners for the origin of a link. -/
def selectOrigin (s : Selections) : Except PortalError Unit × Selections :=
  match s.current.bounds with
  | .ok _ => (return (), { s with origin := s.current })
  | .error e => (throw e, s)

def selectDestination (s : Selections) : Except PortalError Unit × Selections :=
  match s.current.bounds with
  | .ok _ => (return (), { s with destination := s.current })
  | .error e => (throw e, s)

/-- The destination in the form in which another server links to it. -/
def externalForm? (s : Selections) (server : String) :
    Except Failure (Option ExternalSelection) := do
  let some destination := s.destination | return none
  let some position ← Failure.optional destination.position | return none
  let some world := destination.world? | return none
  let some size ← Failure.optional destination.size | return none
  return some ⟨.external position.frame server world.name false, size⟩

end Selections

end PortalNet
