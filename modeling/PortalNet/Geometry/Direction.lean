import PortalNet.Geometry.Vec3

/-! # Directions

The four ways in which a portal can face, ordered by quarter turns from the south.
-/

namespace PortalNet

inductive Direction where
  | north
  | south
  | east
  | west
  deriving DecidableEq

namespace Direction

def all : List Direction :=
  [north, south, east, west]

def opposite : Direction → Direction
  | north => south
  | south => north
  | east => west
  | west => east

@[simp] theorem opposite_opposite (d : Direction) : d.opposite.opposite = d := by
  cases d <;> rfl

/-- Quarter turns from the south. -/
def turns : Direction → Nat
  | south => 0
  | west => 1
  | north => 2
  | east => 3

theorem turns_lt (d : Direction) : d.turns < 4 := by
  cases d <;> decide

/-- Where someone looks who looks out of the portal. -/
def yaw {β : Type} [IntCast β] (d : Direction) : β :=
  ((90 * d.turns : Nat) : Int)

/-- The unit vector out of the portal. -/
def normal {α : Type} [IntCast α] : Direction → Vec3 α
  | north => ⟨(0 : Int), (0 : Int), (-1 : Int)⟩
  | south => ⟨(0 : Int), (0 : Int), (1 : Int)⟩
  | east => ⟨(1 : Int), (0 : Int), (0 : Int)⟩
  | west => ⟨(-1 : Int), (0 : Int), (0 : Int)⟩

/-- Whether the portal stands in a plane of constant `x`. -/
def isXPlane : Direction → Bool
  | east | west => true
  | north | south => false

/-- Quarter turns from facing `a` to facing `b`. -/
def turnsTo (a b : Direction) : Nat :=
  (b.turns + 4 - a.turns) % 4

def name : Direction → String
  | north => "NORTH"
  | south => "SOUTH"
  | east => "EAST"
  | west => "WEST"

def ofName? (s : String) : Option Direction :=
  all.find? (·.name = s)

@[simp] theorem ofName?_name (d : Direction) : ofName? d.name = some d := by
  cases d <;> decide

end Direction

end PortalNet
