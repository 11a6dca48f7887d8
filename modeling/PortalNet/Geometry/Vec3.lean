import PortalNet.Decimal.Text
import PortalNet.Geometry.Scalar

/-! # Vectors and blocks

Points of a world and the blocks that contain them.
-/

namespace PortalNet

structure Vec3 (α : Type) where
  x : α
  y : α
  z : α
  deriving DecidableEq

namespace Vec3

variable {α : Type}

def add [Add α] (a b : Vec3 α) : Vec3 α :=
  ⟨a.x + b.x, a.y + b.y, a.z + b.z⟩

def sub [Sub α] (a b : Vec3 α) : Vec3 α :=
  ⟨a.x - b.x, a.y - b.y, a.z - b.z⟩

def scale [Mul α] (a : Vec3 α) (s : α) : Vec3 α :=
  ⟨a.x * s, a.y * s, a.z * s⟩

instance [Add α] : Add (Vec3 α) := ⟨add⟩

instance [Sub α] : Sub (Vec3 α) := ⟨sub⟩

@[simp] theorem sub_x [Sub α] (a b : Vec3 α) : (a - b).x = a.x - b.x := rfl

@[simp] theorem sub_y [Sub α] (a b : Vec3 α) : (a - b).y = a.y - b.y := rfl

@[simp] theorem sub_z [Sub α] (a b : Vec3 α) : (a - b).z = a.z - b.z := rfl

def Same [Scalar α] (a b : Vec3 α) : Prop :=
  Scalar.Same a.x b.x ∧ Scalar.Same a.y b.y ∧ Scalar.Same a.z b.z

instance [Scalar α] (a b : Vec3 α) : Decidable (a.Same b) :=
  inferInstanceAs (Decidable (_ ∧ _))

/-- Turns about the vertical axis by quarter turns, in the sense in which yaw grows. -/
def rotate [Neg α] (a : Vec3 α) (turns : Nat) : Vec3 α :=
  match turns % 4 with
  | 0 => a
  | 1 => ⟨-a.z, a.y, a.x⟩
  | 2 => ⟨-a.x, a.y, -a.z⟩
  | _ => ⟨a.z, a.y, -a.x⟩

def zero [IntCast α] : Vec3 α :=
  ⟨(0 : Int), (0 : Int), (0 : Int)⟩

def length (a : Vec3 Double) : Double :=
  (a.x * a.x + a.y * a.y + a.z * a.z).sqrt

def distance (a b : Vec3 Double) : Double :=
  (a - b).length

def toString (a : Vec3 Double) : String :=
  s!"({a.x.hundredths}, {a.y.hundredths}, {a.z.hundredths})"

instance : ToString (Vec3 Double) := ⟨toString⟩

end Vec3

/-- A block, by the corner with the smallest coordinates. -/
structure Block where
  x : Int32
  y : Int32
  z : Int32
  deriving DecidableEq

namespace Block

def clamp (n : Int) : Int32 :=
  .ofInt (max (-2 ^ 31) (min (2 ^ 31 - 1) n))

/-- The block number along one axis. Numbers beyond the last block count as in it, and a word that
is not a number as zero. -/
def coordinate (x : Double) : Int32 :=
  match x.floor? with
  | some n => clamp n
  | none => if x.isNaN then 0 else if x.negative then clamp (-2 ^ 31) else clamp (2 ^ 31)

def containing (p : Vec3 Double) : Block :=
  ⟨coordinate p.x, coordinate p.y, coordinate p.z⟩

def toString (b : Block) : String :=
  s!"{b.x.toInt} {b.y.toInt} {b.z.toInt}"

instance : ToString Block := ⟨toString⟩

end Block

end PortalNet
