import PortalNet.Geometry.Direction

/-! # Windows

A window is an upright rectangle: a centre, a facing and a size. Whoever goes through one window
comes out of another, turned by the angle between the two.
-/

namespace PortalNet

structure Size (α : Type) where
  width : α
  height : α
  deriving DecidableEq

namespace Size

def Same {α : Type} [Scalar α] (a b : Size α) : Prop :=
  Scalar.Same a.width b.width ∧ Scalar.Same a.height b.height

instance {α : Type} [Scalar α] (a b : Size α) : Decidable (a.Same b) :=
  inferInstanceAs (Decidable (_ ∧ _))

def toString (s : Size Double) : String :=
  s!"{s.width.text}x{s.height.text}"

instance : ToString (Size Double) := ⟨toString⟩

end Size

structure Frame (α : Type) where
  center : Vec3 α
  facing : Direction
  deriving DecidableEq

/-- Where someone is and how they move. -/
structure Motion (α β : Type) where
  position : Vec3 α
  yaw : β
  pitch : β
  velocity : Vec3 α
  flying : Bool
  gliding : Bool
  deriving DecidableEq

/-- Standing still and looking south. -/
def Motion.standing {α β : Type} [IntCast α] [IntCast β] (position : Vec3 α) : Motion α β where
  position
  yaw := (0 : Int)
  pitch := (0 : Int)
  velocity := .zero
  flying := false
  gliding := false

namespace Frame

variable {α β : Type} [Scalar α]

/-- Whether a point is in the window or up to half a block in front of it or behind it. -/
def Contains (w : Frame α) (size : Size α) (p : Vec3 α) : Prop :=
  let offset := p - w.center
  let across := if w.facing.isXPlane then offset.z else offset.x
  let depth := if w.facing.isXPlane then offset.x else offset.z
  Scalar.Within depth (Scalar.half ((1 : Int) : α)) ∧
    Scalar.Within across (Scalar.half size.width) ∧
    Scalar.Within offset.y (Scalar.half size.height)

instance (w : Frame α) (size : Size α) (p : Vec3 α) : Decidable (w.Contains size p) :=
  inferInstanceAs (Decidable (_ ∧ _))

def inverted (w : Frame α) : Frame α :=
  { w with facing := w.facing.opposite }

/-- The motion behind the window `dest` of someone who enters the window `origin`. -/
def carry [Angle β] (origin dest : Frame α) (m : Motion α β) : Motion α β :=
  let turns := origin.facing.turnsTo dest.facing
  { m with
    position := dest.center + (m.position - origin.center).rotate turns
    yaw := Angle.wrap (m.yaw + ((90 * turns : Nat) : Int))
    velocity := m.velocity.rotate turns }

end Frame

end PortalNet
