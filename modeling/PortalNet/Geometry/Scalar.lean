import PortalNet.Floating.Arithmetic

/-! # Scalars

What coordinates and angles have to offer. Servers compute with floating-point words; the same
definitions make sense for exact numbers.
-/

namespace PortalNet

class Scalar (α : Type) extends Add α, Sub α, Neg α, Div α, LE α, IntCast α where
  decidableLE : DecidableLE α

namespace Scalar

variable {α : Type} [Scalar α]

instance (x y : α) : Decidable (x ≤ y) :=
  Scalar.decidableLE x y

def half (x : α) : α :=
  x / ((2 : Int) : α)

/-- Equality of the numbers: both zeros are the same, and a word that is not a number is not the
same as itself. -/
def Same (x y : α) : Prop :=
  x ≤ y ∧ y ≤ x

instance (x y : α) : Decidable (Same x y) :=
  inferInstanceAs (Decidable (_ ∧ _))

/-- At most `r` away from zero. -/
def Within (x r : α) : Prop :=
  -r ≤ x ∧ x ≤ r

instance (x r : α) : Decidable (Within x r) :=
  inferInstanceAs (Decidable (_ ∧ _))

end Scalar

instance {f : FloatFormat} : Scalar (Floating f) where
  decidableLE := inferInstance

/-- An angle in degrees. -/
class Angle (β : Type) extends Add β, IntCast β where
  /-- The same direction, from zero up to a full turn. -/
  wrap : β → β

namespace Floating

/-- The remainder keeps the sign of the angle, so a negative one is a full turn short. -/
def wrap {f : FloatFormat} (x : Floating f) : Floating f :=
  let r := x.remainder 360
  if r.key < 0 then r + ((360 : Int) : Floating f) else r

instance {f : FloatFormat} : Angle (Floating f) where
  wrap := wrap

end Floating

end PortalNet
