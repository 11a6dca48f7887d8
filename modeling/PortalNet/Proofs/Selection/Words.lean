import Mathlib.Logic.Basic
import PortalNet.Selection

/-! # Windows in words

The size of a window is reckoned by counting its blocks, and its place by adding the numbers of the
first and the last one. If every step of that stays within the words of blocks, then what is
reckoned is what it would be without any limit, and otherwise nothing comes of it.
-/

namespace PortalNet

variable {α : Type} [Scalar α]

section checked

variable {β γ : Type} {p : Prop} [Decidable p] {x : β} {f : β → Except Failure γ}

theorem checked_eq (n : Int) : checked n = if InWord n then .ok n else .error .overflow :=
  rfl

theorem Failure.bind_eq_ok_iff {x : Except Failure β} {y : γ} :
    (x >>= f) = .ok y ↔ ∃ b, x = .ok b ∧ f b = .ok y := by
  cases x <;> simp [bind, Except.bind]

theorem ite_overflow_bind : ((if p then .ok x else .error .overflow) >>= f) =
    if p then f x else .error .overflow := by
  split <;> rfl

end checked

/-- Blocks in a row along one axis, by the numbers of the first and of the last one. -/
structure Row where
  first : Int32
  last : Int32

namespace Row

/-- How many blocks there are, if there are any. -/
def length (r : Row) : Int :=
  r.last.toInt - r.first.toInt + 1

/-- Twice the middle. -/
def sum (r : Row) : Int :=
  r.first.toInt + r.last.toInt + 1

/-- The blocks can be counted in words, each step of it. -/
def CountFits (r : Row) : Prop :=
  InWord (r.last.toInt - r.first.toInt) ∧ InWord r.length

/-- The middle can be found in words, each step of it. -/
def SumFits (r : Row) : Prop :=
  InWord (r.first.toInt + r.last.toInt) ∧ InWord r.sum

instance (r : Row) : Decidable r.CountFits :=
  inferInstanceAs (Decidable (_ ∧ _))

instance (r : Row) : Decidable r.SumFits :=
  inferInstanceAs (Decidable (_ ∧ _))

theorem span_eq (r : Row) :
    Bounds.span r.first r.last = if r.CountFits then .ok r.length else .error .overflow := by
  rw [Bounds.span, checked_eq, ite_overflow_bind, checked_eq, ← ite_and]
  rfl

theorem middle_eq (r : Row) : (Bounds.middle r.first r.last : Except Failure α) =
    if r.SumFits then .ok (Scalar.half (r.sum : α)) else .error .overflow := by
  rw [Bounds.middle, checked_eq, ite_overflow_bind, checked_eq, ite_overflow_bind, ← ite_and]
  rfl

theorem fits_of_near {r : Row} (hfirst : r.first.toInt.natAbs < 2 ^ 30)
    (hlast : r.last.toInt.natAbs < 2 ^ 30) : r.CountFits ∧ r.SumFits := by
  unfold CountFits SumFits length sum InWord
  omega

end Row

namespace Bounds

/-- The blocks from one side of the window to the other. -/
def across (b : Bounds) : Row :=
  if b.facing.isXPlane then ⟨b.low.z, b.high.z⟩ else ⟨b.low.x, b.high.x⟩

def upward (b : Bounds) : Row :=
  ⟨b.low.y, b.high.y⟩

def CountsFit (b : Bounds) : Prop :=
  b.across.CountFits ∧ b.upward.CountFits

def SumsFit (b : Bounds) : Prop :=
  b.upward.SumFits ∧ b.across.SumFits

/-- The window can be measured in words. -/
def Fits (b : Bounds) : Prop :=
  b.CountsFit ∧ b.SumsFit

instance (b : Bounds) : Decidable b.CountsFit :=
  inferInstanceAs (Decidable (_ ∧ _))

instance (b : Bounds) : Decidable b.SumsFit :=
  inferInstanceAs (Decidable (_ ∧ _))

instance (b : Bounds) : Decidable b.Fits :=
  inferInstanceAs (Decidable (_ ∧ _))

variable {b : Bounds}

/-- The size that the window would have if blocks could be counted without limit. -/
def blocks (b : Bounds) : Size α :=
  ⟨b.across.length, b.upward.length⟩

/-- The place that it would have. -/
def heart (b : Bounds) : Vec3 α :=
  if b.facing.isXPlane then
    ⟨face b.low.x, Scalar.half (b.upward.sum : α), Scalar.half (b.across.sum : α)⟩
  else ⟨Scalar.half (b.across.sum : α), Scalar.half (b.upward.sum : α), face b.low.z⟩

theorem across_of_xPlane (h : b.facing.isXPlane = true) : b.across = ⟨b.low.z, b.high.z⟩ :=
  if_pos h

theorem across_of_zPlane (h : b.facing.isXPlane = false) : b.across = ⟨b.low.x, b.high.x⟩ :=
  if_neg (by simp [h])

theorem size_eq (b : Bounds) : (b.size : Except Failure (Size α)) =
    if b.CountsFit then .ok b.blocks else .error .overflow := by
  have hup : span b.low.y b.high.y = _ := b.upward.span_eq
  cases hplane : b.facing.isXPlane with
  | true =>
    have hwidth : span b.low.z b.high.z = _ := Row.span_eq ⟨b.low.z, b.high.z⟩
    simp only [size, hplane, if_true, hwidth, hup, ite_overflow_bind, ← ite_and, CountsFit, blocks,
      across_of_xPlane hplane]
    rfl
  | false =>
    have hwidth : span b.low.x b.high.x = _ := Row.span_eq ⟨b.low.x, b.high.x⟩
    simp only [size, hplane, Bool.false_eq_true, if_false, hwidth, hup, ite_overflow_bind,
      ← ite_and, CountsFit, blocks, across_of_zPlane hplane]
    rfl

theorem center_eq (b : Bounds) : (b.center : Except Failure (Vec3 α)) =
    if b.SumsFit then .ok b.heart else .error .overflow := by
  have hup : middle b.low.y b.high.y = _ := b.upward.middle_eq (α := α)
  cases hplane : b.facing.isXPlane with
  | true =>
    have hacross : middle b.low.z b.high.z = _ := Row.middle_eq (α := α) ⟨b.low.z, b.high.z⟩
    simp only [center, hplane, if_true, hup, hacross, ite_overflow_bind, ← ite_and, SumsFit, heart,
      across_of_xPlane hplane]
    rfl
  | false =>
    have hacross : middle b.low.x b.high.x = _ := Row.middle_eq (α := α) ⟨b.low.x, b.high.x⟩
    simp only [center, hplane, Bool.false_eq_true, if_false, hup, hacross, ite_overflow_bind,
      ← ite_and, SumsFit, heart, across_of_zPlane hplane]
    rfl

end Bounds

namespace Selection

/-- The window can be measured in words, if there is one. -/
def Fits (s : Selection) : Prop :=
  ∀ b, s.bounds = .ok b → b.Fits

variable {s : Selection} {b : Bounds}

section bounded

variable (hs : s.bounds = .ok b)

include hs

theorem direction_of_bounds : s.direction = .ok (s.facing b) := by
  rw [direction, hs]
  rfl

theorem size_of_bounds : (s.size : Except Failure (Size α)) =
    if b.CountsFit then .ok b.blocks else .error .overflow := by
  rw [size, reckon, hs]
  exact b.size_eq

theorem frame_of_bounds : (s.frame : Except Failure (Frame α)) =
    if b.SumsFit then .ok ⟨b.heart, s.facing b⟩ else .error .overflow := by
  rw [frame, reckon, hs]
  change b.center >>= _ = _
  rw [b.center_eq]
  split <;> rfl

theorem position_of_bounds : s.position =
    if b.SumsFit then .ok (.ofLocation ⟨b.world, b.heart⟩ (s.facing b)) else .error .overflow := by
  rw [position, reckon, hs]
  change b.center >>= _ = _
  rw [b.center_eq]
  split <;> rfl

theorem world?_of_bounds : s.world? = some b.world := by
  unfold bounds at hs
  split at hs
  · cases hs
  · cases hs
  · next v a w c ha _ =>
    split at hs
    · cases hs
    · split at hs
      · cases hs
      · obtain rfl := Except.ok.inj hs
        rw [world?, ha]
        rfl

end bounded

theorem reckon_of_refused {β : Type} {e : PortalError} (hs : s.bounds = .error e)
    (f : Bounds → Except Failure β) : s.reckon f = .error (.refused e) := by
  rw [reckon, hs]
  rfl

theorem exists_bounds_of_reckon {β : Type} {f : Bounds → Except Failure β} {x : β}
    (h : s.reckon f = .ok x) : ∃ b, s.bounds = .ok b ∧ f b = .ok x := by
  unfold reckon at h
  split at h
  · next b hb => exact ⟨b, hb, h⟩
  · cases h

theorem size_eq_ok_iff {size : Size α} :
    s.size = .ok size ↔ ∃ b, s.bounds = .ok b ∧ b.CountsFit ∧ size = b.blocks := by
  constructor
  · intro h
    obtain ⟨b, hb, -⟩ := exists_bounds_of_reckon h
    rw [size_of_bounds hb] at h
    split at h
    · next hfits => exact ⟨b, hb, hfits, (Except.ok.inj h).symm⟩
    · cases h
  · rintro ⟨b, hb, hfits, rfl⟩
    rw [size_of_bounds hb, if_pos hfits]

theorem position_eq_ok_iff {p : Position} : s.position = .ok p ↔
    ∃ b, s.bounds = .ok b ∧ b.SumsFit ∧ p = .ofLocation ⟨b.world, b.heart⟩ (s.facing b) := by
  constructor
  · intro h
    obtain ⟨b, hb, -⟩ := exists_bounds_of_reckon h
    rw [position_of_bounds hb] at h
    split at h
    · next hfits => exact ⟨b, hb, hfits, (Except.ok.inj h).symm⟩
    · cases h
  · rintro ⟨b, hb, hfits, rfl⟩
    rw [position_of_bounds hb, if_pos hfits]

end Selection

end PortalNet
