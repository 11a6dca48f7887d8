import Mathlib.Algebra.Order.Floor.Ring
import Mathlib.Tactic.Ring
import PortalNet.Geometry.Window

/-! # Exact numbers

The numbers of an ordered field are scalars, and those of one that can be rounded down are angles:
an angle and what it wraps to differ by whole turns.
-/

namespace PortalNet

section Scalar

variable {K : Type} [Field K] [LinearOrder K]

instance (priority := low) : Scalar K where
  decidableLE := inferInstance

namespace Scalar

theorem half_eq (x : K) : half x = x / 2 := by
  simp [half]

theorem within_iff [IsStrictOrderedRing K] {x r : K} : Within x r ↔ |x| ≤ r :=
  abs_le.symm

end Scalar

end Scalar

section Angle

variable {L : Type} [Field L] [LinearOrder L] [FloorRing L]

instance (priority := low) : Angle L where
  wrap x := x - 360 * ⌊x / 360⌋

namespace Angle

theorem wrap_eq (x : L) : wrap x = x - 360 * ⌊x / 360⌋ := rfl

theorem add_quarters (x : L) (m n : Nat) :
    x + ((90 * m : Nat) : Int) + ((90 * n : Nat) : Int) = x + ((90 * (m + n) : Nat) : Int) := by
  push_cast
  ring

variable [IsStrictOrderedRing L] {x : L}

theorem wrap_nonneg (x : L) : 0 ≤ wrap x := by
  have h := Int.floor_le (x / 360)
  rw [le_div_iff₀ (by norm_num)] at h
  rw [wrap_eq]
  linarith

theorem wrap_lt (x : L) : wrap x < 360 := by
  have h := Int.lt_floor_add_one (x / 360)
  rw [div_lt_iff₀ (by norm_num)] at h
  rw [wrap_eq]
  linarith

/-- Whole turns do not count. -/
theorem wrap_add_turns (x : L) (n : Int) : wrap (x + 360 * n) = wrap x := by
  have hfloor : ⌊(x + 360 * n) / 360⌋ = ⌊x / 360⌋ + n := by
    rw [← Int.floor_add_intCast]
    congr 1
    field_simp
  rw [wrap_eq, wrap_eq, hfloor]
  push_cast
  ring

theorem wrap_wrap_add (x y : L) : wrap (wrap x + y) = wrap (x + y) := by
  have h : wrap x + y = x + y + 360 * (-⌊x / 360⌋ : Int) := by
    rw [wrap_eq]
    push_cast
    ring
  rw [h, wrap_add_turns]

/-- Quarter turns count up to whole ones. -/
theorem wrap_quarters_congr {m n : Nat} (x : L) (h : m % 4 = n % 4) :
    wrap (x + ((90 * m : Nat) : Int)) = wrap (x + ((90 * n : Nat) : Int)) := by
  have hdiff : ((90 * m : Nat) : Int) = (90 * n : Nat) + 360 * ((m / 4 : Nat) - (n / 4 : Nat)) := by
    omega
  have hturns : x + ((90 * m : Nat) : Int) =
      x + ((90 * n : Nat) : Int) + 360 * ((m / 4 : Nat) - (n / 4 : Nat) : Int) := by
    rw [hdiff]
    push_cast
    ring
  rw [hturns, wrap_add_turns]

theorem wrap_of_lt (h : 0 ≤ x) (h' : x < 360) : wrap x = x := by
  have hfloor : ⌊x / 360⌋ = 0 := by
    rw [Int.floor_eq_zero_iff]
    exact ⟨by positivity, by rwa [div_lt_one (by norm_num)]⟩
  rw [wrap_eq, hfloor]
  simp

end Angle

end Angle

end PortalNet
