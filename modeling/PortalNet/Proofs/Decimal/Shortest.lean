import Mathlib.Tactic.Linarith
import Mathlib.Tactic.Ring
import Mathlib.Algebra.Order.Field.Power
import PortalNet.Decimal.Shortest

/-! # Shortest decimals are near

What the search finds is at most half a unit greater than the number that it searches for.
-/

namespace PortalNet

namespace Shortest

variable {i : Interval} {tie : Tie} {unit step c : Nat}

theorem holds_of_onGrid (h : i.onGrid tie unit step = some c) : i.holds unit step c = true := by
  simp only [Interval.onGrid] at h
  split at h
  · next hc hc' =>
    obtain rfl := Option.some.inj h
    split <;> assumption
  · next hc _ =>
    cases h
    exact hc
  · next _ hc =>
    cases h
    exact hc
  · cases h

/-- What reads back is at most half a unit away. -/
theorem near_of_holds (h : i.holds unit step c = true) :
    4 * i.m * unit ≤ 4 * c * step + 2 * unit ∧ 4 * c * step ≤ 4 * i.m * unit + 2 * unit := by
  have hlow : 4 * i.m * unit ≤ (4 * i.m - if i.atPower then 1 else 2) * unit + 2 * unit := by
    rw [← Nat.add_mul]
    apply Nat.mul_le_mul_right
    split <;> omega
  have hhigh : (4 * i.m + 2) * unit = 4 * i.m * unit + 2 * unit := Nat.add_mul ..
  simp only [Interval.holds] at h
  split at h
  · simp only [Bool.and_eq_true, decide_eq_true_eq] at h
    omega
  · simp only [Bool.and_eq_true, decide_eq_true_eq] at h
    omega

variable {top e k : Int} {places most : Nat}

/-- What the search finds some places behind the leading digit. -/
def Interval.hit (i : Interval) (tie : Tie) (unit step : Nat) (top : Int) (places : Nat) :
    Option (Nat × Int) :=
  let k := top - places
  (i.onGrid tie (unit * 10 ^ (-k).toNat) (step * 10 ^ k.toNat)).map fun c =>
    if c = 10 then (1, k + 1) else (c, k)

theorem search_eq {e : Int} {most : Nat} : search i tie e most = (List.range most).findSome?
    (i.hit tie (2 ^ e.toNat) (2 ^ (-e).toNat)
      (leading (i.m * 2 ^ e.toNat) (2 ^ (-e).toNat))) := rfl

theorem zpow_toNat {a : ℚ} (ha : a ≠ 0) (e : Int) : a ^ e.toNat = a ^ e * a ^ (-e).toNat := by
  rw [← zpow_natCast, ← zpow_natCast, ← zpow_add₀ ha]
  congr 1
  omega

theorem pos_of_near (hm : 0 < i.m) (hunit : 0 < unit)
    (h : 4 * i.m * unit ≤ 4 * c * step + 2 * unit) : 0 < c := by
  rcases Nat.eq_zero_or_pos c with rfl | hc
  · have hle : 4 * 1 * unit ≤ 4 * i.m * unit := Nat.mul_le_mul_right _ (Nat.mul_le_mul_left 4 hm)
    omega
  · exact hc

/-- A decimal that reads back is positive and at most half a unit too large. -/
theorem bounds_of_onGrid (hm : 0 < i.m) (h : i.onGrid tie (2 ^ e.toNat * 10 ^ (-k).toNat)
    (2 ^ (-e).toNat * 10 ^ k.toNat) = some c) :
    0 < c ∧ (c * 10 ^ k : ℚ) ≤ (i.m + 1 / 2) * 2 ^ e := by
  obtain ⟨hlow, hhigh⟩ := near_of_holds (holds_of_onGrid h)
  have hunit : 0 < 2 ^ e.toNat * 10 ^ (-k).toNat :=
    Nat.mul_pos (Nat.two_pow_pos _) (Nat.pow_pos (by decide))
  refine ⟨pos_of_near hm hunit hlow, ?_⟩
  have hcast : (4 * c * (2 ^ (-e).toNat * 10 ^ k.toNat) : ℚ) ≤
      4 * i.m * (2 ^ e.toNat * 10 ^ (-k).toNat) + 2 * (2 ^ e.toNat * 10 ^ (-k).toNat) := by
    exact_mod_cast hhigh
  have hpos : (0 : ℚ) < 4 * (2 ^ (-e).toNat * 10 ^ (-k).toNat) := by positivity
  rw [zpow_toNat two_ne_zero e, zpow_toNat (by norm_num) k] at hcast
  refine le_of_mul_le_mul_right ?_ hpos
  linarith

theorem search_bounds (hm : 0 < i.m) (h : search i tie e most = some (c, k)) :
    0 < c ∧ (c * 10 ^ k : ℚ) ≤ (i.m + 1 / 2) * 2 ^ e := by
  rw [search_eq] at h
  obtain ⟨places, -, h⟩ := List.exists_of_findSome?_eq_some h
  obtain ⟨c', hc', heq⟩ := Option.map_eq_some_iff.1 h
  obtain ⟨hpos, hle⟩ := bounds_of_onGrid hm hc'
  split at heq
  · next hten =>
    cases heq
    refine ⟨Nat.one_pos, le_trans (le_of_eq ?_) hle⟩
    rw [hten, zpow_add_one₀ (by norm_num)]
    push_cast
    ring
  · cases heq
    exact ⟨hpos, hle⟩

end Shortest

end PortalNet
