import PortalNet.Geometry.Scalar
import PortalNet.Proofs.Floating.Exact

/-! # Halves

Whole numbers and the numbers half way between them are what windows of blocks have for their
coordinates and sizes. As long as they are not too large, a word stands for each of them, and sums
and halves of them are exact.
-/

namespace PortalNet

namespace Floating

/-- The word of `k / 2`. -/
def halves (k : Int) : Double :=
  ofQuotient (k < 0) k.natAbs 2

variable {k l n : Int}

theorem least_double : FloatFormat.double.least = -1074 := rfl

theorem infinity_double : FloatFormat.double.infinity = 2047 * 2 ^ 52 := rfl

section spread

variable {m : Nat}

/-- The significand of a whole number, with its leading digit in the first of all places. -/
def spread (m : Nat) : Nat :=
  m * 2 ^ (52 - m.log2)

theorem log2_le (hm : m ≠ 0) (h : m < 2 ^ 53) : m.log2 ≤ 52 :=
  Nat.lt_succ_iff.1 ((Nat.log2_lt hm).2 h)

theorem le_spread (hm : m ≠ 0) (h : m < 2 ^ 53) : 2 ^ 52 ≤ spread m := by
  have hlog := log2_le hm h
  calc 2 ^ 52 = 2 ^ m.log2 * 2 ^ (52 - m.log2) := by rw [← Nat.pow_add]; congr 1; omega
    _ ≤ m * 2 ^ (52 - m.log2) := Nat.mul_le_mul_right _ (Nat.log2_self_le hm)

theorem spread_lt (hm : m ≠ 0) (h : m < 2 ^ 53) : spread m < 2 ^ 53 := by
  have hlog := log2_le hm h
  calc m * 2 ^ (52 - m.log2) < 2 ^ (m.log2 + 1) * 2 ^ (52 - m.log2) :=
        Nat.mul_lt_mul_of_pos_right Nat.lt_log2_self (Nat.two_pow_pos _)
    _ = 2 ^ 53 := by rw [← Nat.pow_add]; congr 1; omega

theorem log2_spread (hm : m ≠ 0) (h : m < 2 ^ 53) : (spread m).log2 = 52 := by
  have hlow := le_spread hm h
  exact (Nat.log2_eq_iff (by omega)).2 ⟨hlow, spread_lt hm h⟩

theorem half_eq_spread (hm : m ≠ 0) (h : m < 2 ^ 53) :
    (m : ℚ) / (2 : Nat) = spread m * 2 ^ ((m.log2 : Int) - 53) := by
  obtain ⟨k, hk⟩ := Nat.exists_eq_add_of_le (log2_le hm h)
  have hexponent : (m.log2 : Int) - 53 = -(k + 1 : Nat) := by omega
  rw [spread, hexponent, zpow_neg, zpow_natCast, hk, Nat.add_sub_cancel_left]
  push_cast
  rw [pow_succ]
  field_simp

end spread

theorem datum_halves (hk : k ≠ 0) (h : k.natAbs < 2 ^ 53) :
    (halves k).datum = .finite (k < 0) (spread k.natAbs) (k.natAbs.log2 - 53) := by
  have hm : k.natAbs ≠ 0 := Int.natAbs_ne_zero.2 hk
  have hlog := log2_le hm h
  have hlow := le_spread hm h
  have hhigh := spread_lt hm h
  have hleast : FloatFormat.double.least ≤ (k.natAbs.log2 : Int) - 53 := by
    rw [least_double]
    omega
  have hfinite : (((k.natAbs.log2 : Int) - 53) - FloatFormat.double.least).toNat * 2 ^ 52 +
      spread k.natAbs < FloatFormat.double.infinity := by
    rw [least_double, infinity_double]
    omega
  exact datum_ofQuotient hlow hhigh hleast Nat.two_pos (half_eq_spread hm h) hfinite

theorem standsFor_halves (h : k.natAbs < 2 ^ 53) : (halves k).StandsFor (k / 2) := by
  have hsign : ((k : ℚ) / 2 < 0) ↔ k < 0 := by
    rw [div_lt_iff₀ two_pos, zero_mul]
    exact_mod_cast Iff.rfl
  have habs : |(k : ℚ) / 2| = k.natAbs / (2 : Nat) := by
    rw [abs_div, Nat.cast_natAbs, Int.cast_abs]
    norm_num
  rcases eq_or_ne k 0 with rfl | hk
  · refine ⟨0, -1074, ?_, by simp⟩
    simp only [hsign]
    rfl
  · refine ⟨_, _, ?_, (half_eq_spread (Int.natAbs_ne_zero.2 hk) h).symm.trans habs.symm⟩
    simp only [hsign]
    exact datum_halves hk h

/-- A half with its sign put before it. -/
theorem signed_halves : (if k < 0 then -halves k.natAbs else halves k.natAbs) = halves k := by
  have hpos : ¬ (k.natAbs : Int) < 0 := by omega
  split
  · next hk => simp only [halves, neg_ofQuotient, Int.natAbs_natCast, hpos, hk, decide_false,
      decide_true, Bool.not_false]
  · next hk => rw [Int.natAbs_of_nonneg (Int.not_lt.1 hk)]

theorem halves_add (hk : k.natAbs < 2 ^ 53) (hl : l.natAbs < 2 ^ 53) :
    halves k + halves l = halves (k + l) := by
  have hsum : (k / 2 + l / 2 : ℚ) = ((k + l : Int) : ℚ) / 2 := by
    push_cast
    ring
  have hsign : (k / 2 + l / 2 : ℚ) < 0 ↔ k + l < 0 := by
    rw [hsum, div_lt_iff₀ two_pos, zero_mul]
    exact_mod_cast Iff.rfl
  have habs : ((k + l).natAbs / (2 : Nat) : ℚ) = |(k / 2 + l / 2 : ℚ)| := by
    rw [hsum, abs_div, Nat.cast_natAbs, Int.cast_abs]
    norm_num
  rw [(standsFor_halves hk).add (standsFor_halves hl) Nat.two_pos habs, halves]
  simp only [hsign]

theorem ofInt_eq_halves : (ofInt n : Double) = halves (2 * n) := by
  have hsign : 2 * n < 0 ↔ n < 0 := by omega
  have hratio : (n.natAbs / (1 : Nat) : ℚ) = (2 * n).natAbs / (2 : Nat) := by
    rw [Int.natAbs_mul]
    push_cast
    field_simp
  rw [ofInt, halves, ofQuotient_congr Nat.one_pos Nat.two_pos hratio]
  simp only [hsign]

theorem standsFor_ofInt (h : n.natAbs < 2 ^ 52) : (ofInt n : Double).StandsFor n := by
  have hstands := standsFor_halves (k := 2 * n) (by omega)
  rw [← ofInt_eq_halves] at hstands
  push_cast at hstands
  rwa [mul_div_cancel_left₀ _ two_ne_zero] at hstands

/-- The quotient of two whole numbers that is a half. -/
theorem ofInt_div_ofInt (hn : n.natAbs < 2 ^ 52) (hl : l.natAbs < 2 ^ 52) (hpos : 0 < l)
    (h : 2 * n = k * l) : (ofInt n : Double) / ofInt l = halves k := by
  have hl0 : (0 : ℚ) < l := by exact_mod_cast hpos
  have hcast : (2 * n : ℚ) = k * l := by exact_mod_cast h
  have hquotient : (k.natAbs / (2 : Nat) : ℚ) = |(n : ℚ)| / |(l : ℚ)| := by
    rw [← abs_div, Nat.cast_natAbs, Int.cast_abs, Nat.cast_ofNat, ← abs_two, ← abs_div]
    congr 1
    field_simp
    linarith
  have hsign : (n : ℚ) < 0 ↔ k < 0 := by
    have hn : (n : ℚ) = k * (l / 2) := by linarith
    rw [hn, ← not_le, ← not_le, mul_nonneg_iff_of_pos_right (by linarith)]
    exact_mod_cast Iff.rfl
  rw [(standsFor_ofInt hn).div (standsFor_ofInt hl) hl0.ne' Nat.two_pos hquotient, halves]
  simp [hl0.not_gt, hsign]

theorem half_ofInt (h : n.natAbs < 2 ^ 52) : Scalar.half (ofInt n : Double) = halves n := by
  change (ofInt n : Double) / ofInt 2 = halves n
  exact ofInt_div_ofInt h (by decide) (by decide) (Int.mul_comm ..)

/-- A finite word is the same number as itself. -/
theorem same_self {f : FloatFormat} {x : Floating f} (h : x.isFinite = true) : Scalar.Same x x := by
  have hlt : x.magnitude < f.infinity := of_decide_eq_true h
  have hnan : x.isNaN = false := decide_eq_false hlt.not_gt
  have hle : x ≤ x := ⟨hnan, hnan, Int.le_refl _⟩
  exact ⟨hle, hle⟩

/-- The word of a half that is as small as those that windows have. -/
def IsHalf (x : Double) : Prop :=
  ∃ k : Int, k.natAbs < 2 ^ 34 ∧ x = halves k

theorem IsHalf.isFinite {x : Double} (h : IsHalf x) : x.isFinite = true := by
  obtain ⟨k, hk, rfl⟩ := h
  exact (standsFor_halves (by omega)).isFinite

end Floating

end PortalNet
