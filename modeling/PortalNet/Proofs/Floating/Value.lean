import PortalNet.Proofs.Floating.Halves
import PortalNet.Proofs.Floating.Order

/-! # Values of words

A finite word stands for a rational number, and the magnitude of a sum is the one nearest to the sum
of these numbers. Whatever is within bounds is so after rounding, therefore; what is beyond them
stays there if there was nothing to round.
-/

namespace PortalNet

namespace Floating

variable {f : FloatFormat} {x y z r : Floating f} {q : ℚ}

/-- The number that a finite word stands for. Both zeros stand for zero. -/
def value (x : Floating f) : ℚ :=
  (if x.negative then -1 else 1) * f.valueOf x.magnitude

theorem abs_value (x : Floating f) : |x.value| = f.valueOf x.magnitude := by
  rw [value, abs_mul, abs_of_nonneg FloatFormat.valueOf_nonneg]
  split <;> simp

theorem value_of_datum {s : Bool} {m : Nat} {e : Int} (h : x.datum = .finite s m e) :
    x.value = (if s then -1 else 1) * (m * 2 ^ e) := by
  obtain ⟨m', e', hdatum, hvalue⟩ := exists_datum (isFinite_of_datum h)
  obtain ⟨rfl, rfl, rfl⟩ := Datum.finite.inj (h.symm.trans hdatum)
  rw [value, hvalue]

theorem StandsFor.value_eq (h : x.StandsFor q) : x.value = q := by
  obtain ⟨m, e, hdatum, hq⟩ := h
  rw [value_of_datum hdatum, hq]
  rcases lt_or_ge q 0 with hneg | hpos
  · simp [hneg, abs_of_neg hneg]
  · simp [hpos.not_gt, abs_of_nonneg hpos]

theorem valueOf_eq_zero_iff {m : Nat} : f.valueOf m = 0 ↔ m = 0 := by
  rw [← FloatFormat.valueOf_zero (f := f), FloatFormat.valueOf_strictMono.injective.eq_iff]

/-- Words in the same place of the order stand for the same number. -/
theorem value_eq_iff : x.value = y.value ↔ x.key = y.key := by
  have hx := FloatFormat.valueOf_nonneg (f := f) (m := x.magnitude)
  have hy := FloatFormat.valueOf_nonneg (f := f) (m := y.magnitude)
  have hsame : f.valueOf x.magnitude = f.valueOf y.magnitude ↔ x.magnitude = y.magnitude :=
    FloatFormat.valueOf_strictMono.injective.eq_iff
  -- words of different signs are the same number if both are zero
  have hzero : f.valueOf x.magnitude = -f.valueOf y.magnitude ↔
      x.magnitude = 0 ∧ y.magnitude = 0 := by
    rw [← valueOf_eq_zero_iff (f := f), ← valueOf_eq_zero_iff (f := f)]
    constructor
    · intro h
      constructor <;> linarith
    · rintro ⟨h, h'⟩
      rw [h, h', neg_zero]
  simp only [value, key]
  cases x.negative <;> cases y.negative
  · simpa using hsame
  · simp only [Bool.false_eq_true, if_false, if_true, one_mul, neg_mul, hzero]
    omega
  · simp only [Bool.false_eq_true, if_false, if_true, one_mul, neg_mul, neg_eq_iff_eq_neg, hzero]
    omega
  · simpa using hsame

theorem same_iff (hx : x.isFinite = true) (hy : y.isFinite = true) :
    Scalar.Same x y ↔ x.value = y.value := by
  have hle : ∀ {x y : Floating f}, x.isFinite = true → y.isFinite = true →
      (x ≤ y ↔ x.key ≤ y.key) := by
    intro x y hx hy
    exact ⟨fun h => h.2.2, fun h => ⟨(same_self hx).1.1, (same_self hy).1.1, h⟩⟩
  rw [Scalar.Same, hle hx hy, hle hy hx, value_eq_iff]
  omega

theorem magnitude_lt (x : Floating f) : x.magnitude < 2 ^ (f.width - 1) :=
  Nat.mod_lt _ (Nat.two_pow_pos _)

theorem magnitude_neg : (-x).magnitude = x.magnitude :=
  magnitude_ofParts x.magnitude_lt

theorem negative_neg : (-x).negative = !x.negative :=
  negative_ofParts x.magnitude_lt

theorem value_neg : (-x).value = -x.value := by
  rw [value, value, magnitude_neg, negative_neg]
  cases x.negative <;> simp

theorem magnitude_add (hx : x.isFinite = true) (hy : y.isFinite = true) :
    (x + y).magnitude = f.nearest |x.value + y.value| := by
  obtain ⟨m, e, hdx, -⟩ := exists_datum hx
  obtain ⟨n, e', hdy, -⟩ := exists_datum hy
  set k := min e e'
  set sum := moved x.negative m (e - k) + moved y.negative n (e' - k)
  have hadd : x + y = ofDyadic (if sum = 0 then x.negative && y.negative else sum < 0)
      sum.natAbs k := by
    change Floating.add x y = _
    rw [Floating.add, hdx, hdy]
    rfl
  have hsum : (sum : ℚ) * 2 ^ k = x.value + y.value := by
    rw [Int.cast_add, add_mul, moved_mul_zpow (min_le_left ..), moved_mul_zpow (min_le_right ..),
      value_of_datum hdx, value_of_datum hdy]
  have hpos : (0 : ℚ) < 2 ^ k := zpow_pos two_pos k
  rw [hadd, ofDyadic, magnitude_ofQuotient,
    FloatFormat.magnitudeOf_eq_nearest (FloatFormat.scale_pos Nat.one_pos),
    FloatFormat.ratio_scale, ← hsum, abs_mul, abs_of_pos hpos, neg_neg,
    Nat.cast_one, div_one, Nat.cast_natAbs, Int.cast_abs]

theorem magnitude_sub (hx : x.isFinite = true) (hy : y.isFinite = true) :
    (x - y).magnitude = f.nearest |x.value - y.value| := by
  have hsub := magnitude_add hx (isFinite_neg hy)
  rwa [value_neg, ← sub_eq_add_neg] at hsub

/-- Bounds that are not negative bound the magnitude. -/
theorem within_iff (hx : x.isNaN = false) (hr : r.isNaN = false) (hpos : r.negative = false) :
    Scalar.Within x r ↔ x.magnitude ≤ r.magnitude := by
  have hneg : (-r).isNaN = false := by rwa [isNaN, magnitude_neg]
  have hlow : (-r).key = -r.magnitude := by simp [key, negative_neg, hpos, magnitude_neg]
  have hhigh : r.key = r.magnitude := by simp [key, hpos]
  change (_ ∧ _ ∧ _) ∧ _ ∧ _ ∧ _ ↔ _
  rw [hlow, hhigh, key]
  simp only [hx, hr, hneg, true_and]
  split <;> omega

theorem isNaN_sub (hx : x.isFinite = true) (hy : y.isFinite = true) : (x - y).isNaN = false := by
  rw [isNaN, magnitude_sub hx hy]
  exact decide_eq_false (Nat.not_lt.2 FloatFormat.magnitudeOf_le)

section within

variable (hx : x.isFinite = true) (hy : y.isFinite = true) (hr : r.isFinite = true)
  (hpos : r.negative = false)

include hx hy hr hpos

theorem within_sub_iff : Scalar.Within (x - y) r ↔ f.nearest |x.value - y.value| ≤ r.magnitude := by
  have hlt : r.magnitude < f.infinity := of_decide_eq_true hr
  rw [within_iff (isNaN_sub hx hy) (decide_eq_false hlt.not_gt) hpos, magnitude_sub hx hy]

theorem within_sub (h : |x.value - y.value| ≤ r.value) : Scalar.Within (x - y) r := by
  have hlt : r.magnitude < f.infinity := of_decide_eq_true hr
  rw [within_sub_iff hx hy hr hpos, ← FloatFormat.nearest_valueOf hlt.le, ← abs_value]
  exact FloatFormat.nearest_le_nearest (abs_nonneg _) (h.trans (le_abs_self _))

/-- A number of the format that is beyond the bounds is not reached by rounding. -/
theorem sub_lt_of_within (hz : z.isFinite = true) (hrz : r.value < |z.value|)
    (h : Scalar.Within (x - y) r) : |x.value - y.value| < |z.value| := by
  have hlt : z.magnitude < f.infinity := of_decide_eq_true hz
  rw [within_sub_iff hx hy hr hpos] at h
  by_contra hle
  have hnearest := FloatFormat.nearest_le_nearest (f := f) (abs_nonneg _) (not_lt.1 hle)
  rw [abs_value, FloatFormat.nearest_valueOf hlt.le] at hnearest
  have hvalue : |z.value| ≤ r.value := by
    rw [abs_value, show r.value = f.valueOf r.magnitude by simp [value, hpos]]
    exact FloatFormat.valueOf_mono (hnearest.trans h)
  exact hrz.not_ge hvalue

end within

section halves

variable {x y r : Double} {k : Int}

theorem value_halves (h : k.natAbs < 2 ^ 53) : (halves k).value = k / 2 :=
  (standsFor_halves h).value_eq

theorem negative_halves : (halves k).negative = decide (k < 0) :=
  negative_ofParts (Nat.lt_of_le_of_lt FloatFormat.magnitudeOf_le infinity_lt)

/-- What is a whole number or a half is beyond the bounds by a half at least, if it is beyond them,
and stays there after rounding. -/
theorem abs_sub_le_of_within (hx : x.isFinite = true) (hy : IsHalf y) (hr : IsHalf r)
    (hpos : r.negative = false) (hk : x.value = k / 2) (h : Scalar.Within (x - y) r) :
    |x.value - y.value| ≤ r.value := by
  obtain ⟨l, hl, rfl⟩ := hy
  obtain ⟨n, hn, rfl⟩ := hr
  have hpos' : 0 ≤ n := by simpa [negative_halves] using hpos
  have hnext : |(halves (n + 1)).value| = (n + 1 : Int) / 2 := by
    rw [value_halves (by omega)]
    exact abs_of_nonneg (div_nonneg (Int.cast_nonneg (by omega)) two_pos.le)
  have hbeyond : (halves n).value < |(halves (n + 1)).value| := by
    rw [hnext, value_halves (by omega), div_lt_div_iff_of_pos_right two_pos]
    exact Int.cast_lt.2 (Int.lt_succ n)
  have hlt := sub_lt_of_within hx (standsFor_halves (by omega)).isFinite
    (standsFor_halves (by omega)).isFinite hpos (standsFor_halves (by omega)).isFinite hbeyond h
  have habs : |x.value - (halves l).value| = (|k - l| : Int) / 2 := by
    rw [hk, value_halves (by omega), ← sub_div, abs_div, abs_two]
    push_cast
    rfl
  rw [habs, hnext, div_lt_div_iff_of_pos_right two_pos, Int.cast_lt] at hlt
  rw [habs, value_halves (by omega), div_le_div_iff_of_pos_right two_pos]
  exact Int.cast_le.2 (Int.lt_add_one_iff.1 hlt)

end halves

end Floating

end PortalNet
