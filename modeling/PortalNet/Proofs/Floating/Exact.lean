import Mathlib.Data.Int.Log
import Mathlib.Data.Rat.Floor
import Mathlib.Tactic.FieldSimp
import Mathlib.Tactic.Linarith
import Mathlib.Tactic.Ring
import PortalNet.Floating.Arithmetic

/-! # Exact arithmetic

Which word is nearest to a quotient depends on the quotient only. If the quotient is a number of
the format, the nearest word is that number, so that sums, quotients and conversions are exact
whenever they can be.
-/

namespace PortalNet

namespace FloatFormat

variable {f : FloatFormat} {n d n' d' : Nat} {e : Int}

theorem scale_pos (hd : 0 < d) : 0 < (scale n d e).2 := by
  unfold scale
  split
  · exact Nat.mul_pos hd (Nat.two_pow_pos _)
  · exact hd

/-- Scaling multiplies by a power of two. -/
theorem ratio_scale : ((scale n d e).1 / (scale n d e).2 : ℚ) = n / d * 2 ^ (-e) := by
  unfold scale
  split
  · next he =>
    obtain ⟨k, rfl⟩ := Int.eq_ofNat_of_zero_le he
    simp [zpow_neg, div_eq_mul_inv, mul_comm, mul_assoc]
  · next he =>
    obtain ⟨k, hk⟩ := Int.eq_ofNat_of_zero_le (show 0 ≤ -e by omega)
    rw [hk]
    simp [div_mul_eq_mul_div]

theorem cross_eq_of_ratio_eq (hd : 0 < d) (hd' : 0 < d') (h : (n / d : ℚ) = n' / d') :
    n * d' = n' * d := by
  have hd0 : (d : ℚ) ≠ 0 := Nat.cast_ne_zero.2 hd.ne'
  have hd0' : (d' : ℚ) ≠ 0 := Nat.cast_ne_zero.2 hd'.ne'
  rw [div_eq_div_iff hd0 hd0'] at h
  exact_mod_cast h

theorem divEven_mul_right {c : Nat} (hc : 0 < c) : divEven (n * c) (d * c) = divEven n d := by
  have hr : 2 * (n % d * c) = 2 * (n % d) * c := (Nat.mul_assoc ..).symm
  have hlt : d * c < 2 * (n % d) * c ↔ d < 2 * (n % d) := Nat.mul_lt_mul_right hc
  have heq : d * c = 2 * (n % d) * c ↔ d = 2 * (n % d) := Nat.mul_left_inj hc.ne'
  simp only [divEven, Nat.mul_div_mul_right _ _ hc, Nat.mul_mod_mul_right, hr, hlt, heq]

theorem divEven_congr (hd : 0 < d) (hd' : 0 < d') (h : (n / d : ℚ) = n' / d') :
    divEven n d = divEven n' d' := by
  rw [← divEven_mul_right hd', cross_eq_of_ratio_eq hd hd' h, Nat.mul_comm d d',
    divEven_mul_right hd]

theorem divEven_one : divEven n 1 = n := by
  simp [divEven, Nat.mod_one]

theorem two_zpow_le_iff {r : ℚ} (hr : 0 < r) {k : Int} : (2 : ℚ) ^ k ≤ r ↔ k ≤ Int.log 2 r := by
  exact_mod_cast Int.zpow_le_iff_le_log (R := ℚ) Nat.one_lt_two hr

theorem lt_two_zpow_iff {r : ℚ} (hr : 0 < r) {k : Int} : r < (2 : ℚ) ^ k ↔ Int.log 2 r < k := by
  exact_mod_cast Int.lt_zpow_iff_log_lt (R := ℚ) Nat.one_lt_two hr

theorem log_cast : Int.log 2 (n : ℚ) = n.log2 := by
  rw [Int.log_natCast, Nat.log2_eq_log_two]

/-- The power of two of a quotient is the difference of those of its parts or one less. -/
theorem log_ratio (hn : 0 < n) (hd : 0 < d) :
    (n.log2 : Int) - d.log2 - 1 ≤ Int.log 2 (n / d : ℚ) ∧
      Int.log 2 (n / d : ℚ) ≤ (n.log2 : Int) - d.log2 := by
  have hn' : (0 : ℚ) < n := Nat.cast_pos.2 hn
  have hd' : (0 : ℚ) < d := Nat.cast_pos.2 hd
  have hr : (0 : ℚ) < n / d := div_pos hn' hd'
  have htwo : (2 : ℚ) ≠ 0 := two_ne_zero
  constructor
  · rw [← two_zpow_le_iff hr, le_div_iff₀ hd']
    have hnlow : (2 : ℚ) ^ (n.log2 : Int) ≤ n := (two_zpow_le_iff hn').2 log_cast.ge
    have hdhigh : (d : ℚ) < 2 ^ ((d.log2 : Int) + 1) :=
      (lt_two_zpow_iff hd').2 (by rw [log_cast]; exact Int.lt_succ _)
    calc (2 : ℚ) ^ ((n.log2 : Int) - d.log2 - 1) * d
        ≤ 2 ^ ((n.log2 : Int) - d.log2 - 1) * 2 ^ ((d.log2 : Int) + 1) :=
          mul_le_mul_of_nonneg_left hdhigh.le (zpow_nonneg two_pos.le _)
      _ = 2 ^ (n.log2 : Int) := by rw [← zpow_add₀ htwo]; congr 1; omega
      _ ≤ n := hnlow
  · rw [← Int.lt_add_one_iff, ← lt_two_zpow_iff hr, div_lt_iff₀ hd']
    have hdlow : (2 : ℚ) ^ (d.log2 : Int) ≤ d := (two_zpow_le_iff hd').2 log_cast.ge
    have hnhigh : (n : ℚ) < 2 ^ ((n.log2 : Int) + 1) :=
      (lt_two_zpow_iff hn').2 (by rw [log_cast]; exact Int.lt_succ _)
    calc (n : ℚ) < 2 ^ ((n.log2 : Int) + 1) := hnhigh
      _ = 2 ^ ((n.log2 : Int) - d.log2 + 1) * 2 ^ (d.log2 : Int) := by
          rw [← zpow_add₀ htwo]; congr 1; omega
      _ ≤ 2 ^ ((n.log2 : Int) - d.log2 + 1) * d :=
          mul_le_mul_of_nonneg_left hdlow (zpow_nonneg two_pos.le _)

theorem quotient_lt_iff {m : Nat} (hd : 0 < d) : n / d < m ↔ (n / d : ℚ) < m := by
  rw [Nat.div_lt_iff_lt_mul hd, div_lt_iff₀ (Nat.cast_pos.2 hd)]
  exact_mod_cast Iff.rfl

/-- The last place is the same for all ways to write a quotient. -/
theorem lastPlace_eq (hn : 0 < n) (hd : 0 < d) :
    f.lastPlace n d = max f.least (Int.log 2 (n / d : ℚ) - f.fractionBits) := by
  have hr : (0 : ℚ) < n / d := div_pos (Nat.cast_pos.2 hn) (Nat.cast_pos.2 hd)
  obtain ⟨hlow, hhigh⟩ := log_ratio hn hd
  set a : Int := (n.log2 : Int) - d.log2 with ha
  have hquotient : (scale n d (a - f.fractionBits)).1 / (scale n d (a - f.fractionBits)).2 <
      2 ^ f.fractionBits ↔ Int.log 2 (n / d : ℚ) < a := by
    have hpow : (2 : ℚ) ^ f.fractionBits = 2 ^ a * 2 ^ (-(a - f.fractionBits)) := by
      rw [← zpow_natCast, ← zpow_add₀ two_ne_zero]
      congr 1
      omega
    rw [quotient_lt_iff (scale_pos hd), ratio_scale, ← lt_two_zpow_iff hr]
    push_cast
    rw [hpow, mul_lt_mul_iff_left₀ (zpow_pos two_pos _)]
  have hlast : f.lastPlace n d = max f.least
      (if (scale n d (a - f.fractionBits)).1 / (scale n d (a - f.fractionBits)).2 <
        2 ^ f.fractionBits then a - f.fractionBits - 1 else a - f.fractionBits) := rfl
  rw [hlast]
  congr 1
  split
  · next h => rw [hquotient] at h; omega
  · next h => rw [hquotient] at h; omega

theorem magnitudeOf_congr (hd : 0 < d) (hd' : 0 < d') (h : (n / d : ℚ) = n' / d') :
    f.magnitudeOf n d = f.magnitudeOf n' d' := by
  have hcross := cross_eq_of_ratio_eq hd hd' h
  rcases Nat.eq_zero_or_pos n with rfl | hn
  · have hn' : n' = 0 := by
      rw [Nat.zero_mul, eq_comm, Nat.mul_eq_zero] at hcross
      exact hcross.resolve_right hd.ne'
    rw [hn']
    simp [magnitudeOf]
  · have hn' : 0 < n' := by
      rcases Nat.eq_zero_or_pos n' with rfl | hn'
      · rw [Nat.zero_mul, Nat.mul_eq_zero] at hcross
        exact absurd hcross (not_or.2 ⟨hn.ne', hd'.ne'⟩)
      · exact hn'
    have hlast : f.lastPlace n d = f.lastPlace n' d' := by
      rw [lastPlace_eq hn hd, lastPlace_eq hn' hd', h]
    have hdiv : divEven (scale n d (f.lastPlace n' d')).1 (scale n d (f.lastPlace n' d')).2 =
        divEven (scale n' d' (f.lastPlace n' d')).1 (scale n' d' (f.lastPlace n' d')).2 :=
      divEven_congr (scale_pos hd) (scale_pos hd') (by rw [ratio_scale, ratio_scale, h])
    simp only [magnitudeOf, hn.ne', hn'.ne', if_false, hlast, hdiv]

theorem log_significand {m b : Nat} (hm : 2 ^ b ≤ m) (hm' : m < 2 ^ (b + 1)) :
    Int.log 2 (m * 2 ^ e : ℚ) = b + e := by
  have hpos : (0 : ℚ) < 2 ^ e := zpow_pos two_pos _
  have hr : (0 : ℚ) < m * 2 ^ e :=
    mul_pos (Nat.cast_pos.2 (Nat.lt_of_lt_of_le (Nat.two_pow_pos b) hm)) hpos
  apply le_antisymm
  · rw [← Int.lt_add_one_iff, ← lt_two_zpow_iff hr,
      show (b : Int) + e + 1 = (b + 1 : Nat) + e by push_cast; ring,
      zpow_add₀ two_ne_zero, zpow_natCast, mul_lt_mul_iff_left₀ hpos]
    exact_mod_cast hm'
  · rw [← two_zpow_le_iff hr, zpow_add₀ two_ne_zero, zpow_natCast, mul_le_mul_iff_left₀ hpos]
    exact_mod_cast hm

theorem magnitudeOf_exact {m : Nat} (hm : 2 ^ f.fractionBits ≤ m)
    (hm' : m < 2 ^ (f.fractionBits + 1)) (he : f.least ≤ e) (hd : 0 < d)
    (h : (n / d : ℚ) = m * 2 ^ e) :
    f.magnitudeOf n d = min f.infinity ((e - f.least).toNat * 2 ^ f.fractionBits + m) := by
  have hm0 : 0 < m := Nat.lt_of_lt_of_le (Nat.two_pow_pos _) hm
  have hr : (0 : ℚ) < n / d := by
    rw [h]
    exact mul_pos (Nat.cast_pos.2 hm0) (zpow_pos two_pos _)
  have hn : 0 < n := by
    rcases Nat.eq_zero_or_pos n with rfl | hn
    · simp at hr
    · exact hn
  have hlast : f.lastPlace n d = e := by
    rw [lastPlace_eq hn hd, h, log_significand hm hm', add_sub_cancel_left, max_eq_right he]
  have hratio : ((scale n d e).1 / (scale n d e).2 : ℚ) = m / (1 : Nat) := by
    rw [ratio_scale, h, mul_assoc, ← zpow_add₀ two_ne_zero, add_neg_cancel, zpow_zero, mul_one,
      Nat.cast_one, div_one]
  have hdiv : divEven (scale n d e).1 (scale n d e).2 = m :=
    (divEven_congr (scale_pos hd) Nat.one_pos hratio).trans divEven_one
  simp only [magnitudeOf, hn.ne', if_false, hlast, hdiv]

theorem magnitudeOf_le : f.magnitudeOf n d ≤ f.infinity := by
  unfold magnitudeOf
  split
  · exact Nat.zero_le _
  · exact Nat.min_le_left ..

end FloatFormat

namespace Floating

variable {f : FloatFormat}

theorem bits_ofParts {s : Bool} {m : Nat} (h : m < 2 ^ (f.width - 1)) :
    (ofParts s m : Floating f).bits = m + if s then 2 ^ (f.width - 1) else 0 := by
  have hpow : 2 ^ f.width = 2 ^ (f.width - 1) * 2 := Nat.pow_succ ..
  have hlt : m + (if s then 2 ^ (f.width - 1) else 0) < 2 ^ f.width := by
    rw [hpow]
    split <;> omega
  rw [ofParts, bits, ofBits, BitVec.toNat_ofNat, Nat.mod_eq_of_lt hlt]

theorem magnitude_ofParts {s : Bool} {m : Nat} (h : m < 2 ^ (f.width - 1)) :
    (ofParts s m : Floating f).magnitude = m := by
  rw [magnitude, bits_ofParts h]
  cases s with
  | false => exact Nat.mod_eq_of_lt h
  | true => rw [if_pos rfl, Nat.add_mod_right, Nat.mod_eq_of_lt h]

theorem negative_ofParts {s : Bool} {m : Nat} (h : m < 2 ^ (f.width - 1)) :
    (ofParts s m : Floating f).negative = s := by
  rw [negative, BitVec.msb_eq_decide]
  change decide (2 ^ (f.width - 1) ≤ (ofParts s m : Floating f).bits) = s
  rw [bits_ofParts h]
  cases s with
  | false => simpa using h
  | true => simp

theorem infinity_lt : f.infinity < 2 ^ (f.width - 1) := by
  have hpow : 2 ^ (f.width - 1) = 2 ^ f.exponentBits * 2 ^ f.fractionBits := Nat.pow_add ..
  rw [hpow, FloatFormat.infinity]
  exact Nat.mul_lt_mul_of_pos_right (Nat.pred_lt (Nat.two_pow_pos _).ne') (Nat.two_pow_pos _)

/-- What the word of a number stands for. -/
theorem datum_ofParts {s : Bool} {m : Nat} {e : Int} (hm : 2 ^ f.fractionBits ≤ m)
    (hm' : m < 2 ^ (f.fractionBits + 1)) (he : f.least ≤ e)
    (hfinite : (e - f.least).toNat * 2 ^ f.fractionBits + m < f.infinity) :
    (ofParts s ((e - f.least).toNat * 2 ^ f.fractionBits + m) : Floating f).datum =
      .finite s m e := by
  have hword := hfinite.trans infinity_lt
  have hpos := Nat.two_pow_pos f.fractionBits
  obtain ⟨r, rfl⟩ := Nat.exists_eq_add_of_le' hm
  have hr : r < 2 ^ f.fractionBits := by
    rw [Nat.pow_succ] at hm'
    omega
  have hparts : (e - f.least).toNat * 2 ^ f.fractionBits + (r + 2 ^ f.fractionBits) =
      r + 2 ^ f.fractionBits * ((e - f.least).toNat + 1) := by
    ring
  have hfield : ((e - f.least).toNat * 2 ^ f.fractionBits + (r + 2 ^ f.fractionBits)) /
      2 ^ f.fractionBits = (e - f.least).toNat + 1 := by
    rw [hparts, Nat.add_mul_div_left _ _ hpos, Nat.div_eq_of_lt hr, Nat.zero_add]
  have hfraction : ((e - f.least).toNat * 2 ^ f.fractionBits + (r + 2 ^ f.fractionBits)) %
      2 ^ f.fractionBits = r := by
    rw [hparts, Nat.add_mul_mod_self_left, Nat.mod_eq_of_lt hr]
  have hexponent : f.least + ((e - f.least).toNat + 1 : Nat) - 1 = e := by omega
  simp only [datum, magnitude_ofParts hword, negative_ofParts hword, hfield, hfraction,
    hfinite.not_gt, hfinite.ne, if_false, Nat.succ_ne_zero, hexponent]

variable {x y : Floating f} {p q : ℚ} {n d : Nat}

theorem neg_ofQuotient {s : Bool} : -(ofQuotient s n d : Floating f) = ofQuotient (!s) n d := by
  have hword : f.magnitudeOf n d < 2 ^ (f.width - 1) :=
    Nat.lt_of_le_of_lt FloatFormat.magnitudeOf_le infinity_lt
  change neg _ = _
  rw [neg, ofQuotient, magnitude_ofParts hword, negative_ofParts hword, ofQuotient]

/-- A quotient that the format has a number for is rounded to that number. -/
theorem datum_ofQuotient {s : Bool} {m : Nat} {e : Int} (hm : 2 ^ f.fractionBits ≤ m)
    (hm' : m < 2 ^ (f.fractionBits + 1)) (he : f.least ≤ e) (hd : 0 < d)
    (h : (n / d : ℚ) = m * 2 ^ e)
    (hfinite : (e - f.least).toNat * 2 ^ f.fractionBits + m < f.infinity) :
    (ofQuotient s n d : Floating f).datum = .finite s m e := by
  rw [ofQuotient, FloatFormat.magnitudeOf_exact hm hm' he hd h, Nat.min_eq_right hfinite.le]
  exact datum_ofParts hm hm' he hfinite

/-- The number that a word is the word of. Zero has the positive word. -/
def StandsFor (x : Floating f) (q : ℚ) : Prop :=
  ∃ m e, x.datum = .finite (q < 0) m e ∧ m * 2 ^ e = |q|

theorem isFinite_of_datum {s : Bool} {m : Nat} {e : Int} (h : x.datum = .finite s m e) :
    x.isFinite = true := by
  have hlt : x.magnitude < f.infinity := by
    unfold datum at h
    dsimp only at h
    split at h
    · cases h
    · split at h
      · cases h
      · omega
  exact decide_eq_true hlt

theorem StandsFor.isFinite (h : x.StandsFor q) : x.isFinite = true := by
  obtain ⟨m, e, hx, -⟩ := h
  exact isFinite_of_datum hx

theorem ofQuotient_congr {s : Bool} {n' d' : Nat} (hd : 0 < d) (hd' : 0 < d')
    (h : (n / d : ℚ) = n' / d') : (ofQuotient s n d : Floating f) = ofQuotient s n' d' := by
  rw [ofQuotient, ofQuotient, FloatFormat.magnitudeOf_congr hd hd' h]

/-- The word nearest to the quotient of two numbers. -/
theorem StandsFor.div (hx : x.StandsFor p) (hy : y.StandsFor q) (hq : q ≠ 0) (hd : 0 < d)
    (h : (n / d : ℚ) = |p| / |q|) : x / y = ofQuotient (decide (p < 0) != decide (q < 0)) n d := by
  obtain ⟨m, e, hx, hm⟩ := hx
  obtain ⟨m', e', hy, hm'⟩ := hy
  have hm0 : m' ≠ 0 := by
    rintro rfl
    rw [Nat.cast_zero, zero_mul, eq_comm, abs_eq_zero] at hm'
    exact hq hm'
  have hratio : ((FloatFormat.scale m m' (e' - e)).1 / (FloatFormat.scale m m' (e' - e)).2 : ℚ) =
      n / d := by
    rw [FloatFormat.ratio_scale, h, ← hm, ← hm', neg_sub, zpow_sub₀ two_ne_zero]
    ring
  change Floating.div x y = _
  rw [Floating.div, hx, hy]
  simp only [hm0, if_false]
  exact ofQuotient_congr (FloatFormat.scale_pos (Nat.pos_of_ne_zero hm0)) hd hratio

/-- A significand with its sign, moved to a lower place. -/
def moved (negative : Bool) (m : Nat) (places : Int) : Int :=
  (if negative then -1 else 1) * (m * 2 ^ places.toNat)

theorem moved_mul_zpow {s : Bool} {m : Nat} {e e' : Int} (he : e' ≤ e) :
    (moved s m (e - e') : ℚ) * 2 ^ e' = (if s then -1 else 1) * (m * 2 ^ e) := by
  obtain ⟨k, hk⟩ := Int.eq_ofNat_of_zero_le (Int.sub_nonneg.2 he)
  have hpow : (2 : ℚ) ^ e = 2 ^ k * 2 ^ e' := by
    rw [← zpow_natCast, ← zpow_add₀ two_ne_zero]
    congr 1
    omega
  rw [moved, hk, hpow, Int.toNat_natCast]
  push_cast
  ring

theorem moved_mul {m : Nat} {e e' : Int} (he : e' ≤ e) (hm : m * 2 ^ e = |q|) :
    moved (q < 0) m (e - e') * 2 ^ e' = q := by
  rw [moved_mul_zpow he, hm]
  rcases lt_or_ge q 0 with hq | hq
  · simp [hq, abs_of_neg hq]
  · simp [hq.not_gt, abs_of_nonneg hq]

/-- The sign of a sum, which is that of both numbers if nothing is left of them. -/
theorem sign_of_sum {sum : Int} {r : ℚ} (hr : 0 < r) (h : sum * r = p + q) :
    (if sum = 0 then decide (p < 0) && decide (q < 0) else decide (sum < 0)) =
      decide (p + q < 0) := by
  have hneg : sum < 0 ↔ p + q < 0 := by
    rw [← h, ← not_le, ← not_le, mul_nonneg_iff_of_pos_right hr]
    exact_mod_cast Iff.rfl
  split
  · next h0 =>
    have hzero : p + q = 0 := by rw [← h, h0, Int.cast_zero, zero_mul]
    have hboth : ¬ (p < 0 ∧ q < 0) := fun hneg => by linarith [hneg.1, hneg.2]
    simp [hzero, ← Bool.decide_and, hboth]
  · simp only [hneg]

/-- The word nearest to the sum of two numbers. -/
theorem StandsFor.add (hx : x.StandsFor p) (hy : y.StandsFor q) (hd : 0 < d)
    (h : (n / d : ℚ) = |p + q|) : x + y = ofQuotient (p + q < 0) n d := by
  obtain ⟨m, e, hx, hm⟩ := hx
  obtain ⟨m', e', hy, hm'⟩ := hy
  set k := min e e'
  set sum := moved (p < 0) m (e - k) + moved (q < 0) m' (e' - k)
  have hadd : x + y = ofDyadic (if sum = 0 then decide (p < 0) && decide (q < 0) else sum < 0)
      sum.natAbs k := by
    change Floating.add x y = _
    rw [Floating.add, hx, hy]
    rfl
  have hpos : (0 : ℚ) < 2 ^ k := zpow_pos two_pos k
  have hsum : (sum : ℚ) * 2 ^ k = p + q := by
    rw [Int.cast_add, add_mul, moved_mul (min_le_left ..) hm, moved_mul (min_le_right ..) hm']
  have hratio : ((FloatFormat.scale sum.natAbs 1 (-k)).1 /
      (FloatFormat.scale sum.natAbs 1 (-k)).2 : ℚ) = n / d := by
    rw [FloatFormat.ratio_scale, h, ← hsum, abs_mul, abs_of_pos hpos, neg_neg, Nat.cast_one,
      div_one, Nat.cast_natAbs, Int.cast_abs]
  rw [hadd, sign_of_sum hpos hsum, ofDyadic]
  exact ofQuotient_congr (FloatFormat.scale_pos Nat.one_pos) hd hratio

end Floating

end PortalNet
