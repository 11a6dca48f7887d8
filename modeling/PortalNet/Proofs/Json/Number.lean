import PortalNet.Proofs.Floating.Order
import PortalNet.Proofs.Json.Literal

/-! # Numbers of literals

Digits are multiplied by a power of ten that is rounded itself, so the product may be too large for
a number although the literal is not. There is no such literal below the two greatest numbers of the
format. What a literal stands for is finite in any case.
-/

namespace PortalNet

namespace Literal

open Floating

variable {n k : Nat} {e : Int} {x : Double}

theorem magnitude_ofNat_le {m n : Nat} (h : m ≤ n) :
    ((m : Int) : Double).magnitude ≤ ((n : Int) : Double).magnitude :=
  magnitude_ofInt_le h

theorem isFinite_powerOfTen (h : k ≤ 308) : (powerOfTen k).isFinite = true :=
  isFinite_of_le (magnitude_ofNat_le (Nat.pow_le_pow_right (by decide) h)) (by decide +kernel)

theorem isFinite_ofInt {i : Int} (h : i.natAbs < 2 ^ 64) : (i : Double).isFinite = true := by
  have hle : i.natAbs ≤ ((10 ^ 20 : Nat) : Int).natAbs := h.le.trans (by decide)
  exact isFinite_of_le (magnitude_ofInt_le hle) (isFinite_powerOfTen (by decide))

theorem isFinite_ofNat (h : n < 2 ^ 64) : ((n : Int) : Double).isFinite = true :=
  isFinite_ofInt h

theorem one_le_powerOfTen (k : Nat) : 1 ≤ FloatFormat.double.valueOf (powerOfTen k).magnitude := by
  have hone : FloatFormat.double.valueOf ((1 : Int) : Double).magnitude = 1 := by
    obtain ⟨m, e, hdatum, hvalue⟩ :=
      exists_datum (show ((1 : Int) : Double).isFinite = true by decide)
    have hdecide : ((1 : Int) : Double).datum = .finite false (2 ^ 52) (-52) := by decide
    obtain ⟨-, rfl, rfl⟩ := Datum.finite.inj (hdatum.symm.trans hdecide)
    rw [← hvalue]
    norm_num
  rw [← hone]
  exact FloatFormat.valueOf_mono (magnitude_ofNat_le (Nat.one_le_pow' k 9))

/-- A quotient by a power of ten is not too large. -/
theorem isFinite_div_powerOfTen (hk : k ≤ 308) (hx : x.isFinite = true) :
    (x / powerOfTen k).isFinite = true := by
  have hone := one_le_powerOfTen k
  have hpos : 0 < FloatFormat.double.infinity := by decide
  have hlt : x.magnitude < FloatFormat.double.infinity := of_decide_eq_true hx
  have hle : (x / powerOfTen k).magnitude ≤ FloatFormat.double.infinity - 1 := by
    rw [magnitude_div hx (isFinite_powerOfTen hk) (zero_lt_one.trans_le hone).ne',
      ← FloatFormat.nearest_valueOf (m := FloatFormat.double.infinity - 1) (Nat.sub_le ..)]
    refine FloatFormat.nearest_le_nearest
      (div_nonneg FloatFormat.valueOf_nonneg FloatFormat.valueOf_nonneg) ?_
    exact (div_le_self FloatFormat.valueOf_nonneg hone).trans
      (FloatFormat.valueOf_mono (Nat.le_sub_one_of_lt hlt))
  exact decide_eq_true (by omega)

theorem isFinite_shrink {i : Nat} (hx : x.isFinite = true) : (shrink i x k).isFinite = true := by
  induction i generalizing x k with
  | zero => exact hx
  | succ i ih =>
    rw [shrink]
    split
    · next hk => exact isFinite_div_powerOfTen hk hx
    · split
      · exact hx
      · exact ih (isFinite_div_powerOfTen le_rfl hx)

theorem isFinite_of_assemble? (hn : n < 2 ^ 64) (h : assemble? n e = some x) :
    x.isFinite = true := by
  simp only [assemble?] at h
  split at h
  · cases h
    exact isFinite_shrink (isFinite_ofNat hn)
  · split at h
    · split at h
      · cases h
        assumption
      · cases h
    · split at h
      · cases h
        exact isFinite_ofNat hn
      · cases h

/-- One and a half units below the power of two that is too large for a number. -/
def most : Nat :=
  (2 ^ 54 - 3) * 2 ^ 970

/-- The most digits of 64 bits that may stand before a power of ten. -/
def mostDigits (k : Nat) : Nat :=
  min (2 ^ 64 - 1) (most / 10 ^ k)

theorem le_mostDigits (hn : n < 2 ^ 64) (h : n * 10 ^ k ≤ most) : n ≤ mostDigits k :=
  le_min (Nat.le_sub_one_of_lt hn) ((Nat.le_div_iff_mul_le (Nat.pow_pos (by decide))).2 h)

theorem mul_pow_le_most (hn : n < 2 ^ 64) (hk : k ≤ 288) : n * 10 ^ k ≤ most :=
  (Nat.mul_le_mul hn.le (Nat.pow_le_pow_right (by decide) hk)).trans (by decide +kernel)

theorem most_lt_pow (hk : 308 < k) : most < 10 ^ k :=
  Nat.lt_of_lt_of_le (by decide +kernel) (Nat.pow_le_pow_right (by decide) hk)

theorem isFinite_mostDigits :
    ∀ i ≤ 20, (((mostDigits (288 + i) : Nat) : Int) * powerOfTen (288 + i) : Double).isFinite := by
  decide +kernel

/-- Below the power from which on all digits are too many, each number of 64 bits may stand. -/
theorem isFinite_mul (hn : n < 2 ^ 64) (hk : k ≤ 308) (h : n * 10 ^ k ≤ most) :
    (((n : Int) : Double) * powerOfTen k).isFinite = true := by
  obtain ⟨i, hi, hki, hle⟩ : ∃ i ≤ 20, k ≤ 288 + i ∧ n * 10 ^ (288 + i) ≤ most := by
    refine ⟨k - 288, by omega, by omega, ?_⟩
    rcases Nat.le_total k 288 with hlow | hhigh
    · exact mul_pow_le_most hn (by omega)
    · rwa [Nat.add_sub_of_le hhigh]
  have hlt : mostDigits (288 + i) < 2 ^ 64 := Nat.lt_of_le_of_lt (Nat.min_le_left ..) (by decide)
  refine isFinite_of_le ?_ (isFinite_mostDigits i hi)
  exact magnitude_mul_le (isFinite_ofNat hn) (isFinite_powerOfTen hk) (isFinite_ofNat hlt)
    (isFinite_powerOfTen (by omega)) (magnitude_ofNat_le (le_mostDigits hn hle))
    (magnitude_ofNat_le (Nat.pow_le_pow_right (by decide) hki))

theorem assemble?_isSome (hn : n < 2 ^ 64) (h : (n : ℚ) * 10 ^ e ≤ most) :
    (assemble? n e).isSome := by
  rcases lt_or_ge e 0 with he | he
  · simp [assemble?, he]
  obtain ⟨k, rfl⟩ := Int.eq_ofNat_of_zero_le he
  have hle : n * 10 ^ k ≤ most := by exact_mod_cast h
  rcases Nat.lt_or_ge 308 k with hk | hk
  · have hzero : n = 0 := by
      by_contra hne
      have hten : most < 10 ^ k := most_lt_pow hk
      exact absurd (Nat.le_mul_of_pos_left (10 ^ k) (Nat.pos_of_ne_zero hne)) (by omega)
    have hk' : ¬ (k : Int) ≤ 308 := by omega
    simp [assemble?, he.not_gt, hk', hzero]
  · have hk' : (k : Int) ≤ 308 := by omega
    simp [assemble?, he.not_gt, hk', isFinite_mul hn hk hle]

/-- The power of ten that is written. -/
def power (l : Literal) : Int :=
  match l.exponent with
  | none => 0
  | some (negative, ds) => if negative then -natOf ds else natOf ds

/-- The number that is written, without its sign. -/
def value (l : Literal) : ℚ :=
  natFrom 0 (l.whole ++ l.fraction.getD []) * 10 ^ (l.power - (l.fraction.getD []).length)

variable {l : Literal}

/-- A number that is not too large is read, if the digits before the point fit into 64 bits. -/
theorem value?_isSome (hwhole : natOf l.whole < 2 ^ 64) (h : l.value ≤ most) :
    l.value?.isSome := by
  have hfit : fit 0 l.whole = (natOf l.whole, 0) := fit_eq hwhole
  obtain ⟨hlt, hlength, hle⟩ := fit_le (l.fraction.getD []) hwhole
  have hvalue : ((fit (natOf l.whole) (l.fraction.getD [])).1 : ℚ) *
      10 ^ (l.power + (0 : Nat) -
        ((l.fraction.getD []).length - (fit (natOf l.whole) (l.fraction.getD [])).2 : Int)) ≤
      most := by
    refine le_trans ?_ h
    rw [value, natFrom_append]
    generalize l.fraction.getD [] = ds at *
    generalize fit (natOf l.whole) ds = r at *
    calc (r.1 : ℚ) * 10 ^ (l.power + (0 : Nat) - (ds.length - r.2 : Int))
        = ((r.1 * 10 ^ r.2 : Nat) : ℚ) * 10 ^ (l.power - ds.length) := by
          have hsum : l.power + (0 : Nat) - (ds.length - r.2 : Int) =
              r.2 + (l.power - ds.length) := by
            omega
          rw [hsum, zpow_add₀ (by norm_num)]
          push_cast
          rw [zpow_natCast, mul_assoc]
      _ ≤ natFrom (natOf l.whole) ds * 10 ^ (l.power - ds.length) :=
          mul_le_mul_of_nonneg_right (Nat.cast_le.2 hle) (zpow_nonneg (by norm_num) _)
  obtain ⟨x, hx⟩ := Option.isSome_iff_exists.1 (assemble?_isSome hlt hvalue)
  rw [value?, hfit]
  dsimp only
  split
  · rfl
  · exact congrArg (fun y => Option.isSome (Option.bind y _)) hx

/-- What a literal stands for is finite. -/
theorem isFinite_of_value? {x : JsonNumber} (h : l.value? = some x) :
    x.toDouble.isFinite = true := by
  obtain ⟨hwhole, -⟩ := fit_le l.whole (show 0 < 2 ^ 64 by decide)
  obtain ⟨hlt, -⟩ := fit_le (l.fraction.getD []) hwhole
  simp only [value?] at h
  split at h
  · cases h
    refine isFinite_ofInt ?_
    split <;> omega
  · obtain ⟨y, hy, h⟩ := Option.bind_eq_some_iff.1 h
    cases h
    have hfinite := isFinite_of_assemble? hlt hy
    change Floating.isFinite (if l.negative then -y else y) = true
    split
    · exact isFinite_neg hfinite
    · exact hfinite

end Literal

end PortalNet
