import PortalNet.Proofs.Decimal.Literal
import PortalNet.Proofs.Decimal.Shortest

/-! # Finite numbers can be read

The text of a finite number is the literal of a number, which need not be the same one. A word that
is not finite has no such text.
-/

namespace PortalNet

namespace Floating

variable {x : Double} {s : Bool} {m : Nat} {e : Int}

theorem datum_bounds (h : x.datum = .finite s m e) : m < 2 ^ 53 ∧ e ≤ 971 := by
  have hinfinity : FloatFormat.double.infinity = 2047 * 2 ^ 52 := by decide
  have hleast : FloatFormat.double.least = -1074 := by decide
  have hbits : FloatFormat.double.fractionBits = 52 := rfl
  simp only [datum, hinfinity, hleast, hbits] at h
  split at h
  · cases h
  · split at h
    · cases h
    · split at h
      · cases h
        omega
      · cases h
        omega

end Floating

namespace Literal

open Layout Floating

variable {x : Double} {s : Bool} {m : Nat} {e : Int}

theorem cast_most : (most : ℚ) = (2 ^ 54 - 3) * 2 ^ (970 : Int) := by
  have hfactor : ((2 ^ 54 - 3 : Nat) : ℚ) = 2 ^ 54 - 3 := by norm_num
  have hcast (n k : Nat) : ((n * 2 ^ k : Nat) : ℚ) = n * 2 ^ (k : Int) := by
    rw [Nat.cast_mul, zpow_natCast, Nat.cast_pow]
    rfl
  have hmost := hcast (2 ^ 54 - 3) 970
  rwa [← most, hfactor] at hmost

/-- Half a unit above a number other than the greatest one. -/
theorem half_unit_le_most (hm : m < 2 ^ 53) (he : e ≤ 971) (h : m ≠ 2 ^ 53 - 1 ∨ e ≠ 971) :
    ((m : ℚ) + 1 / 2) * 2 ^ e ≤ most := by
  rw [cast_most]
  rcases eq_or_lt_of_le he with rfl | he
  · have hle : (m : ℚ) ≤ 2 ^ 53 - 2 := by
      have hm' : m + 2 ≤ 2 ^ 53 := by omega
      have hcast : (m : ℚ) + 2 ≤ 2 ^ 53 := by exact_mod_cast hm'
      linarith
    rw [show (971 : Int) = 1 + 970 by rfl, zpow_add₀ two_ne_zero, zpow_one, ← mul_assoc]
    exact mul_le_mul_of_nonneg_right (by linarith) (zpow_nonneg two_pos.le _)
  · have hle : (m : ℚ) + 1 / 2 ≤ 2 ^ 54 - 3 := by
      have hcast : (m : ℚ) ≤ 2 ^ 53 := by exact_mod_cast hm.le
      linarith
    exact mul_le_mul hle (zpow_le_zpow_right₀ one_le_two (by omega)) (zpow_nonneg two_pos.le _)
      (by norm_num)

/-- The greatest number is read too. -/
theorem readable_greatest :
    ∀ s, ((ofChars? (Layout.json.decimal (.shortest .toEven s (2 ^ 53 - 1) 971))).bind
      value?).isSome := by
  decide +kernel

theorem readable_decimal {d : Decimal} (hd : 0 < d.digits ∨ d.exponent = 0)
    (h : (d.digits * 10 ^ d.exponent : ℚ) ≤ most) :
    ((ofChars? (Layout.json.decimal d)).bind value?).isSome := by
  obtain ⟨l, hproper, hchars, hwhole, hvalue⟩ := spells_decimal hd
  rw [← hchars, ofChars?_chars hproper]
  exact value?_isSome hwhole (hvalue ▸ h)

theorem readable_shortest (hm : m < 2 ^ 53) (he : e ≤ 971) :
    ((ofChars? (Layout.json.decimal (.shortest .toEven s m e))).bind value?).isSome := by
  by_cases hgreatest : m = 2 ^ 53 - 1 ∧ e = 971
  · rw [hgreatest.1, hgreatest.2]
    exact readable_greatest s
  have hhalf := half_unit_le_most hm he (not_and_or.1 hgreatest)
  rcases Nat.eq_zero_or_pos m with rfl | hpos
  · have hzero : Decimal.shortest .toEven s 0 e = ⟨s, 0, 0⟩ := rfl
    rw [hzero]
    refine readable_decimal (.inr rfl) ?_
    rw [Nat.cast_zero, zero_mul]
    exact Nat.cast_nonneg most
  · simp only [Decimal.shortest, hpos.ne', if_false]
    split
    · next c k hsearch =>
      obtain ⟨hc, hle⟩ := Shortest.search_bounds hpos hsearch
      exact readable_decimal (.inl hc) (hle.trans hhalf)
    · refine readable_decimal (.inr rfl) ?_
      rw [zpow_zero, mul_one]
      rcases le_or_gt 0 e with he | he
      · obtain ⟨k, rfl⟩ := Int.eq_ofNat_of_zero_le he
        refine le_trans ?_ hhalf
        rw [Int.toNat_natCast, zpow_natCast]
        push_cast
        exact mul_le_mul_of_nonneg_right (by norm_num) (by positivity)
      · have hmost : 2 ^ 53 * 10 ^ 0 ≤ most := mul_pow_le_most (by decide) (Nat.zero_le _)
        rw [Int.toNat_of_nonpos he.le, Nat.pow_zero, Nat.mul_one]
        exact Nat.cast_le.2 (hm.le.trans hmost)

/-- The text of a finite number is read as a finite number. -/
theorem readable_number (h : x.isFinite = true) :
    ∃ y, (ofChars? (Layout.json.number x)).bind value? = some y ∧ y.toDouble.isFinite = true := by
  obtain ⟨m, e, hdatum, -⟩ := exists_datum h
  obtain ⟨hm, he⟩ := datum_bounds hdatum
  have hnumber : Layout.json.number x = Layout.json.decimal (.shortest .toEven x.negative m e) := by
    rw [Layout.number, hdatum]
    rfl
  obtain ⟨y, hy⟩ := Option.isSome_iff_exists.1 (readable_shortest (s := x.negative) hm he)
  obtain ⟨l, -, hvalue⟩ := Option.bind_eq_some_iff.1 hy
  exact ⟨y, hnumber ▸ hy, isFinite_of_value? hvalue⟩

theorem number_of_not_isFinite (h : x.isFinite = false) :
    Layout.json.number x = "null".toList := by
  have hle : FloatFormat.double.infinity ≤ x.magnitude := not_lt.1 (of_decide_eq_false h)
  rw [Layout.number, datum]
  rcases eq_or_lt_of_le hle with heq | hlt
  · rw [if_neg (by omega), if_pos heq.symm]
    rfl
  · rw [if_pos hlt]
    rfl

end Literal

end PortalNet
