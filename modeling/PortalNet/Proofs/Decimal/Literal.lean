import PortalNet.Json.Printer
import PortalNet.Proofs.Json.Number

/-! # Decimals as literals

However a decimal is laid out, its text is a literal that stands for the decimal.
-/

namespace PortalNet

namespace Literal

variable {n : Nat} {ds : List Char}

theorem digitValue_lt {c : Char} (h : c.isDigit = true) : digitValue c < 10 := by
  simp only [Char.isDigit, Bool.and_eq_true, decide_eq_true_eq] at h
  have hle : c.toNat ≤ '9'.toNat := h.2
  change c.toNat - '0'.toNat < 10
  change c.toNat ≤ 57 at hle
  change c.toNat - 48 < 10
  omega

theorem natFrom_lt (h : ∀ c ∈ ds, c.isDigit = true) :
    natFrom n ds < (n + 1) * 10 ^ ds.length := by
  induction ds generalizing n with
  | nil => exact (Nat.lt_succ_self n).trans_eq (Nat.mul_one _).symm
  | cons d ds ih =>
    rw [List.forall_mem_cons] at h
    have hd := digitValue_lt h.1
    calc natFrom n (d :: ds) < (10 * n + digitValue d + 1) * 10 ^ ds.length := ih h.2
      _ ≤ (n + 1) * 10 * 10 ^ ds.length := Nat.mul_le_mul_right _ (by omega)
      _ = (n + 1) * 10 ^ (d :: ds).length := by rw [List.length_cons]; ring

theorem natOf_lt (h : ∀ c ∈ ds, c.isDigit = true) (hlength : ds.length ≤ 16) :
    natOf ds < 2 ^ 64 :=
  calc natOf ds < (0 + 1) * 10 ^ ds.length := natFrom_lt h
    _ ≤ 1 * 10 ^ 16 := Nat.mul_le_mul_left 1 (Nat.pow_le_pow_right (by decide) hlength)
    _ < 2 ^ 64 := by decide

theorem natFrom_digitChars : natFrom 0 (Layout.digitChars n) = n :=
  natOf_digitChars

theorem digits_append {ds es : List Char} (h : Digits ds) (h' : ∀ c ∈ es, c.isDigit = true) :
    Digits (ds ++ es) :=
  ⟨List.append_ne_nil_of_left_ne_nil h.1 _, List.forall_mem_append.2 ⟨h.2, h'⟩⟩

theorem isDigit_zeros (i : Nat) : ∀ c ∈ List.replicate i '0', c.isDigit = true := by
  intro c hc
  rw [List.eq_of_mem_replicate hc]
  rfl

end Literal

namespace Layout

open Literal

variable {n : Nat} {k : Int} {d : Decimal}

/-- The text of a literal, without its sign, that is read as a decimal. -/
def Spells (cs : List Char) (d : Decimal) : Prop :=
  ∃ l : Literal, l.Proper ∧ l.chars = (if d.negative then ['-'] else []) ++ cs ∧
    natOf l.whole < 2 ^ 64 ∧ l.value = d.digits * 10 ^ d.exponent

theorem eq_zero_of_head? (h : (digitChars n).head? = some '0') : n = 0 := by
  by_contra hne
  exact head?_digitChars (Nat.pos_of_ne_zero hne) h

/-- Digits with a point between them. -/
theorem spells_point {whole fraction : List Char} (hwhole : Digits whole)
    (hfraction : Digits fraction) (hleading : whole.head? = some '0' → whole.length = 1)
    (hlength : whole.length ≤ 16)
    (hvalue : (natFrom 0 (whole ++ fraction) : ℚ) =
      d.digits * 10 ^ (d.exponent + fraction.length)) :
    Spells (whole ++ '.' :: fraction) d := by
  refine ⟨⟨d.negative, whole, some fraction, none⟩, ⟨hwhole, hleading, ?_, ?_⟩, ?_, ?_, ?_⟩
  · rintro _ ⟨⟩
    exact hfraction
  · rintro _ ⟨⟩
  · simp [chars, fractionChars, exponentChars]
  · exact natOf_lt hwhole.2 hlength
  · have hten : (10 : ℚ) ≠ 0 := by norm_num
    simp only [value, power, Option.getD_some, hvalue]
    rw [mul_assoc, ← zpow_add₀ hten]
    congr 2
    omega

/-- A whole number with a zero behind the point. -/
theorem spells_whole (hd : 0 < d.digits ∨ d.exponent = 0) (hk : 0 ≤ d.exponent)
    (hlength : (digitChars d.digits).length + d.exponent ≤ 16) :
    Spells (digitChars d.digits ++ zeros d.exponent ++ ['.', '0']) d := by
  obtain ⟨i, hi⟩ := Int.eq_ofNat_of_zero_le hk
  rw [zeros, hi, Int.toNat_natCast]
  rw [hi] at hlength hd
  refine spells_point (digits_append digits_digitChars (isDigit_zeros i)) digits_zero ?_ ?_ ?_
  · intro hzero
    rw [List.head?_append_of_ne_nil _ digits_digitChars.1] at hzero
    have hzero := eq_zero_of_head? hzero
    have hi0 : i = 0 := by omega
    rw [hzero, hi0]
    rfl
  · rw [List.length_append, List.length_replicate]
    omega
  · rw [natFrom_append, natFrom_append, natFrom_digitChars, natFrom_zeros, hi]
    have hlast : natFrom (d.digits * 10 ^ i) ['0'] = d.digits * 10 ^ (i + 1) := by
      change 10 * (d.digits * 10 ^ i) + 0 = _
      ring
    rw [hlast]
    push_cast
    exact_mod_cast rfl

/-- A point between the digits. -/
theorem spells_within (hk : d.exponent < 0) (hpoint : 0 < (digitChars d.digits).length + d.exponent)
    (hlength : (digitChars d.digits).length + d.exponent ≤ 16) :
    Spells ((digitChars d.digits).take ((digitChars d.digits).length + d.exponent).toNat ++
      '.' :: (digitChars d.digits).drop ((digitChars d.digits).length + d.exponent).toNat) d := by
  obtain ⟨i, hi⟩ := Int.eq_ofNat_of_zero_le hpoint.le
  rw [hi, Int.toNat_natCast]
  have hsplit : i < (digitChars d.digits).length := by omega
  have htake : ((digitChars d.digits).take i).length = i := by
    rw [List.length_take]
    omega
  refine spells_point ⟨?_, fun c hc => digits_digitChars.2 c (List.mem_of_mem_take hc)⟩
    ⟨?_, fun c hc => digits_digitChars.2 c (List.mem_of_mem_drop hc)⟩ ?_ ?_ ?_
  · exact List.ne_nil_of_length_pos (by omega)
  · exact List.ne_nil_of_length_pos (by rw [List.length_drop]; omega)
  · intro hzero
    rw [List.head?_take, if_neg (by omega)] at hzero
    rw [eq_zero_of_head? hzero] at hsplit
    change i < 1 at hsplit
    omega
  · omega
  · rw [List.take_append_drop, natFrom_digitChars, List.length_drop]
    have hexp : d.exponent + ((digitChars d.digits).length - i : Nat) = 0 := by omega
    rw [hexp, zpow_zero, mul_one]

/-- Zeros between the point and the digits. -/
theorem spells_behind (hpoint : (digitChars d.digits).length + d.exponent ≤ 0) :
    Spells ('0' :: '.' :: zeros (-((digitChars d.digits).length + d.exponent)) ++
      digitChars d.digits) d := by
  obtain ⟨i, hi⟩ := Int.eq_ofNat_of_zero_le (Int.neg_nonneg.2 hpoint)
  rw [hi, zeros, Int.toNat_natCast]
  change Spells (['0'] ++ '.' :: (List.replicate i '0' ++ digitChars d.digits)) d
  refine spells_point digits_zero ⟨?_, ?_⟩ (fun _ => rfl) (by decide) ?_
  · exact List.append_ne_nil_of_right_ne_nil _ digits_digitChars.1
  · exact List.forall_mem_append.2 ⟨isDigit_zeros i, digits_digitChars.2⟩
  · have hzero : natFrom 0 ['0'] = 0 := rfl
    have hexp : d.exponent + ((i + (digitChars d.digits).length : Nat) : Int) = 0 := by omega
    rw [natFrom_append, natFrom_append, hzero, natFrom_zeros, Nat.zero_mul, natFrom_digitChars,
      List.length_append, List.length_replicate, hexp, zpow_zero, mul_one]

/-- One digit before the point and an exponent. -/
theorem spells_scientific : Spells (scientific (digitChars d.digits)
    ((digitChars d.digits).length + d.exponent - 1)) d := by
  obtain ⟨c, rest, hdigits⟩ : ∃ c rest, digitChars d.digits = c :: rest :=
    List.exists_cons_of_ne_nil digits_digitChars.1
  have hall : c.isDigit = true ∧ ∀ e ∈ rest, e.isDigit = true :=
    List.forall_mem_cons.1 (hdigits ▸ digits_digitChars.2)
  set p : Int := (digitChars d.digits).length + d.exponent - 1 with hp
  refine ⟨⟨d.negative, [c], if rest = [] then none else some rest,
    some (p < 0, digitChars p.natAbs)⟩, ⟨?_, fun _ => rfl, ?_, ?_⟩, ?_, ?_, ?_⟩
  · exact ⟨List.cons_ne_nil c [], List.forall_mem_singleton.2 hall.1⟩
  · intro ds hds
    split at hds
    · cases hds
    · cases hds
      exact ⟨‹_›, hall.2⟩
  · rintro _ ⟨⟩
    exact digits_digitChars
  · rw [hdigits]
    cases rest <;> simp [chars, fractionChars, exponentChars, scientific]
  · exact natOf_lt (List.forall_mem_singleton.2 hall.1) (show 1 ≤ 16 by decide)
  · have hfraction : (if rest = [] then none else some rest).getD [] = rest := by
      split
      · exact Eq.symm ‹_›
      · rfl
    have hpower : (if decide (p < 0) then -(natOf (digitChars p.natAbs) : Int)
        else natOf (digitChars p.natAbs)) = p := by
      rw [natOf_digitChars]
      split
      · next h => exact (Int.eq_neg_natAbs_of_nonpos (of_decide_eq_true h).le).symm
      · next h => exact Int.natAbs_of_nonneg (not_lt.1 fun hp => h (decide_eq_true hp))
    have hexp : p - rest.length = d.exponent := by
      rw [hp, hdigits, List.length_cons]
      omega
    simp only [value, power, hfraction]
    rw [hpower, hexp, List.singleton_append, ← hdigits, natFrom_digitChars]

/-- The text of a decimal is a literal that stands for it. -/
theorem spells_decimal (hd : 0 < d.digits ∨ d.exponent = 0) :
    ∃ l : Literal, l.Proper ∧ l.chars = Layout.json.decimal d ∧ natOf l.whole < 2 ^ 64 ∧
      l.value = d.digits * 10 ^ d.exponent := by
  suffices Spells (if Layout.json.isPositional ((digitChars d.digits).length + d.exponent - 1) then
      Layout.json.positional (digitChars d.digits) d.exponent
    else scientific (digitChars d.digits) ((digitChars d.digits).length + d.exponent - 1)) d from
    this
  split
  · next hpositional =>
    simp only [isPositional, Layout.json, Option.all_some, Bool.and_eq_true,
      decide_eq_true_eq] at hpositional
    rw [positional]
    split
    · exact spells_whole hd ‹_› (by omega)
    · split
      · exact spells_within (by omega) ‹_› (by omega)
      · exact spells_behind (by omega)
  · exact spells_scientific

end Layout

end PortalNet
