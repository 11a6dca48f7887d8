import PortalNet.Json.Printer
import PortalNet.Proofs.Decimal.Shortest
import PortalNet.Proofs.Floating.Halves
import PortalNet.Proofs.Json.Literal
import PortalNet.Proofs.Json.RoundTrip

/-! # Halves as text

A number of halves is written with one digit behind the point, and what is written stands for it
exactly.
-/

namespace PortalNet

namespace Shortest

variable {i : Interval} {tie : Tie} {unit step c : Nat}

/-- A number on the grid is a hit. -/
theorem holds_exact (hm : 0 < i.m) (hunit : 0 < unit) (h : c * step = i.m * unit) :
    i.holds unit step c = true := by
  have hx : 4 * c * step = 4 * i.m * unit := by rw [Nat.mul_assoc, h, Nat.mul_assoc]
  have hlow : (4 * i.m - if i.atPower then 1 else 2) * unit < 4 * i.m * unit := by
    apply Nat.mul_lt_mul_of_pos_right _ hunit
    split <;> omega
  have hhigh : 4 * i.m * unit < (4 * i.m + 2) * unit :=
    Nat.mul_lt_mul_of_pos_right (by omega) hunit
  simp only [Interval.holds, hx]
  split
  · simp [hlow.le, hhigh.le]
  · simp [hlow, hhigh]

theorem onGrid_exact (hm : 0 < i.m) (hunit : 0 < unit) (hstep : 0 < step)
    (h : c * step = i.m * unit) : (i.onGrid tie unit step).isSome := by
  have hc : i.m * unit / step = c := by rw [← h, Nat.mul_div_cancel _ hstep]
  simp only [Interval.onGrid, hc, holds_exact hm hunit h]
  split <;> simp_all

/-- Two multiples of four times a number that is large enough are equal if they are near. -/
theorem eq_of_near {a b p r : Nat} (hp : r < 4 * p) (h : p * (4 * a) ≤ p * (4 * b) + r)
    (h' : p * (4 * b) ≤ p * (4 * a) + r) : a = b := by
  have apart : ∀ {a b : Nat}, p * (4 * b) ≤ p * (4 * a) + r → b ≤ a := by
    intro a b h
    by_contra hlt
    have hmul : p * (4 * a + 4) ≤ p * (4 * b) := Nat.mul_le_mul_left p (by omega)
    rw [Nat.mul_add] at hmul
    omega
  exact Nat.le_antisymm (apart h) (apart h')

/-- Digits and exponent of `m / 2`. -/
def Halved (m c : Nat) (k : Int) : Prop :=
  (0 ≤ k ∧ m = 2 * c * 10 ^ k.toNat) ∨ (k = -1 ∧ c = 5 * m)

variable {m p places : Nat} {k top : Int} {atPower : Bool}

/-- On a grid of tenths or a coarser one only the number itself reads back. -/
theorem halved_of_onGrid (hk : -1 ≤ k) (hp : 4 ≤ p)
    (h : Interval.onGrid ⟨m * p, atPower⟩ tie (10 ^ (-k).toNat) (2 * p * 10 ^ k.toNat) = some c) :
    Halved m c k := by
  obtain ⟨hlow, hhigh⟩ := near_of_holds (holds_of_onGrid h)
  rcases eq_or_lt_of_le hk with rfl | hk
  · have hunit : 10 ^ (-(-1 : Int)).toNat = 10 := rfl
    have hstep : 2 * p * 10 ^ (-1 : Int).toNat = 2 * p := Nat.mul_one _
    rw [hunit, hstep] at hlow hhigh
    exact .inr ⟨rfl, eq_of_near (p := p) (r := 10) (by omega) (by linarith) (by linarith)⟩
  · have hunit : 10 ^ (-k).toNat = 1 := by
      rw [show (-k).toNat = 0 by omega, Nat.pow_zero]
    rw [hunit] at hlow hhigh
    exact .inl ⟨by omega, eq_of_near (p := p) (r := 2) (by omega) (by linarith) (by linarith)⟩

theorem Halved.carry (h : Halved m 10 k) : Halved m 1 (k + 1) := by
  rcases h with ⟨hk, hm⟩ | ⟨rfl, hm⟩
  · refine .inl ⟨by omega, ?_⟩
    rw [Int.toNat_add hk Int.one_nonneg, hm]
    change 2 * 10 * 10 ^ k.toNat = 2 * 1 * 10 ^ (k.toNat + 1)
    ring
  · exact .inl ⟨by decide, by simp; omega⟩

theorem halved_of_hit (htop : -1 ≤ top - places) (hp : 4 ≤ p)
    (h : Interval.hit ⟨m * p, atPower⟩ tie 1 (2 * p) top places = some (c, k)) :
    Halved m c k := by
  obtain ⟨c', hc', heq⟩ := Option.map_eq_some_iff.1 h
  rw [Nat.one_mul] at hc'
  have hhalved := halved_of_onGrid htop hp hc'
  split at heq
  · next hten =>
    cases heq
    rw [hten] at hhalved
    exact hhalved.carry
  · cases heq
    exact hhalved

/-- On the grid of tenths there is a hit. -/
theorem hit_tenths (htop : top - places = -1) (hm : 0 < m) (hp : 0 < p) :
    (Interval.hit ⟨m * p, atPower⟩ tie 1 (2 * p) top places).isSome := by
  rw [Interval.hit, Option.isSome_map, htop]
  refine onGrid_exact (c := 5 * m) (Nat.mul_pos hm hp) (by decide) (by simpa using hp) ?_
  change 5 * m * (2 * p * 1) = m * p * (1 * 10)
  ring

/-- The search starts at tenths or before and gets to them. -/
theorem leading_bounds {n d : Nat} (hlow : d.log2 ≤ n.log2 + 1) (hhigh : n.log2 ≤ d.log2 + 33) :
    -1 ≤ leading n d ∧ leading n d ≤ 12 := by
  simp only [leading]
  split
  · omega
  · split <;> omega

theorem exists_first {α : Type} {f : Nat → Option α} {t n : Nat} (ht : t < n)
    (h : (f t).isSome) : ∃ i ≤ t, ∃ a, f i = some a ∧ (List.range n).findSome? f = some a := by
  obtain ⟨l, rfl⟩ := Nat.exists_eq_add_of_lt ht
  have hsome : ((List.range (t + 1)).findSome? f).isSome :=
    List.findSome?_isSome_iff.2 ⟨t, List.self_mem_range_succ, h⟩
  obtain ⟨a, ha⟩ := Option.isSome_iff_exists.1 hsome
  obtain ⟨i, hi, hfi⟩ := List.exists_of_findSome?_eq_some ha
  refine ⟨i, Nat.lt_succ_iff.1 (List.mem_range.1 hi), a, hfi, ?_⟩
  rw [Nat.add_right_comm, List.range_add, List.findSome?_append, ha, Option.some_or]

open Floating in
theorem search_halves (tie : Tie) (atPower : Bool) (hm : 0 < m) (hm' : m < 2 ^ 34) :
    ∃ c k, search ⟨spread m, atPower⟩ tie (m.log2 - 53) 17 = some (c, k) ∧ Halved m c k := by
  have hlog : m.log2 < 34 := (Nat.log2_lt hm.ne').2 hm'
  have hspread : (spread m).log2 = 52 := log2_spread hm.ne' (hm'.trans (by decide))
  set p := 2 ^ (52 - m.log2) with hp
  have hp4 : 4 ≤ p := by
    calc 4 = 2 ^ 2 := rfl
      _ ≤ p := Nat.pow_le_pow_right Nat.two_pos (by omega)
  have hunit : 2 ^ ((m.log2 : Int) - 53).toNat = 1 := by
    rw [show ((m.log2 : Int) - 53).toNat = 0 by omega, Nat.pow_zero]
  have hpow : (-((m.log2 : Int) - 53)).toNat = 53 - m.log2 := by omega
  have hstep : 2 ^ (-((m.log2 : Int) - 53)).toNat = 2 * p := by
    rw [hpow, show 53 - m.log2 = 52 - m.log2 + 1 by omega, Nat.pow_succ, Nat.mul_comm]
  have hsteplog : (2 * p).log2 = 53 - m.log2 := by rw [← hstep, hpow, Nat.log2_two_pow]
  obtain ⟨hlow, hhigh⟩ := leading_bounds (n := spread m) (d := 2 * p) (by omega) (by omega)
  obtain ⟨t, ht⟩ := Int.eq_ofNat_of_zero_le (show 0 ≤ leading (spread m) (2 * p) + 1 by omega)
  have htenths : (Interval.hit ⟨spread m, atPower⟩ tie 1 (2 * p) (leading (spread m) (2 * p))
      t).isSome :=
    hit_tenths (by omega) hm (by omega)
  obtain ⟨i, hi, ⟨c, k⟩, hhit, hfirst⟩ := exists_first (n := 17) (by omega) htenths
  refine ⟨c, k, ?_, halved_of_hit (by omega) hp4 hhit⟩
  rw [search_eq, hunit, hstep, Nat.mul_one]
  exact hfirst

end Shortest

namespace Layout

open Shortest

variable {m c n : Nat} {k : Int}

theorem digitChars_shift (h : 0 < n) (i : Nat) :
    digitChars (n * 10 ^ i) = digitChars n ++ List.replicate i '0' := by
  induction i with
  | zero => simp
  | succ i ih =>
    have hpos : 0 < n * 10 ^ i := Nat.mul_pos h (Nat.pow_pos (by decide))
    have hzero : Nat.toDigits 10 0 = ['0'] := rfl
    have hnext : n * 10 ^ (i + 1) = 10 * (n * 10 ^ i) + 0 := by
      rw [Nat.pow_succ]
      ring
    rw [digitChars, hnext, ← Nat.toDigits_append_toDigits (by decide) hpos (by decide), hzero,
      ← digitChars, ih, List.append_assoc, ← List.replicate_succ']

/-- The text of `m / 2`. -/
def halfChars (m : Nat) : List Char :=
  digitChars (m / 2) ++ ['.', (5 * (m % 2)).digitChar]

theorem digits_of_whole (hm : 0 < m) (hm' : m = 2 * c * 10 ^ k.toNat) :
    digitChars (m / 2) = digitChars c ++ zeros k := by
  have hc : 0 < c := by
    rcases Nat.eq_zero_or_pos c with rfl | hc
    · simp at hm'
      omega
    · exact hc
  rw [zeros, ← digitChars_shift hc, hm', Nat.mul_assoc, Nat.mul_div_cancel_left _ Nat.two_pos]

theorem digits_of_tenths (hm : 1 < m) :
    digitChars (5 * m) = digitChars (m / 2) ++ [(5 * (m % 2)).digitChar] := by
  have hdiv : 5 * m / 10 = m / 2 := by omega
  have hmod : 5 * m % 10 = 5 * (m % 2) := by omega
  rw [digitChars, Nat.toDigits_of_base_le (by decide) (by omega), hdiv, hmod, digitChars]

theorem positional_halved (hm : 0 < m) (h : Halved m c k) :
    Layout.json.positional (digitChars c) k = halfChars m := by
  rcases h with ⟨hk, hm'⟩ | ⟨rfl, rfl⟩
  · have heven : m % 2 = 0 := by rw [hm', Nat.mul_assoc, Nat.mul_mod_right]
    rw [halfChars, digits_of_whole hm hm', heven, positional, if_pos hk]
    rfl
  · rcases Nat.eq_or_lt_of_le hm with rfl | hm
    · rfl
    · have hpoint : ((digitChars (m / 2) ++ [(5 * (m % 2)).digitChar]).length : Int) + -1 =
          (digitChars (m / 2)).length := by
        rw [List.length_append, List.length_singleton]
        omega
      have hpos : (0 : Int) < (digitChars (m / 2)).length :=
        Int.natCast_pos.2 Nat.length_toDigits_pos
      rw [digits_of_tenths hm, positional]
      simp only [hpoint, hpos, if_true, Int.toNat_natCast, List.take_left', List.drop_left']
      rfl

/-- No exponent is needed. -/
theorem isPositional_halved (hm : 0 < m) (hm' : m < 2 ^ 34) (h : Halved m c k) :
    Layout.json.isPositional ((digitChars c).length + k - 1) = true := by
  have hpos : 0 < (digitChars c).length := Nat.length_toDigits_pos
  have hbounds : -5 ≤ (digitChars c).length + k - 1 ∧ (digitChars c).length + k - 1 ≤ 15 := by
    rcases h with ⟨hk, hc⟩ | ⟨rfl, rfl⟩
    · have hlength := congrArg List.length (digits_of_whole hm hc)
      have hle : (digitChars (m / 2)).length ≤ 11 :=
        (Nat.length_toDigits_le_iff (by decide) (by decide)).2 (by omega)
      rw [List.length_append, zeros, List.length_replicate] at hlength
      omega
    · have hle : (digitChars (5 * m)).length ≤ 11 :=
        (Nat.length_toDigits_le_iff (by decide) (by decide)).2 (by omega)
      omega
  simp only [isPositional, Layout.json, Option.all_some, Bool.and_eq_true, decide_eq_true_eq]
  exact hbounds

open Floating in
/-- How a number of halves is written. -/
theorem number_halves {k : Int} (hk : k ≠ 0) (h : k.natAbs < 2 ^ 34) :
    Layout.json.number (halves k) = (if k < 0 then ['-'] else []) ++ halfChars k.natAbs := by
  have hm : 0 < k.natAbs := Int.natAbs_pos.2 hk
  have hspread : spread k.natAbs ≠ 0 :=
    (Nat.lt_of_lt_of_le (Nat.two_pow_pos 52) (le_spread hm.ne' (h.trans (by decide)))).ne'
  obtain ⟨c, j, hsearch, hhalved⟩ := search_halves .toEven
    (spread k.natAbs = 2 ^ FloatFormat.double.fractionBits &&
      FloatFormat.double.least < (k.natAbs.log2 : Int) - 53) hm h
  have hshortest : Decimal.shortest .toEven (k < 0) (spread k.natAbs) (k.natAbs.log2 - 53) =
      ⟨k < 0, c, j⟩ := by
    simp only [Decimal.shortest, hspread, if_false, hsearch]
  have hdecimal : Layout.json.decimal ⟨k < 0, c, j⟩ =
      (if k < 0 then ['-'] else []) ++ halfChars k.natAbs := by
    simp only [decimal, isPositional_halved hm h hhalved, if_true, positional_halved hm hhalved,
      decide_eq_true_eq]
  rw [number, datum_halves hk (h.trans (by decide))]
  change Layout.json.decimal (.shortest .toEven _ _ _) = _
  rw [hshortest, hdecimal]

end Layout

namespace Literal

variable {m : Nat}

/-- The text of a number of halves as a literal. -/
theorem ofChars?_halfChars (negative : Bool) :
    ofChars? ((if negative then ['-'] else []) ++ Layout.halfChars m) =
      some ⟨negative, Layout.digitChars (m / 2), some [(5 * (m % 2)).digitChar], none⟩ := by
  have hproper :
      Proper ⟨negative, Layout.digitChars (m / 2), some [(5 * (m % 2)).digitChar], none⟩ := by
    refine ⟨digits_digitChars, fun hzero => ?_, ?_, ?_⟩
    · have hnone : ¬ 0 < m / 2 := fun hpos => head?_digitChars hpos hzero
      rw [show m / 2 = 0 by omega]
      rfl
    · rintro _ ⟨⟩
      refine ⟨List.cons_ne_nil _ [], List.forall_mem_singleton.2 ?_⟩
      rcases Nat.mod_two_eq_zero_or_one m with h | h <;> rw [h] <;> rfl
    · rintro _ ⟨⟩
  exact ofChars?_chars hproper

open Floating in
theorem shrink_tenths (h : m < 2 ^ 34) :
    shrink 3 (Floating.ofInt (5 * m : Nat) : Double) 1 = halves m := by
  change (Floating.ofInt (5 * m : Nat) : Double) / Floating.ofInt 10 = halves m
  exact ofInt_div_ofInt (by omega) (by decide) (by decide) (by push_cast; ring)

open Floating in
/-- What is written for a number of halves stands for it. -/
theorem value?_halfChars (negative : Bool) (h : m < 2 ^ 34) :
    value? ⟨negative, Layout.digitChars (m / 2), some [(5 * (m % 2)).digitChar], none⟩ =
      some (.real (if negative then -halves m else halves m)) := by
  have hwhole : fit 0 (Layout.digitChars (m / 2)) = (m / 2, 0) := by
    have hnat : natFrom 0 (Layout.digitChars (m / 2)) = m / 2 := natOf_digitChars
    rw [fit_eq (by omega), hnat]
  have hvalue : digitValue (5 * (m % 2)).digitChar = 5 * (m % 2) := by
    rcases Nat.mod_two_eq_zero_or_one m with h | h <;> rw [h] <;> rfl
  have hfit : fit (m / 2) [(5 * (m % 2)).digitChar] = (5 * m, 0) := by
    have hnat : natFrom (m / 2) [(5 * (m % 2)).digitChar] = 5 * m := by
      change 10 * (m / 2) + digitValue _ = _
      omega
    rw [fit_eq (by omega), hnat]
  have hassemble : assemble? (5 * m) (-1) = some (halves m) := congrArg some (shrink_tenths h)
  simp [value?, hwhole, hfit, hassemble]

end Literal

namespace Floating

variable {k : Int}

/-- Numbers of halves are read back as they are written. -/
theorem readsBack_halves (h : k.natAbs < 2 ^ 34) : (JsonNumber.real (halves k)).ReadsBack := by
  rcases eq_or_ne k 0 with rfl | hk
  · decide
  · have htext := Literal.ofChars?_halfChars (m := k.natAbs) (k < 0)
    have hvalue := Literal.value?_halfChars (m := k.natAbs) (k < 0) h
    simp only [decide_eq_true_eq] at htext hvalue
    rw [JsonNumber.ReadsBack, Json.numberChars, Layout.number_halves hk h, htext, Option.bind_some,
      hvalue, signed_halves]

end Floating

end PortalNet
