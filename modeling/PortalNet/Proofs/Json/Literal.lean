import Mathlib.Data.List.Basic
import Mathlib.Tactic.Ring
import PortalNet.Decimal.Text
import PortalNet.Json.Literal

/-! # The grammar of number literals

A literal with its parts in order is read as these parts. The digits of a number have the number
back, and those that fit into 64 bits are all taken.
-/

namespace PortalNet

namespace Literal

variable {m n : Nat} {ds es cs : List Char}

theorem natOf_digitChars : natOf (Layout.digitChars n) = n :=
  Nat.ofDigitChars_ten_toDigits

/-- Digits, at least one of them. -/
def Digits (ds : List Char) : Prop :=
  ds ≠ [] ∧ ∀ c ∈ ds, c.isDigit = true

theorem digits_zero : Digits ['0'] :=
  ⟨List.cons_ne_nil _ _, List.forall_mem_singleton.2 rfl⟩

theorem digits_digitChars : Digits (Layout.digitChars n) :=
  ⟨Nat.toDigits_ne_nil, fun _ => Nat.isDigit_of_mem_toDigits (by decide) le_rfl⟩

/-- Only zero has a text that starts with a zero. -/
theorem head?_digitChars (h : 0 < n) : (Layout.digitChars n).head? ≠ some '0' := by
  induction n using Nat.strongRecOn with
  | _ n ih =>
    rcases Nat.lt_or_ge n 10 with hn | hn
    · have hdigit : ∀ i < 10, 0 < i → [Nat.digitChar i].head? ≠ some '0' := by decide
      rw [Layout.digitChars, Nat.toDigits_of_lt_base hn]
      exact hdigit n hn h
    · rw [Layout.digitChars, Nat.toDigits_of_base_le (by decide) hn, List.head?_append_of_ne_nil _
        Nat.toDigits_ne_nil]
      exact ih (n / 10) (by omega) (by omega)

theorem digits?_append (h : Digits ds) (hcs : ∀ c ∈ cs.head?, c.isDigit = false) :
    digits? (ds ++ cs) = some (ds, cs) := by
  have hrest : cs.takeWhile Char.isDigit = [] ∧ cs.dropWhile Char.isDigit = cs := by
    cases cs with
    | nil => exact ⟨rfl, rfl⟩
    | cons c cs => simp [hcs c rfl]
  have htake : (ds ++ cs).takeWhile Char.isDigit = ds := by
    rw [List.takeWhile_append_of_pos h.2, hrest.1, List.append_nil]
  have hdrop : (ds ++ cs).dropWhile Char.isDigit = cs := by
    rw [List.dropWhile_append_of_pos h.2, hrest.2]
  rw [digits?, htake, hdrop]
  cases ds with
  | nil => exact absurd rfl h.1
  | cons d ds => rfl

theorem sign_append {negative : Bool} (h : Digits ds) :
    sign ((if negative then ['-'] else []) ++ (ds ++ cs)) = (negative, ds ++ cs) := by
  cases negative with
  | true => rfl
  | false =>
    cases ds with
    | nil => exact absurd rfl h.1
    | cons d ds =>
      rw [if_neg Bool.false_ne_true, List.nil_append, List.cons_append, sign]
      rintro _ ⟨⟩
      exact absurd (h.2 '-' List.mem_cons_self) (by decide)

/-- A literal whose parts are as the grammar has them. -/
structure Proper (l : Literal) : Prop where
  whole : Digits l.whole
  leading : l.whole.head? = some '0' → l.whole.length = 1
  fraction : ∀ ds ∈ l.fraction, Digits ds
  exponent : ∀ e ∈ l.exponent, Digits e.2

def fractionChars : Option (List Char) → List Char
  | some ds => '.' :: ds
  | none => []

def exponentChars : Option (Bool × List Char) → List Char
  | some (negative, ds) => 'e' :: (if negative then '-' else '+') :: ds
  | none => []

/-- A literal as it is written. -/
def chars (l : Literal) : List Char :=
  (if l.negative then ['-'] else []) ++
    (l.whole ++ (fractionChars l.fraction ++ exponentChars l.exponent))

theorem head?_exponentChars {e : Option (Bool × List Char)} :
    ∀ c ∈ (exponentChars e).head?, c = 'e' := by
  rcases e with _ | ⟨negative, ds⟩
  · exact fun c hc => by cases hc
  · rintro _ ⟨⟩
    rfl

theorem fraction?_chars {f : Option (List Char)} {e : Option (Bool × List Char)}
    (h : ∀ ds ∈ f, Digits ds) :
    fraction? (fractionChars f ++ exponentChars e) = some (f, exponentChars e) := by
  cases f with
  | some ds =>
    have hdigits : digits? (ds ++ exponentChars e) = some (ds, exponentChars e) :=
      digits?_append (h ds rfl) fun c hc => head?_exponentChars c hc ▸ rfl
    change (digits? (ds ++ exponentChars e)).map _ = _
    rw [hdigits]
    rfl
  | none => rcases e with _ | ⟨negative, ds⟩ <;> rfl

theorem exponent?_chars {e : Option (Bool × List Char)} (h : ∀ d ∈ e, Digits d.2) :
    exponent? (exponentChars e) = some (e, []) := by
  rcases e with _ | ⟨negative, ds⟩
  · rfl
  · have hdigits : digits? ds = some (ds, []) := by
      have happend : digits? (ds ++ []) = some (ds, []) :=
        digits?_append (h _ rfl) (by rintro _ ⟨⟩)
      rwa [List.append_nil] at happend
    cases negative <;>
    · change (digits? ds).map _ = _
      rw [hdigits]
      rfl

/-- Reading undoes writing. -/
theorem ofChars?_chars {l : Literal} (h : l.Proper) : ofChars? l.chars = some l := by
  have hwhole : digits? (l.whole ++ (fractionChars l.fraction ++ exponentChars l.exponent)) =
      some (l.whole, fractionChars l.fraction ++ exponentChars l.exponent) := by
    refine digits?_append h.whole fun c hc => ?_
    rcases hf : l.fraction with _ | ds
    · rw [hf] at hc
      exact head?_exponentChars c hc ▸ rfl
    · rw [hf] at hc
      cases hc
      rfl
  have hleading : ¬ (l.whole.head? = some '0' ∧ l.whole.length ≠ 1) :=
    fun hzero => hzero.2 (h.leading hzero.1)
  simp [ofChars?, chars, sign_append h.whole, hwhole, hleading, fraction?_chars h.fraction,
    exponent?_chars h.exponent]

/-- The number of the digits behind `n`. -/
def natFrom (n : Nat) (ds : List Char) : Nat :=
  ds.foldl (fun n c => 10 * n + digitValue c) n

theorem natFrom_append : natFrom n (ds ++ es) = natFrom (natFrom n ds) es :=
  List.foldl_append ..

theorem mul_pow_le_natFrom : n * 10 ^ ds.length ≤ natFrom n ds := by
  induction ds generalizing n with
  | nil => exact (Nat.mul_one n).le
  | cons d ds ih =>
    calc n * 10 ^ (d :: ds).length = 10 * n * 10 ^ ds.length := by rw [List.length_cons]; ring
      _ ≤ (10 * n + digitValue d) * 10 ^ ds.length := Nat.mul_le_mul_right _ (Nat.le_add_right ..)
      _ ≤ natFrom n (d :: ds) := ih

theorem natFrom_zeros : natFrom n (List.replicate m '0') = n * 10 ^ m := by
  induction m generalizing n with
  | zero => exact (Nat.mul_one n).symm
  | succ m ih =>
    calc natFrom n (List.replicate (m + 1) '0') = natFrom (10 * n) (List.replicate m '0') := rfl
      _ = n * 10 ^ (m + 1) := by rw [ih]; ring

theorem le_natFrom : n ≤ natFrom n ds :=
  (Nat.le_mul_of_pos_right n (Nat.pow_pos (by decide))).trans mul_pow_le_natFrom

/-- Digits that fit into 64 bits are all taken. -/
theorem fit_eq (h : natFrom n ds < 2 ^ 64) : fit n ds = (natFrom n ds, 0) := by
  induction ds generalizing n with
  | nil => rfl
  | cons d ds ih =>
    have hfirst : 10 * n + digitValue d < 2 ^ 64 := Nat.lt_of_le_of_lt le_natFrom h
    rw [fit, if_pos hfirst]
    exact ih h

/-- Digits that do not fit count as zeros. -/
theorem fit_le (ds : List Char) (h : n < 2 ^ 64) :
    (fit n ds).1 < 2 ^ 64 ∧ (fit n ds).2 ≤ ds.length ∧
    (fit n ds).1 * 10 ^ (fit n ds).2 ≤ natFrom n ds := by
  induction ds generalizing n with
  | nil => exact ⟨h, le_rfl, (Nat.mul_one n).le⟩
  | cons d ds ih =>
    rw [fit]
    split
    · next hfirst =>
      obtain ⟨hlt, hlength, hle⟩ := ih hfirst
      exact ⟨hlt, hlength.trans (Nat.le_succ _), hle⟩
    · exact ⟨h, le_rfl, mul_pow_le_natFrom⟩

end Literal

end PortalNet
