import PortalNet.Floating.Format

/-! # Floating-point arithmetic

Each operation computes exactly and rounds once, to the nearest word and from a tie to the even
one. Comparisons follow the numbers: both zeros are equal and nothing compares with a word that is
not a number, while `rank` puts all words into one line.
-/

namespace PortalNet.Floating

variable {f : FloatFormat}

instance : IntCast (Floating f) := ⟨ofInt⟩

def neg (x : Floating f) : Floating f :=
  ofParts (!x.negative) x.magnitude

def abs (x : Floating f) : Floating f :=
  ofParts false x.magnitude

private def signed (negative : Bool) (m : Nat) (places : Int) : Int :=
  (if negative then -1 else 1) * (m * 2 ^ places.toNat)

def add (x y : Floating f) : Floating f :=
  match x.datum, y.datum with
  | .finite s m p, .finite t n q =>
    let e := min p q
    let sum := signed s m (p - e) + signed t n (q - e)
    ofDyadic (if sum = 0 then s && t else sum < 0) sum.natAbs e
  | .infinite s, .infinite t => if s = t then infinite s else nan
  | .infinite s, .finite .. => infinite s
  | .finite .., .infinite t => infinite t
  | _, _ => nan

def mul (x y : Floating f) : Floating f :=
  match x.datum, y.datum with
  | .finite s m p, .finite t n q => ofDyadic (s != t) (m * n) (p + q)
  | .infinite s, .infinite t => infinite (s != t)
  | .infinite s, .finite t n _ => if n = 0 then nan else infinite (s != t)
  | .finite s m _, .infinite t => if m = 0 then nan else infinite (s != t)
  | _, _ => nan

def div (x y : Floating f) : Floating f :=
  match x.datum, y.datum with
  | .finite s m p, .finite t n q =>
    if n = 0 then (if m = 0 then nan else infinite (s != t))
    else
      let r := FloatFormat.scale m n (q - p)
      ofQuotient (s != t) r.1 r.2
  | .infinite s, .finite t .. => infinite (s != t)
  | .finite s .., .infinite t => ofParts (s != t) 0
  | _, _ => nan

/-- The largest number whose square is at most `n`, found by its first `k` binary digits. -/
private def root : Nat → Nat → Nat
  | 0, _ => 0
  | k + 1, n =>
    let r := 2 * root k (n / 4)
    if (r + 1) * (r + 1) ≤ n then r + 1 else r

/-- The root of the significand is taken to more digits than the format has, and one more digit
says whether it came out even. -/
def sqrt (x : Floating f) : Floating f :=
  match x.datum with
  | .finite s m e =>
    if m = 0 then x
    else if s then nan
    else
      let guard : Nat := 2 * f.fractionBits + 8
      let shift : Nat := if (e - guard) % 2 = 0 then guard else guard + 1
      let n := m * 2 ^ shift
      let r := root n.log2 n
      ofDyadic false (2 * r + if r * r = n then 0 else 1) ((e - shift) / 2 - 1)
  | .infinite false => infinite false
  | _ => nan

/-- Positive for numbers above zero, negative below, equal for both zeros. -/
def key (x : Floating f) : Int :=
  if x.negative then -x.magnitude else x.magnitude

/-- The place of a word when all words stand in one line, negative zero before positive zero. -/
def rank (x : Floating f) : Int :=
  if x.negative then -x.magnitude - 1 else x.magnitude

instance : Add (Floating f) := ⟨add⟩

instance : Neg (Floating f) := ⟨neg⟩

instance : Sub (Floating f) := ⟨fun x y => x + -y⟩

instance : Mul (Floating f) := ⟨mul⟩

instance : Div (Floating f) := ⟨div⟩

instance : LE (Floating f) :=
  ⟨fun x y => x.isNaN = false ∧ y.isNaN = false ∧ x.key ≤ y.key⟩

instance : DecidableLE (Floating f) :=
  fun x y => inferInstanceAs (Decidable (x.isNaN = false ∧ y.isNaN = false ∧ x.key ≤ y.key))

/-- The largest whole number not above a finite one. -/
def floor? (x : Floating f) : Option Int :=
  match x.datum with
  | .finite s m e =>
    let n : Int := if s then -m else m
    some (if 0 ≤ e then n * 2 ^ e.toNat else n / 2 ^ (-e).toNat)
  | _ => none

/-- The whole number nearest to `n` times the magnitude of a finite word, of two equally near the
even one. -/
def nearestMultiple (x : Floating f) (n : Nat) : Nat :=
  match x.datum with
  | .finite _ m e =>
    let s := FloatFormat.scale (n * m) 1 (-e)
    FloatFormat.divEven s.1 s.2
  | _ => 0

/-- The remainder after taking away `n` as often as it fits, with the sign of the number. -/
def remainder (x : Floating f) (n : Nat) : Floating f :=
  match x.datum with
  | .finite s m e =>
    if 0 ≤ e then ofDyadic s (m * 2 ^ e.toNat % n) 0
    else ofDyadic s (m % (n * 2 ^ (-e).toNat)) e
  | _ => nan

end PortalNet.Floating
