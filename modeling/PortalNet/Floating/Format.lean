/-! # Binary floating-point words

A word of a binary interchange format, what it stands for, and the word nearest to a quotient of
two natural numbers. A word is a sign bit followed by a magnitude; magnitudes are ordered like
the numbers that they stand for, and consecutive magnitudes are consecutive numbers.
-/

-- powers are those of the core library, whatever other instances are in scope
attribute [instance (2000), default_instance 20000] instPowNat

namespace PortalNet

structure FloatFormat where
  exponentBits : Nat
  fractionBits : Nat
  deriving DecidableEq

namespace FloatFormat

def double : FloatFormat := ⟨11, 52⟩

def single : FloatFormat := ⟨8, 23⟩

variable (f : FloatFormat)

def width : Nat :=
  f.exponentBits + f.fractionBits + 1

/-- The smallest positive number is two to this power. -/
def least : Int :=
  2 - 2 ^ (f.exponentBits - 1) - f.fractionBits

/-- The magnitude of the infinities. A larger one is not a number. -/
def infinity : Nat :=
  (2 ^ f.exponentBits - 1) * 2 ^ f.fractionBits

/-- Numerator and denominator of `n / d * 2 ^ (-e)`. -/
def scale (n d : Nat) (e : Int) : Nat × Nat :=
  if 0 ≤ e then (n, d * 2 ^ e.toNat) else (n * 2 ^ (-e).toNat, d)

/-- The quotient to the nearest; of two equally near the even one. -/
def divEven (n d : Nat) : Nat :=
  let q := n / d
  let r := n % d
  if d < 2 * r ∨ (d = 2 * r ∧ q % 2 = 1) then q + 1 else q

/-- The power of two that the last digit of `n / d` counts when it is written with as many
digits as the format has. -/
def lastPlace (n d : Nat) : Int :=
  let e : Int := n.log2 - d.log2 - f.fractionBits
  let s := scale n d e
  max f.least (if s.1 / s.2 < 2 ^ f.fractionBits then e - 1 else e)

/-- The magnitude nearest to `n / d`. A carry out of the fraction runs into the exponent. -/
def magnitudeOf (n d : Nat) : Nat :=
  if n = 0 then 0 else
    let e := f.lastPlace n d
    let s := scale n d e
    min f.infinity ((e - f.least).toNat * 2 ^ f.fractionBits + divEven s.1 s.2)

end FloatFormat

/-- What a word stands for: a finite number is `± significand * 2 ^ exponent`. -/
inductive Datum where
  | nan
  | infinite (negative : Bool)
  | finite (negative : Bool) (significand : Nat) (exponent : Int)
  deriving DecidableEq

structure Floating (f : FloatFormat) where
  word : BitVec f.width
  deriving DecidableEq

abbrev Double := Floating .double

abbrev Single := Floating .single

namespace Floating

variable {f : FloatFormat}

def ofBits (n : Nat) : Floating f :=
  ⟨BitVec.ofNat _ n⟩

def bits (x : Floating f) : Nat :=
  x.word.toNat

def ofParts (negative : Bool) (magnitude : Nat) : Floating f :=
  ofBits (magnitude + if negative then 2 ^ (f.width - 1) else 0)

def negative (x : Floating f) : Bool :=
  x.word.msb

def magnitude (x : Floating f) : Nat :=
  x.bits % 2 ^ (f.width - 1)

def nan : Floating f :=
  ofParts false (f.infinity + 2 ^ (f.fractionBits - 1))

def infinite (negative : Bool) : Floating f :=
  ofParts negative f.infinity

def datum (x : Floating f) : Datum :=
  let field := x.magnitude / 2 ^ f.fractionBits
  let fraction := x.magnitude % 2 ^ f.fractionBits
  if f.infinity < x.magnitude then .nan
  else if x.magnitude = f.infinity then .infinite x.negative
  else if field = 0 then .finite x.negative fraction f.least
  else .finite x.negative (fraction + 2 ^ f.fractionBits) (f.least + field - 1)

def isNaN (x : Floating f) : Bool :=
  f.infinity < x.magnitude

def isFinite (x : Floating f) : Bool :=
  x.magnitude < f.infinity

/-- The word nearest to `± n / d`. -/
def ofQuotient (negative : Bool) (n d : Nat) : Floating f :=
  ofParts negative (f.magnitudeOf n d)

/-- The word nearest to `± m * 2 ^ e`. -/
def ofDyadic (negative : Bool) (m : Nat) (e : Int) : Floating f :=
  let s := FloatFormat.scale m 1 (-e)
  ofQuotient negative s.1 s.2

def ofDatum : Datum → Floating f
  | .nan => nan
  | .infinite negative => infinite negative
  | .finite negative m e => ofDyadic negative m e

def ofInt (n : Int) : Floating f :=
  ofQuotient (n < 0) n.natAbs 1

/-- The nearest word of another format. -/
def convert {g : FloatFormat} (x : Floating f) : Floating g :=
  ofDatum x.datum

end Floating

end PortalNet
