import PortalNet.Json.Basic

/-! # Number literals

The grammar of JSON numbers and the number that a literal stands for. The digits are taken as one
64-bit whole number as far as they fit, and one multiplication or division by a power of ten, each
rounded, brings the point to its place.
-/

namespace PortalNet

/-- A number as it is written. -/
structure Literal where
  negative : Bool
  whole : List Char
  fraction : Option (List Char)
  exponent : Option (Bool × List Char)
  deriving DecidableEq

namespace Literal

/-- The digits at the start, at least one, and the rest. -/
def digits? (cs : List Char) : Option (List Char × List Char) :=
  match cs.takeWhile Char.isDigit with
  | [] => none
  | ds => some (ds, cs.dropWhile Char.isDigit)

def fraction? : List Char → Option (Option (List Char) × List Char)
  | '.' :: cs => (digits? cs).map fun (ds, rest) => (some ds, rest)
  | cs => some (none, cs)

def exponent? : List Char → Option (Option (Bool × List Char) × List Char)
  | c :: cs =>
    if c = 'e' ∨ c = 'E' then
      let (negative, cs) := match cs with
        | '-' :: cs => (true, cs)
        | '+' :: cs => (false, cs)
        | cs => (false, cs)
      (digits? cs).map fun (ds, rest) => (some (negative, ds), rest)
    else some (none, c :: cs)
  | [] => some (none, [])

def sign : List Char → Bool × List Char
  | '-' :: cs => (true, cs)
  | cs => (false, cs)

def ofChars? (cs : List Char) : Option Literal := do
  let (negative, cs) := sign cs
  let (whole, cs) ← digits? cs
  if whole.head? = some '0' ∧ whole.length ≠ 1 then none
  let (fraction, cs) ← fraction? cs
  let (exponent, cs) ← exponent? cs
  if cs = [] then some ⟨negative, whole, fraction, exponent⟩ else none

def digitValue (c : Char) : Nat :=
  c.toNat - '0'.toNat

def natOf (ds : List Char) : Nat :=
  ds.foldl (fun n c => 10 * n + digitValue c) 0

/-- Digits that still fit into 64 bits behind `n`, and how many follow them. -/
def fit (n : Nat) : List Char → Nat × Nat
  | [] => (n, 0)
  | c :: cs =>
    let m := 10 * n + digitValue c
    if m < 2 ^ 64 then fit m cs else (n, (c :: cs).length)

def powerOfTen (n : Nat) : Double :=
  ((10 ^ n : Nat) : Int)

/-- Divides by a power of ten, by the largest one that is a number as often as needed. Three times
take any 64-bit number to zero. -/
def shrink : Nat → Double → Nat → Double
  | 0, x, _ => x
  | k + 1, x, n =>
    if n ≤ 308 then x / powerOfTen n
    else if x.magnitude = 0 then x
    else shrink k (x / powerOfTen 308) (n - 308)

/-- `n * 10 ^ e`, unless it is too large for a number. -/
def assemble? (n : Nat) (e : Int) : Option Double :=
  let x : Double := (n : Int)
  if e < 0 then some (shrink 3 x (-e).toNat)
  else if e ≤ 308 then
    let y := x * powerOfTen e.toNat
    if y.isFinite then some y else none
  else if n = 0 then some x
  else none

def value? (l : Literal) : Option JsonNumber :=
  let (n, left) := fit 0 l.whole
  if l.fraction = none ∧ l.exponent = none ∧ left = 0 ∧
      (l.negative = false ∨ (0 < n ∧ n ≤ 2 ^ 63)) then
    some (.whole (if l.negative then -n else n))
  else do
    let fraction := l.fraction.getD []
    let (n, skipped) := fit n fraction
    let exponent : Int := match l.exponent with
      | none => 0
      | some (negative, ds) => if negative then -natOf ds else natOf ds
    let x ← assemble? n (exponent + left - (fraction.length - skipped))
    return .real (if l.negative then -x else x)

end Literal

end PortalNet
