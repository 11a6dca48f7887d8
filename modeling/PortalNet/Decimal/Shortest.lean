import PortalNet.Floating.Format

/-! # Shortest decimals

The decimal with the fewest digits that reads back as a given floating-point number, and of
several the one nearest to it. For each count of digits only the two neighbours of the number on
that decimal grid can qualify, so the first grid with a hit gives the answer. Both can be equally
near, and which of them is written is up to the format.
-/

namespace PortalNet

/-- `± digits * 10 ^ exponent`. -/
structure Decimal where
  negative : Bool
  digits : Nat
  exponent : Int
  deriving DecidableEq, Repr

/-- Which of two equally near decimals is taken: the one whose last digit is even, or the one with
the greater magnitude. -/
inductive Tie where
  | toEven
  | away
  deriving DecidableEq

namespace Shortest

/-- Whether `10 ^ k ≤ n / d`. -/
def reaches (n d : Nat) (k : Int) : Bool :=
  if 0 ≤ k then 10 ^ k.toNat * d ≤ n else d ≤ n * 10 ^ (-k).toNat

/-- The power of ten of the leading digit of `n / d`, estimated from the power of two. -/
def leading (n d : Nat) : Int :=
  let estimate := ((n.log2 : Int) - d.log2 - 1) * 30103 / 100000
  if reaches n d (estimate + 2) then estimate + 2
  else if reaches n d (estimate + 1) then estimate + 1
  else estimate

/-- The numbers that read back as `m` units: up to half a unit away, below a power of two a
quarter, the ends included for an even `m`. -/
structure Interval where
  m : Nat
  atPower : Bool

namespace Interval

/-- Whether `c` grid steps lie in the interval, where a unit is `unit / step` steps. -/
def holds (i : Interval) (unit step c : Nat) : Bool :=
  let low := (4 * i.m - if i.atPower then 1 else 2) * unit
  let high := (4 * i.m + 2) * unit
  let x := 4 * c * step
  if i.m % 2 = 0 then low ≤ x && x ≤ high else low < x && x < high

/-- The neighbour that reads back, the nearer one if both do. -/
def onGrid (i : Interval) (tie : Tie) (unit step : Nat) : Option Nat :=
  let c := i.m * unit / step
  let rest := i.m * unit % step
  match i.holds unit step c, i.holds unit step (c + 1) with
  | true, true =>
    some (if step < 2 * rest ∨ (step = 2 * rest ∧ (tie = .away ∨ c % 2 = 1)) then c + 1 else c)
  | true, false => some c
  | false, true => some (c + 1)
  | false, false => none

end Interval

/-- Digits and exponent for `m * 2 ^ e`, with at most `most` digits. Ten steps are a hit only as
nine and something rounded up to one digit. -/
def search (i : Interval) (tie : Tie) (e : Int) (most : Nat) : Option (Nat × Int) :=
  let n := i.m * 2 ^ e.toNat
  let d := 2 ^ (-e).toNat
  let top := leading n d
  (List.range most).findSome? fun places : Nat =>
    let k : Int := top - places
    let unit := 2 ^ e.toNat * 10 ^ (-k).toNat
    let step := d * 10 ^ k.toNat
    (i.onGrid tie unit step).map fun c => if c = 10 then (1, k + 1) else (c, k)

end Shortest

/-- Seventeen digits tell any two double precision numbers apart. -/
def Decimal.shortest (tie : Tie) (negative : Bool) (m : Nat) (e : Int) : Decimal :=
  if m = 0 then ⟨negative, 0, 0⟩
  else
    let f := FloatFormat.double
    let atPower := m = 2 ^ f.fractionBits && f.least < e
    match Shortest.search ⟨m, atPower⟩ tie e 17 with
    | some (c, k) => ⟨negative, c, k⟩
    | none => ⟨negative, m * 2 ^ e.toNat, 0⟩

end PortalNet
