import PortalNet.Decimal.Shortest
import PortalNet.Floating.Arithmetic

/-! # Numbers as text

Two ways to write a number: with the fewest digits that read back, laid out by a `Layout`, and
with a fixed count of decimal places.
-/

namespace PortalNet

/-- How shortest digits are laid out. A number whose leading digit counts a power of ten outside
`least` and `most` is written with an exponent. -/
structure Layout where
  tie : Tie
  least : Option Int
  most : Option Int
  /-- Written after a whole number. -/
  wholeSuffix : List Char
  /-- Written for words that are not numbers and for the infinities. -/
  special : Bool → Bool → List Char

namespace Layout

def digitChars (n : Nat) : List Char :=
  Nat.toDigits 10 n

def isPositional (l : Layout) (power : Int) : Bool :=
  l.least.all (· ≤ power) && l.most.all (power ≤ ·)

def zeros (n : Int) : List Char :=
  List.replicate n.toNat '0'

def positional (l : Layout) (digits : List Char) (exponent : Int) : List Char :=
  let point := digits.length + exponent
  if 0 ≤ exponent then digits ++ zeros exponent ++ l.wholeSuffix
  else if 0 < point then digits.take point.toNat ++ '.' :: digits.drop point.toNat
  else '0' :: '.' :: zeros (-point) ++ digits

def scientific (digits : List Char) (power : Int) : List Char :=
  let mantissa := match digits with
    | [] => []
    | [d] => [d]
    | d :: rest => d :: '.' :: rest
  mantissa ++ 'e' :: (if power < 0 then '-' else '+') :: digitChars power.natAbs

def decimal (l : Layout) (d : Decimal) : List Char :=
  let digits := digitChars d.digits
  let power := digits.length + d.exponent - 1
  (if d.negative then ['-'] else []) ++
    if l.isPositional power then l.positional digits d.exponent else scientific digits power

def number (l : Layout) (x : Double) : List Char :=
  match x.datum with
  | .finite negative m e => l.decimal (.shortest l.tie negative m e)
  | .infinite negative => l.special false negative
  | .nan => l.special true false

end Layout

/-- The names that a message gives to words that are not finite. -/
def specialName (isNaN negative : Bool) : List Char :=
  if isNaN then "NaN".toList else if negative then "-inf".toList else "inf".toList

/-- In messages a number is written without exponent, and a whole number without point. -/
def Layout.message : Layout where
  tie := .away
  least := none
  most := none
  wholeSuffix := []
  special := specialName

namespace Floating

def text (x : Double) : String :=
  .ofList (Layout.message.number x)

/-- The number with two decimal places, a half going to the even neighbour. The sign of a number
that rounds to zero stays. -/
def hundredths (x : Double) : String :=
  .ofList <|
    if x.isFinite then
      let n := x.nearestMultiple 100
      let cents := Layout.digitChars (n % 100)
      (if x.negative then ['-'] else []) ++ Layout.digitChars (n / 100) ++
        '.' :: List.replicate (2 - cents.length) '0' ++ cents
    else specialName x.isNaN x.negative

end Floating

end PortalNet
