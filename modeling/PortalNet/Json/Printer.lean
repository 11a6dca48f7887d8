import PortalNet.Decimal.Text
import PortalNet.Hex
import PortalNet.Json.Basic

/-! # Writing JSON

Members keep their order. Characters other than quotes, backslashes and controls stand for
themselves. A word that is not finite has no number literal and is written as null.
-/

namespace PortalNet

/-- Numbers between a hundred-thousandth and ten to the sixteenth are written without exponent,
whole ones with a zero behind the point. -/
def Layout.json : Layout where
  tie := .toEven
  least := some (-5)
  most := some 15
  wholeSuffix := ['.', '0']
  special := fun _ _ => "null".toList

namespace Json

def escape (c : Char) : List Char :=
  match c with
  | '"' => ['\\', '"']
  | '\\' => ['\\', '\\']
  | '\x08' => ['\\', 'b']
  | '\x0c' => ['\\', 'f']
  | '\n' => ['\\', 'n']
  | '\r' => ['\\', 'r']
  | '\t' => ['\\', 't']
  | c => if c < ' ' then '\\' :: 'u' :: Hex.ofNat 4 c.toNat else [c]

def quote (s : String) : List Char :=
  '"' :: s.toList.flatMap escape ++ ['"']

def numberChars : JsonNumber → List Char
  | .whole n => (toString n).toList
  | .real x => Layout.json.number x

/-- The line break before a part at this level, if the text is broken into lines at all. -/
def lineBreak (lines : Bool) (level : Nat) : List Char :=
  if lines then '\n' :: List.replicate (2 * level) ' ' else []

def colon (lines : Bool) : List Char :=
  if lines then [':', ' '] else [':']

mutual

def chars (lines : Bool) (level : Nat) : Json → List Char
  | null => "null".toList
  | bool b => (toString b).toList
  | number n => numberChars n
  | string s => quote s
  | array [] => ['[', ']']
  | array (j :: rest) =>
    '[' :: lineBreak lines (level + 1) ++ chars lines (level + 1) j ++
      itemChars lines (level + 1) rest ++ lineBreak lines level ++ [']']
  | object [] => ['\x7b', '\x7d']
  | object ((key, j) :: rest) =>
    '\x7b' :: lineBreak lines (level + 1) ++ quote key ++ colon lines ++
      chars lines (level + 1) j ++ memberChars lines (level + 1) rest ++
      lineBreak lines level ++ ['\x7d']

def itemChars (lines : Bool) (level : Nat) : List Json → List Char
  | [] => []
  | j :: rest => ',' :: lineBreak lines level ++ chars lines level j ++ itemChars lines level rest

def memberChars (lines : Bool) (level : Nat) : List (String × Json) → List Char
  | [] => []
  | (key, j) :: rest =>
    ',' :: lineBreak lines level ++ quote key ++ colon lines ++ chars lines level j ++
      memberChars lines level rest

end

/-- Without any blanks. -/
def compact (j : Json) : String :=
  .ofList (j.chars false 0)

/-- One part a line, two blanks more for each level. -/
def pretty (j : Json) : String :=
  .ofList (j.chars true 0)

end Json

end PortalNet
