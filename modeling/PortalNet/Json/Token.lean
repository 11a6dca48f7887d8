import PortalNet.Hex

/-! # JSON tokens

Scanning a text into punctuation, words and strings. A word is a longest run of the characters of
numbers and names; whether it is one is decided later. A string keeps its `\u` units as written.
-/

namespace PortalNet

/-- One part of a string: a character, or a unit given by four hexadecimal digits. -/
inductive Piece where
  | char (c : Char)
  | unit (n : Nat)
  deriving DecidableEq

inductive Token where
  | openArray
  | closeArray
  | openObject
  | closeObject
  | comma
  | colon
  | word (cs : List Char)
  | string (pieces : List Piece)
  deriving DecidableEq

namespace Token

def isBlank (c : Char) : Bool :=
  c = ' ' || c = '\t' || c = '\n' || c = '\r'

def isWordChar (c : Char) : Bool :=
  c.isAlphanum || c = '+' || c = '-' || c = '.'

def punctuation? (c : Char) : Option Token :=
  match c with
  | '[' => some openArray
  | ']' => some closeArray
  | '\x7b' => some openObject
  | '\x7d' => some closeObject
  | ',' => some comma
  | ':' => some colon
  | _ => none

/-- The character that stands for itself behind a backslash, or that the letter means. -/
def escape? (c : Char) : Option Char :=
  match c with
  | '"' => some '"'
  | '\\' => some '\\'
  | '/' => some '/'
  | 'b' => some '\x08'
  | 'f' => some '\x0c'
  | 'n' => some '\n'
  | 'r' => some '\r'
  | 't' => some '\t'
  | _ => none

/-- Where in a token the scanner stands, with what it has read of it, the last part first. -/
inductive Scan where
  | idle
  | word (cs : List Char)
  | string (pieces : List Piece)
  | escape (pieces : List Piece)
  | unit (pieces : List Piece) (digits : List Char)

namespace Scan

/-- A character between tokens. -/
def start (c : Char) : Option (List Token × Scan) :=
  if isBlank c then some ([], idle)
  else if c = '"' then some ([], string [])
  else if isWordChar c then some ([], word [c])
  else (punctuation? c).map fun t => ([t], idle)

def step (c : Char) : Scan → Option (List Token × Scan)
  | idle => start c
  | word cs =>
    if isWordChar c then some ([], word (c :: cs))
    else (start c).map fun (ts, s) => (Token.word cs.reverse :: ts, s)
  | string pieces =>
    if c = '"' then some ([Token.string pieces.reverse], idle)
    else if c = '\\' then some ([], escape pieces)
    else if c < ' ' then none
    else some ([], string (.char c :: pieces))
  | escape pieces =>
    if c = 'u' then some ([], unit pieces [])
    else (escape? c).map fun c => ([], string (.char c :: pieces))
  | unit pieces digits =>
    let digits := digits ++ [c]
    (Hex.toNat? digits).map fun n =>
      ([], if digits.length = 4 then string (.unit n :: pieces) else unit pieces digits)

end Scan

def scanFrom : Scan → List Char → Option (List Token)
  | .idle, [] => some []
  | .word cs, [] => some [word cs.reverse]
  | _, [] => none
  | s, c :: cs => do
    let (ts, s) ← s.step c
    let rest ← scanFrom s cs
    return ts ++ rest

def scan (cs : List Char) : Option (List Token) :=
  scanFrom .idle cs

end Token

end PortalNet
