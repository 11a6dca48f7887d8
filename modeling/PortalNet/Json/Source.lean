import PortalNet.Json.Literal
import PortalNet.Json.Token

/-! # JSON texts

A text as a tree in which numbers and strings are still as written. Reading the tree needs no
limits; those on nesting, on the size of numbers and on paired surrogates belong to the values,
which `value?` takes from it.
-/

namespace PortalNet

inductive Source where
  | null
  | bool (b : Bool)
  | number (l : Literal)
  | string (pieces : List Piece)
  | array (items : List Source)
  | object (members : List (List Piece × Source))
  deriving Inhabited

namespace Source

/-- An array or object that is not closed yet, with its complete parts, the last one first. -/
inductive Frame where
  | array (items : List Source)
  | object (members : List (List Piece × Source)) (key : List Piece)

/-- What may follow. -/
inductive Cursor where
  | value
  | itemOrEnd
  | keyOrEnd
  | key (members : List (List Piece × Source))
  | colon (members : List (List Piece × Source)) (key : List Piece)
  | done (value : Source)

def ofWord? (cs : List Char) : Option Source :=
  if cs = "null".toList then some null
  else if cs = "true".toList then some (bool true)
  else if cs = "false".toList then some (bool false)
  else (Literal.ofChars? cs).map number

def startValue (frames : List Frame) : Token → Option (List Frame × Cursor)
  | .word cs => (ofWord? cs).map fun s => (frames, .done s)
  | .string pieces => some (frames, .done (string pieces))
  | .openArray => some (frames, .itemOrEnd)
  | .openObject => some (frames, .keyOrEnd)
  | _ => none

/-- What follows a complete value: the next part of the frame around it, or its end. -/
def endValue (v : Source) : List Frame → Token → Option (List Frame × Cursor)
  | .array items :: frames, .comma => some (.array (v :: items) :: frames, .value)
  | .array items :: frames, .closeArray => some (frames, .done (array (v :: items).reverse))
  | .object members key :: frames, .comma => some (frames, .key ((key, v) :: members))
  | .object members key :: frames, .closeObject =>
    some (frames, .done (object ((key, v) :: members).reverse))
  | _, _ => none

def step : List Frame × Cursor → Token → Option (List Frame × Cursor)
  | (frames, .value), t => startValue frames t
  | (frames, .itemOrEnd), .closeArray => some (frames, .done (array []))
  | (frames, .itemOrEnd), t => startValue (.array [] :: frames) t
  | (frames, .keyOrEnd), .closeObject => some (frames, .done (object []))
  | (frames, .keyOrEnd), .string key => some (frames, .colon [] key)
  | (frames, .key members), .string key => some (frames, .colon members key)
  | (frames, .colon members key), .colon => some (.object members key :: frames, .value)
  | (frames, .done v), t => endValue v frames t
  | _, _ => none

def ofTokens? (ts : List Token) : Option Source :=
  match ts.foldlM step ([], .value) with
  | some ([], .done v) => some v
  | _ => none

def ofString? (s : String) : Option Source := do
  ofTokens? (← Token.scan s.toList)

mutual

/-- How deep arrays and objects are nested. -/
def depth : Source → Nat
  | array items => depthItems items + 1
  | object members => depthMembers members + 1
  | _ => 0

def depthItems : List Source → Nat
  | [] => 0
  | s :: rest => max s.depth (depthItems rest)

def depthMembers : List (List Piece × Source) → Nat
  | [] => 0
  | (_, s) :: rest => max s.depth (depthMembers rest)

end

/-- The characters of a string. A high surrogate needs a low one behind it. -/
def characters? : List Piece → Option (List Char)
  | [] => some []
  | .char c :: rest => (characters? rest).map (c :: ·)
  | .unit n :: .unit m :: rest =>
    if 0xd800 ≤ n ∧ n < 0xdc00 then
      if 0xdc00 ≤ m ∧ m < 0xe000 then
        let c := Char.ofNat (0x10000 + (n - 0xd800) * 0x400 + (m - 0xdc00))
        (characters? rest).map (c :: ·)
      else none
    else if 0xdc00 ≤ n ∧ n < 0xe000 then none
    else (characters? (.unit m :: rest)).map (Char.ofNat n :: ·)
  | .unit n :: rest =>
    if 0xd800 ≤ n ∧ n < 0xe000 then none
    else (characters? rest).map (Char.ofNat n :: ·)

def text? (pieces : List Piece) : Option String :=
  (characters? pieces).map String.ofList

mutual

def value? : Source → Option Json
  | null => some .null
  | bool b => some (.bool b)
  | number l => l.value?.map .number
  | string pieces => (text? pieces).map .string
  | array items => (values? items).map .array
  | object members => (memberValues? members).map fun ms => .object (Json.unique ms)

def values? : List Source → Option (List Json)
  | [] => some []
  | s :: rest => do return (← s.value?) :: (← values? rest)

def memberValues? : List (List Piece × Source) → Option (List (String × Json))
  | [] => some []
  | (key, s) :: rest => do return (← text? key, ← s.value?) :: (← memberValues? rest)

end

end Source

/-- Arrays and objects may be nested this deep. -/
def Json.maxDepth : Nat := 127

def Json.ofString? (s : String) : Option Json := do
  let source ← Source.ofString? s
  if source.depth ≤ maxDepth then source.value? else none

end PortalNet
