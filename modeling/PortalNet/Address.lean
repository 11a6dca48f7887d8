import PortalNet.Hex

/-! # Network addresses

A host and a port, with their usual text: four decimal parts, or eight hexadecimal groups in
brackets in which `::` stands for the longest run of zero groups.
-/

namespace PortalNet

inductive Host where
  | v4 (parts : Vector UInt8 4)
  | v6 (groups : Vector UInt16 8) (zone : UInt32)
  deriving DecidableEq

structure Address where
  host : Host
  port : UInt16
  deriving DecidableEq

namespace Address

def splitAt (sep : Char) : List Char → List (List Char)
  | [] => [[]]
  | c :: cs =>
    if c = sep then [] :: splitAt sep cs
    else match splitAt sep cs with
      | [] => [[c]]
      | part :: parts => (c :: part) :: parts

def decimal? (limit : Nat) (cs : List Char) : Option Nat :=
  if cs ≠ [] ∧ cs.all Char.isDigit then
    let n := cs.foldl (fun n c => 10 * n + (c.toNat - '0'.toNat)) 0
    if n < limit then some n else none
  else none

/-- One part of a dotted host, without leading zeros. -/
def part? (cs : List Char) : Option UInt8 :=
  if cs.length ≤ 3 ∧ (cs.head? ≠ some '0' ∨ cs.length = 1) then
    (decimal? 256 cs).map UInt8.ofNat
  else none

def parts? (cs : List Char) : Option (List UInt8) := do
  let parts ← (splitAt '.' cs).mapM part?
  if parts.length = 4 then some parts else none

def group? (cs : List Char) : Option UInt16 :=
  if cs ≠ [] ∧ cs.length ≤ 4 then (Hex.toNat? cs).map UInt16.ofNat else none

/-- Groups between colons. The last may be a dotted host, which counts as two groups. -/
def groups? (dotted : Bool) (cs : List Char) : Option (List UInt16) :=
  if cs.isEmpty then some []
  else
    let texts := splitAt ':' cs
    match dotted, texts.getLast? >>= parts? with
    | true, some [a, b, c, d] => do
      let groups ← texts.dropLast.mapM group?
      return groups ++ [a.toUInt16 * 256 + b.toUInt16, c.toUInt16 * 256 + d.toUInt16]
    | _, _ => texts.mapM group?

/-- The text before and after the first `::`. -/
def splitGap : List Char → Option (List Char × List Char)
  | ':' :: ':' :: rest => some ([], rest)
  | c :: rest => (splitGap rest).map fun (before, after) => (c :: before, after)
  | [] => none

def v6Groups? (cs : List Char) : Option (List UInt16) :=
  match splitGap cs with
  | none => groups? true cs
  | some (before, after) => do
    let front ← groups? false before
    let back ← groups? true after
    if front.length + back.length < 8 then
      return front ++ List.replicate (8 - front.length - back.length) 0 ++ back
    else none

def port? (cs : List Char) : Option UInt16 :=
  (decimal? (2 ^ 16) cs).map UInt16.ofNat

def host4? (cs : List Char) : Option Host := do
  let parts ← parts? cs
  if h : parts.toArray.size = 4 then some (.v4 ⟨parts.toArray, h⟩) else none

def host6? (cs : List Char) : Option Host := do
  let (text, zone) ← match splitAt '%' cs with
    | [text] => some (text, 0)
    | [text, zone] => (decimal? (2 ^ 32) zone).map (text, ·)
    | _ => none
  let groups ← v6Groups? text
  if h : groups.toArray.size = 8 then some (.v6 ⟨groups.toArray, h⟩ (UInt32.ofNat zone)) else none

def ofString? (s : String) : Option Address :=
  match s.toList with
  | '[' :: rest =>
    match rest.dropWhile (· ≠ ']') with
    | ']' :: ':' :: port => do
      return ⟨← host6? (rest.takeWhile (· ≠ ']')), ← port? port⟩
    | _ => none
  | cs =>
    match cs.dropWhile (· ≠ ':') with
    | ':' :: port => do return ⟨← host4? (cs.takeWhile (· ≠ ':')), ← port? port⟩
    | _ => none

def zeroRun (groups : List UInt16) (start : Nat) : Nat :=
  ((groups.drop start).takeWhile (· = 0)).length

/-- Where the first of the longest runs of zero groups starts. -/
def longestRun (groups : List UInt16) : Nat :=
  (List.range groups.length).foldl
    (fun best i => if zeroRun groups best < zeroRun groups i then i else best) 0

def dottedText (parts : List UInt8) : String :=
  ".".intercalate (parts.map fun b => toString b.toNat)

def groupText (g : UInt16) : String :=
  .ofList <| match (Hex.ofNat 4 g.toNat).dropWhile (· = '0') with
    | [] => ['0']
    | cs => cs

def groupsText (groups : List UInt16) : String :=
  match groups with
  | [0, 0, 0, 0, 0, 0xffff, a, b] =>
    "::ffff:" ++ dottedText [(a / 256).toUInt8, a.toUInt8, (b / 256).toUInt8, b.toUInt8]
  | _ =>
    let start := longestRun groups
    let length := zeroRun groups start
    let text := fun (gs : List UInt16) => ":".intercalate (gs.map groupText)
    if 1 < length then text (groups.take start) ++ "::" ++ text (groups.drop (start + length))
    else text groups

def toString (a : Address) : String :=
  let host := match a.host with
    | .v4 parts => dottedText parts.toList
    | .v6 groups zone =>
      "[" ++ groupsText groups.toList ++ (if zone = 0 then "" else s!"%{zone.toNat}") ++ "]"
  s!"{host}:{a.port.toNat}"

instance : ToString Address := ⟨toString⟩

end Address

end PortalNet
