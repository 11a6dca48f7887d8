import PortalNet.Hex

/-! # Identifiers

Sixteen bytes, written as five groups of hexadecimal digits. Reading also takes the digits without
hyphens, and the grouped form in braces or as a name.
-/

namespace PortalNet

structure Uuid where
  bytes : Vector UInt8 16
  deriving DecidableEq

namespace Uuid

def ofBytes? (bytes : List UInt8) : Option Uuid :=
  if h : bytes.toArray.size = 16 then some ⟨⟨bytes.toArray, h⟩⟩ else none

def toBytes (u : Uuid) : List UInt8 :=
  u.bytes.toList

@[simp] theorem length_toBytes (u : Uuid) : u.toBytes.length = 16 := by
  simp [toBytes]

@[simp] theorem ofBytes?_toBytes (u : Uuid) : ofBytes? u.toBytes = some u := by
  obtain ⟨⟨bytes, h⟩⟩ := u
  simp [ofBytes?, toBytes, Vector.toList, h]

theorem toBytes_of_ofBytes? {bytes : List UInt8} {u : Uuid} (h : ofBytes? bytes = some u) :
    u.toBytes = bytes := by
  unfold ofBytes? at h
  split at h
  · cases h; simp [toBytes, Vector.toList]
  · simp at h

def toString (u : Uuid) : String :=
  let digits := Hex.ofBytes u.toBytes
  .ofList <| digits.take 8 ++ '-' :: (digits.drop 8).take 4 ++ '-' :: (digits.drop 12).take 4 ++
    '-' :: (digits.drop 16).take 4 ++ '-' :: digits.drop 20

instance : ToString Uuid := ⟨toString⟩

/-- The id of version 4 whose 122 free bits are the last ones of a number. -/
def version4 (n : Nat) : Uuid :=
  let byte := fun shift => UInt8.ofNat (n >>> shift)
  ⟨#v[byte 114, byte 106, byte 98, byte 90, byte 82, byte 74, 0x40 ||| (byte 70 &&& 0x0f), byte 62,
    0x80 ||| (byte 56 &&& 0x3f), byte 48, byte 40, byte 32, byte 24, byte 16, byte 8, byte 0]⟩

def isVersion4 (u : Uuid) : Bool :=
  u.bytes[6] >>> 4 = 4

def ofDigits? (cs : List Char) : Option Uuid := do
  ofBytes? (← Hex.toBytes? cs)

/-- The digits of the grouped form, whose hyphens stand at fixed places. -/
def ungroup? (cs : List Char) : Option (List Char) :=
  let isHyphen := fun i => cs[i]? = some '-'
  if isHyphen 8 ∧ isHyphen 13 ∧ isHyphen 18 ∧ isHyphen 23 then
    some (cs.take 8 ++ (cs.drop 9).take 4 ++ (cs.drop 14).take 4 ++ (cs.drop 19).take 4 ++
      cs.drop 24)
  else none

/-- The text inside braces or after the name space, which is read in either case, or the text
itself. -/
def unwrap (cs : List Char) : List Char :=
  let name := "urn:uuid:".toList
  if cs.length = 38 ∧ cs.head? = some '{' ∧ cs.getLast? = some '}' then (cs.drop 1).dropLast
  else if (cs.take name.length).map Char.toLower = name then cs.drop name.length
  else cs

def ofString? (s : String) : Option Uuid :=
  let cs := s.toList
  if cs.length = 32 then ofDigits? cs
  else do ofDigits? (← ungroup? (unwrap cs))

end Uuid

end PortalNet
