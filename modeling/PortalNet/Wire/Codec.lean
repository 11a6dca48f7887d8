/-! # Codecs

Writing values as bytes and reading them back from the start of a byte string. Lengths and numbers
have a fixed width, so the bytes of a value say by themselves where they end.
-/

namespace PortalNet

inductive WireError where
  | endOfInput
  | invalidUtf8
  | invalidBool
  | invalidOption
  | unknownVariant
  | invalidLength
  deriving DecidableEq

structure Codec (α : Type) where
  write : α → List UInt8
  read : List UInt8 → Except WireError (α × List UInt8)

namespace Codec

variable {α β : Type}

/-- Exactly this many bytes. -/
def takeBytes (n : Nat) (bytes : List UInt8) : Except WireError (List UInt8 × List UInt8) :=
  if n ≤ bytes.length then return (bytes.take n, bytes.drop n) else throw .endOfInput

/-- The last bytes of a number, the least significant one first. -/
def littleEndian : Nat → Nat → List UInt8
  | 0, _ => []
  | k + 1, n => UInt8.ofNat n :: littleEndian k (n / 256)

def natOf : List UInt8 → Nat
  | [] => 0
  | b :: rest => b.toNat + 256 * natOf rest

def unit : Codec Unit where
  write _ := []
  read bytes := return ((), bytes)

/-- Numbers of `k` bytes. -/
def nat (k : Nat) : Codec Nat where
  write := littleEndian k
  read bytes := do
    let (word, rest) ← takeBytes k bytes
    return (natOf word, rest)

def map (c : Codec α) (f : α → β) (g : β → α) : Codec β where
  write b := c.write (g b)
  read bytes := do
    let (a, rest) ← c.read bytes
    return (f a, rest)

/-- Values of which not all that can be read are valid. -/
def refine (c : Codec α) (f : α → Option β) (g : β → α) (e : WireError) : Codec β where
  write b := c.write (g b)
  read bytes := do
    let (a, rest) ← c.read bytes
    match f a with
    | some b => return (b, rest)
    | none => throw e

def pair (c : Codec α) (d : Codec β) : Codec (α × β) where
  write ab := c.write ab.1 ++ d.write ab.2
  read bytes := do
    let (a, rest) ← c.read bytes
    let (b, rest) ← d.read rest
    return ((a, b), rest)

/-- Bytes behind their count. -/
def blob : Codec (List UInt8) where
  write bytes := (nat 8).write bytes.length ++ bytes
  read bytes := do
    let (n, rest) ← (nat 8).read bytes
    takeBytes n rest

/-- A byte that says whether there is a value, and the value. -/
def option (c : Codec α) : Codec (Option α) where
  write
    | none => [0]
    | some a => 1 :: c.write a
  read bytes := do
    let (tag, rest) ← (nat 1).read bytes
    match tag with
    | 0 => return (none, rest)
    | 1 => do
      let (a, rest) ← c.read rest
      return (some a, rest)
    | _ => throw .invalidOption

end Codec

/-- One variant of a type: what it holds, and how. -/
structure Arm (α : Type) where
  Content : Type
  codec : Codec Content
  build : Content → α
  view : α → Option Content

namespace Arm

variable {α : Type}

/-- A variant that holds nothing. -/
def constant (a : α) (is : α → Bool) : Arm α where
  Content := Unit
  codec := .unit
  build _ := a
  view b := if is b then some () else none

def write (arms : List (Arm α)) (number : Nat) (a : α) : List UInt8 :=
  match arms with
  | [] => []
  | arm :: rest =>
    match arm.view a with
    | some content => (Codec.nat 4).write number ++ arm.codec.write content
    | none => write rest (number + 1) a

def read (arm : Arm α) (bytes : List UInt8) : Except WireError (α × List UInt8) := do
  let (content, rest) ← arm.codec.read bytes
  return (arm.build content, rest)

end Arm

/-- A number that says which variant it is, and what the variant holds. -/
def Codec.union {α : Type} (arms : List (Arm α)) : Codec α where
  write := Arm.write arms 0
  read bytes := do
    let (number, rest) ← (Codec.nat 4).read bytes
    match arms[number]? with
    | some arm => arm.read rest
    | none => throw .unknownVariant

end PortalNet
