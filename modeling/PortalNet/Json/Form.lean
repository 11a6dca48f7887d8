import PortalNet.Json.Basic

/-! # JSON forms

How values are written as JSON and which JSON is read back. Whole numbers have to fit the type that
they are read for. A value that may be null may also be missing from a record.
-/

namespace PortalNet

class ToJson (α : Type) where
  toJson : α → Json

class OfJson (α : Type) where
  ofJson? : Json → Option α
  /-- What a field stands for that is missing. -/
  missing : Option α := none

namespace Json

variable {α : Type}

def of [ToJson α] (a : α) : Json :=
  ToJson.toJson a

def read? [OfJson α] (j : Json) : Option α :=
  OfJson.ofJson? j

/-- A field of a record. -/
def field? [OfJson α] : Option Json → Option α
  | some j => j.read?
  | none => OfJson.missing

/-- A field that has a default. -/
def fieldOr [OfJson α] (default : α) : Option Json → Option α
  | some j => j.read?
  | none => some default

/-- A whole number from `low` up to but not including `high`. -/
def range? (low high : Int) (j : Json) : Option Int := do
  let n ← j.int?
  if low ≤ n ∧ n < high then some n else none

/-- One of several variants, with what it holds. -/
def variant (name : String) (content : Json) : Json :=
  object [(name, content)]

/-- The name of a variant and what it holds. A variant that holds nothing may be just its name. -/
def variant? : Json → Option (String × Option Json)
  | string name => some (name, none)
  | object [(name, content)] => some (name, some content)
  | _ => none

/-- The value of a variant that holds nothing. -/
def bare? (a : α) : Option Json → Option α
  | none | some null => some a
  | _ => none

end Json

instance : ToJson Json := ⟨id⟩

instance : OfJson Json where
  ofJson? := some

instance : ToJson Bool := ⟨.bool⟩

instance : OfJson Bool where
  ofJson? := Json.bool?

instance : ToJson String := ⟨.string⟩

instance : OfJson String where
  ofJson? := Json.string?

instance : ToJson Int := ⟨fun n => .number (.whole n)⟩

instance : OfJson Int where
  ofJson? := Json.int?

instance : ToJson Nat := ⟨fun n => .of (n : Int)⟩

instance : OfJson Nat where
  ofJson? j := do
    let n ← j.int?
    if 0 ≤ n then some n.toNat else none

instance : ToJson UInt32 := ⟨fun n => .of n.toNat⟩

instance : OfJson UInt32 where
  ofJson? j := (j.range? 0 (2 ^ 32)).map fun n => .ofNat n.toNat

instance : ToJson UInt64 := ⟨fun n => .of n.toNat⟩

instance : OfJson UInt64 where
  ofJson? j := (j.range? 0 (2 ^ 64)).map fun n => .ofNat n.toNat

instance : ToJson Int32 := ⟨fun n => .of n.toInt⟩

instance : OfJson Int32 where
  ofJson? j := (j.range? (-2 ^ 31) (2 ^ 31)).map .ofInt

instance : ToJson Double := ⟨fun x => .number (.real x)⟩

instance : OfJson Double where
  ofJson? := Json.double?

instance : ToJson Single := ⟨fun x => .of (x.convert : Double)⟩

instance : OfJson Single where
  ofJson?
    | .number n => some n.toFloating
    | _ => none

instance {α : Type} [ToJson α] : ToJson (Option α) where
  toJson
    | some a => .of a
    | none => .null

instance {α : Type} [OfJson α] : OfJson (Option α) where
  ofJson?
    | .null => some none
    | j => j.read?.map some
  missing := some none

instance {α : Type} [ToJson α] : ToJson (List α) := ⟨fun l => .array (l.map .of)⟩

instance {α : Type} [OfJson α] : OfJson (List α) where
  ofJson?
    | .array items => items.mapM Json.read?
    | _ => none

end PortalNet
