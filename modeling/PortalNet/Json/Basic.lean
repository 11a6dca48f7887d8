import PortalNet.Floating.Arithmetic

/-! # JSON values

Whole numbers of 64 bits stay exact; every other number is a double precision word. An object keeps
its members in order.
-/

namespace PortalNet

inductive JsonNumber where
  | whole (n : Int)
  | real (x : Double)
  deriving DecidableEq

inductive Json where
  | null
  | bool (b : Bool)
  | number (n : JsonNumber)
  | string (s : String)
  | array (items : List Json)
  | object (members : List (String × Json))
  deriving Inhabited

/-- The nearest word of a format. -/
def JsonNumber.toFloating {f : FloatFormat} : JsonNumber → Floating f
  | .whole n => n
  | .real x => x.convert

def JsonNumber.toDouble : JsonNumber → Double
  | .whole n => n
  | .real x => x

namespace Json

def find? (name : String) : List (String × Json) → Option Json
  | [] => none
  | (key, value) :: rest => if key = name then some value else find? name rest

/-- Of several members with one name only the last stays. -/
def unique : List (String × Json) → List (String × Json)
  | [] => []
  | (key, value) :: rest =>
    if (find? key rest).isSome then unique rest else (key, value) :: unique rest

def get? (name : String) : Json → Option Json
  | .object members => find? name members
  | _ => none

def double? : Json → Option Double
  | .number n => some n.toDouble
  | _ => none

def int? : Json → Option Int
  | .number (.whole n) => some n
  | _ => none

def bool? : Json → Option Bool
  | .bool b => some b
  | _ => none

def string? : Json → Option String
  | .string s => some s
  | _ => none

/-- The fields of a record, written as an object or as the list of their values in order, where a
field may go by several names. A list may stop early but not run on; two names of one field in one
object are a fault. -/
def fields? (names : List (List String)) : Json → Option (List (Option Json))
  | .object members => names.mapM fun aliases =>
      match aliases.filterMap (find? · members) with
      | [] => some none
      | [value] => some (some value)
      | _ => none
  | .array items =>
      if items.length ≤ names.length then
        some ((List.range names.length).map (items[·]?))
      else none
  | _ => none

/-- The fields of a record all of which a list has to hold. -/
def allFields? (names : List String) (j : Json) : Option (List (Option Json)) :=
  match j with
  | .array items => if items.length = names.length then some (items.map some) else none
  | _ => j.fields? (names.map ([·]))

/-- The fields of a variant, which cannot be written as a list. -/
def memberFields? (names : List String) : Json → Option (List (Option Json))
  | .object members => some (names.map (find? · members))
  | _ => none

end Json

end PortalNet
