import PortalNet.Json.Printer
import PortalNet.Json.Source
import PortalNet.Portal.Record

/-! # Portal files

The text that keeps the portals of a server: an object with one list of records. A record that
cannot be read is left out and does not spoil the rest; a text of any other shape is no portal
file. Members that are not known are skipped whatever they hold.
-/

namespace PortalNet.Archive

def encode (portals : List Portal) : String :=
  (Json.object [("portals", .array (portals.map Portal.toJson))]).pretty

/-- The one list of records in a file; the file may be the object or the list of its fields. -/
def records? : Source → Option (List Source)
  | .object members =>
    if members.all fun m => (Source.text? m.1).isSome then
      match members.filter fun m => Source.text? m.1 = some "portals" with
      | [(_, .array items)] => some items
      | _ => none
    else none
  | .array [.array items] => some items
  | _ => none

/-- The file around the list counts towards the depth. -/
def values? (text : String) : Option (List Json) := do
  let items ← records? (← Source.ofString? text)
  if Source.depthItems items + 2 ≤ Json.maxDepth then Source.values? items else none

/-- The portals of a list of records. The record in place `i` gets the id `fresh i` if it has
none. -/
def portals (fresh : Nat → Uuid) (records : List Json) : List Portal :=
  records.zipIdx.filterMap fun (j, i) => Portal.ofJson? (fresh i) j

def decode? (fresh : Nat → Uuid) (text : String) : Option (List Portal) :=
  (values? text).map (portals fresh)

end PortalNet.Archive
