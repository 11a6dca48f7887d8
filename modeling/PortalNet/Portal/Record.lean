import PortalNet.Json.Form
import PortalNet.Portal.Basic

/-! # Records of portals

The JSON form of positions and portals. What was added over time may be missing: ids and names of
worlds, servers, owners and names may also be null, and a flag that is missing has its default.
-/

namespace PortalNet

instance : ToJson Uuid := ⟨fun u => .string (toString u)⟩

instance : OfJson Uuid where
  ofJson? j := j.string? >>= Uuid.ofString?

instance : ToJson Direction := ⟨fun d => .string d.name⟩

instance : OfJson Direction where
  ofJson? j := do
    let (name, content) ← j.variant?
    Json.bare? (← Direction.ofName? name) content

namespace Size

def ofJson? (j : Json) : Option (Size Double) := do
  let [width, height] ← j.fields? [["width"], ["height"]] | none
  return ⟨← Json.field? width, ← Json.field? height⟩

def toJson (s : Size Double) : Json :=
  .object [("width", .of s.width), ("height", .of s.height)]

instance : ToJson (Size Double) := ⟨toJson⟩

instance : OfJson (Size Double) where
  ofJson? := ofJson?

end Size

namespace Position

def ofJson? (j : Json) : Option Position := do
  let [worldId, worldName, x, y, z, direction, server, lastPlayer] ← j.fields?
    [["worldId"], ["worldName"], ["x"], ["y"], ["z"], ["direction"], ["serverName"],
      ["lastPlayerPos"]] | none
  return {
    worldId := ← Json.field? worldId
    worldName := ← Json.field? worldName
    frame := ⟨⟨← Json.field? x, ← Json.field? y, ← Json.field? z⟩, ← Json.field? direction⟩
    server := ← Json.field? server
    lastPlayer := ← Json.fieldOr false lastPlayer }

def toJson (p : Position) : Json :=
  .object [
    ("worldId", .of p.worldId),
    ("worldName", .of p.worldName),
    ("x", .of p.frame.center.x),
    ("y", .of p.frame.center.y),
    ("z", .of p.frame.center.z),
    ("direction", .of p.frame.facing),
    ("serverName", .of p.server),
    ("lastPlayerPos", .of p.lastPlayer)]

instance : ToJson Position := ⟨toJson⟩

instance : OfJson Position where
  ofJson? := ofJson?

end Position

namespace Portal

/-- Reads a record. A record without an id gets the given one. -/
def ofJson? (fresh : Uuid) (j : Json) : Option Portal := do
  let [origin, dest, size, anchored, id, nonPlayers, relocates, owner, name] ← j.fields?
    [["originPos"], ["destPos"], ["size"], ["anchored"], ["id"],
      ["allowsNonPlayerTeleportation"], ["relocatePlayer"], ["owner", "ownerId"], ["name"]] | none
  let origin : Position ← Json.field? origin
  let dest : Position ← Json.field? dest
  let id : Option Uuid ← Json.field? id
  return {
    id := id.getD fresh
    owner := ← Json.field? owner
    name := ← Json.field? name
    origin
    dest
    size := ← Json.field? size
    isCustom := ← Json.field? anchored
    allowsNonPlayers := ← Json.fieldOr true nonPlayers
    relocatesPlayers := ← Json.fieldOr true relocates }

def decode (fresh : Uuid) (j : Json) : Except PortalError Portal :=
  match ofJson? fresh j with
  | some p => return p
  | none => throw .malformedRecord

def toJson (p : Portal) : Json :=
  .object [
    ("originPos", .of p.origin.position),
    ("destPos", .of p.dest.position),
    ("size", .of p.size),
    ("anchored", .of p.isCustom),
    ("id", .of p.id),
    ("allowsNonPlayerTeleportation", .of p.allowsNonPlayers),
    ("relocatePlayer", .of p.relocatesPlayers),
    ("owner", .of p.owner),
    ("name", .of p.name)]

end Portal

end PortalNet
