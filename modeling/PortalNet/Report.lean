import PortalNet.Packet.Json
import PortalNet.Traversal

/-! # Reports

What a server shows of its state to those who run it: portals with their clocks, sessions,
selections and journeys, as JSON.
-/

namespace PortalNet

open Json

instance : ToJson World where
  toJson w := object [("id", .of w.id), ("name", .of w.name)]

instance : ToJson Location where
  toJson l := object [("world", .of l.world), ("position", .of l.point)]

instance : ToJson Material where
  toJson
    | .air => string "Air"
    | .portal => string "Portal"
    | .obsidian => string "Obsidian"
    | .stone => string "Stone"

instance : OfJson Material where
  ofJson? j := do
    let (name, content) ← j.variant?
    let materials := [Material.air, .portal, .obsidian, .stone]
    bare? (← materials.find? fun m => (of m).string? = name) content

instance : ToJson Address := ⟨fun a => string (toString a)⟩

instance : OfJson Address where
  ofJson? j := j.string? >>= Address.ofString?

/-- The reading of a clock, which is minus one while the clock stands still. -/
def clockReading (ticks : Option Nat) : Int :=
  match ticks with
  | some n => n
  | none => -1

def Portal.report (p : Portal) : Json :=
  object [
    ("id", .of p.id), ("owner", .of p.owner), ("name", .of p.name),
    ("origin", .of p.origin.position), ("dest", .of p.dest.position), ("size", .of p.size),
    ("custom", .of p.isCustom), ("auto_spawned", .of p.isAutoSpawned),
    ("cross_server", .of p.isCrossServer), ("non_player", .of p.allowsNonPlayers),
    ("relocate", .of p.relocatesPlayers), ("permission", .of p.permission),
    ("active", .of p.isActivated), ("view_active", .of p.isViewActive),
    ("ticks", .of (clockReading p.activeTicks)),
    ("view_ticks", .of (clockReading p.viewTicks)), ("refreshes", .of p.refreshes),
    ("last_refresh", .of p.lastRefresh), ("forced", .of p.held)]

instance : ToJson Selection where
  toJson s :=
    let world := ("world", Json.of (s.world?.map (·.name)))
    match s.position, (s.size : Except Failure (Size Double)) with
    | .ok position, .ok size =>
      object [
        ("is_valid", .of true), world, ("direction", .of position.frame.facing),
        ("size", .of size), ("position", .of position)]
    | .error (.refused e), _ | _, .error (.refused e) =>
      object [("is_valid", .of false), world, ("invalid", .of e.message)]
    | .error .overflow, _ | _, .error .overflow => object [("overflow", .of true)]

instance : ToJson Selections where
  toJson s := object [
    ("current", .of s.current), ("origin", .of s.origin), ("dest", .of s.destination),
    ("external", .of s.external)]

instance : ToJson Session where
  toJson s := object [
    ("handle", .of s.handle), ("player", .of s.player), ("addr", .of s.addr),
    ("world", .of s.avatar.world), ("motion", .of s.avatar.motion),
    ("see_through", .of s.seesThrough), ("cooldown", .of s.cooldown),
    ("selection", .of s.selections)]

instance : ToJson Journey where
  toJson
    | .here handle portal avatar =>
      object [
        ("local", .of handle), ("portal", .of portal), ("world", .of avatar.world),
        ("motion", .of avatar.motion)]
    | .away handle portal server request =>
      object [
        ("external", .of handle), ("portal", .of portal), ("server", .of server),
        ("request", .of request)]
    | .stay handle portal => object [("fired", .of handle), ("portal", .of portal)]

end PortalNet
