import PortalNet.Position
import PortalNet.Region

/-! # Portals

A portal leads one way, from its origin to its destination. It is activated while someone is near
enough that the destination has to be kept loaded, and view-active while someone is near enough to
look through it; both are clocks that count ticks while they run. A custom portal was made by a
player; any other one was lit in a frame and lives as long as the portal blocks at both its ends.
-/

namespace PortalNet

structure Portal where
  id : Uuid
  owner : Option Uuid := none
  name : Option String := none
  origin : Anchor
  dest : Anchor
  size : Size Double
  isCustom : Bool
  allowsNonPlayers : Bool := true
  relocatesPlayers : Bool := true
  /-- Ticks since the activation, if the portal is activated. -/
  activeTicks : Option Nat := none
  /-- Ticks since someone started to look through, if anyone does. -/
  viewTicks : Option Nat := none
  /-- How often the picture of the other side was taken since the last deactivation. -/
  refreshes : Nat := 0
  lastRefresh : Option Nat := none
  /-- The place that this portal keeps loaded. -/
  held : Option Location := none
  deriving DecidableEq

inductive RenameKind where
  | inPlace
  /-- A copy under a new id takes the portal's place. -/
  | replacement
  deriving DecidableEq

namespace RenameKind

/-- A name whose effects are felt only by a portal that is made with it or without it. -/
def isReserved (name : Option String) : Bool :=
  name.any fun name => name.toList.map Char.toLower = "dinnerbone".toList

def classify (current requested : Option String) : RenameKind :=
  if isReserved current || isReserved requested then replacement else inPlace

end RenameKind

namespace Portal

def isAutoSpawned (p : Portal) : Bool :=
  !p.isCustom

def isCrossServer (p : Portal) : Bool :=
  p.dest.position.isExternal

def isActivated (p : Portal) : Bool :=
  p.activeTicks.isSome

def isViewActive (p : Portal) : Bool :=
  p.viewTicks.isSome

/-- Fails for a portal that was not made by a player: it cannot carry a name. -/
def rename (p : Portal) (name : Option String) : Except PortalError Unit × Portal :=
  if p.isAutoSpawned then (throw .autoSpawnedNamed, p) else (return (), { p with name })

/-- A copy that was never activated. -/
def replacement (p : Portal) (id : Uuid) (name : Option String) : Portal where
  id
  owner := p.owner
  name
  origin := p.origin
  dest := p.dest
  size := p.size
  isCustom := p.isCustom
  allowsNonPlayers := p.allowsNonPlayers
  relocatesPlayers := p.relocatesPlayers

/-- The permission that lets players through, below the common root. -/
def permission (p : Portal) : String :=
  if p.isCustom then
    match p.name with
    | some name => ".custom." ++ name
    | none => ""
  else ".nether." ++ p.origin.position.worldName.getD ""

def resolveOrigin (ws : Worlds) (p : Portal) : Portal :=
  { p with origin := p.origin.resolved ws }

def resolveDest (ws : Worlds) (p : Portal) : Portal :=
  { p with dest := p.dest.resolved ws }

/-- Starts the clock anew and takes hold of the destination, unless something is held already. -/
def activate (p : Portal) (ws : Worlds) (regions : Regions) : Portal × Regions :=
  let p := { p with activeTicks := some 0 }
  match p.held with
  | some _ => (p, regions)
  | none =>
    match p.dest.location? ws with
    | some l => ({ p.resolveDest ws with held := some l }, regions.hold l)
    | none => (p, regions)

def deactivate (p : Portal) (regions : Regions) : Portal × Regions :=
  ({ p with activeTicks := none, refreshes := 0, lastRefresh := none, held := none },
    match p.held with
    | some l => regions.release l
    | none => regions)

def viewActivate (p : Portal) : Portal :=
  { p with viewTicks := some 0 }

def viewDeactivate (p : Portal) : Portal :=
  { p with viewTicks := none }

/-- An end that cannot be looked at counts as intact. -/
def isIntact (ws : Worlds) (a : Anchor) : Bool :=
  match a.block ws with
  | .ok place => ws.materialAt place.world.id place.block = .portal
  | .error _ => true

def isValid (p : Portal) (ws : Worlds) : Bool :=
  p.isCustom || (isIntact ws p.origin && isIntact ws p.dest)

/-- The portal after its validity has been checked, the destination only behind an intact
origin. -/
def inspected (p : Portal) (ws : Worlds) : Portal :=
  if p.isCustom then p
  else if isIntact ws p.origin then (p.resolveOrigin ws).resolveDest ws
  else p.resolveOrigin ws

/-- The picture of the other side is taken anew after this many ticks. -/
def refreshInterval : Nat := 20

/-- One tick of the activation clock; it stands still while the portal is not valid. -/
def update (p : Portal) (ws : Worlds) : Portal :=
  let p' := p.inspected ws
  if p.isValid ws then { p' with activeTicks := p'.activeTicks.map (· + 1) } else p'

/-- One tick of the view clock. -/
def viewUpdate (p : Portal) : Portal :=
  match p.viewTicks with
  | none => p
  | some t =>
    let p := { p with viewTicks := some (t + 1) }
    if t % refreshInterval = 0 then
      { p with refreshes := p.refreshes + 1, lastRefresh := some t }
    else p

/-- Ends both activities, as a portal does that leaves its registry. -/
def shutDown (p : Portal) (regions : Regions) : Portal × Regions :=
  let p := p.viewDeactivate
  if p.isActivated then p.deactivate regions else (p, regions)

end Portal

end PortalNet
