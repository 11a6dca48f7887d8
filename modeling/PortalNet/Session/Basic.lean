import PortalNet.Address
import PortalNet.Selection

/-! # Sessions

One connection of a player, and what other servers may ask for on a player's behalf.
-/

namespace PortalNet

abbrev PlayerMotion := Motion Double Single

/-- A reconnecting player gets a new handle. -/
abbrev Handle := UInt32

/-- Where a player is and how they move. -/
structure Avatar where
  world : World
  motion : PlayerMotion
  deriving DecidableEq

def Avatar.location (a : Avatar) : Location :=
  ⟨a.world, a.motion.position⟩

/-- Where a player is to appear and how they are to move. -/
structure TeleportRequest where
  player : Uuid
  worldId : Option Uuid
  worldName : String
  x : Double
  y : Double
  z : Double
  yaw : Single
  pitch : Single
  velocityX : Double
  velocityY : Double
  velocityZ : Double
  flying : Bool
  gliding : Bool
  deriving DecidableEq

namespace TeleportRequest

def ofMotion (player : Uuid) (worldId : Option Uuid) (worldName : String) (m : PlayerMotion) :
    TeleportRequest where
  player
  worldId
  worldName
  x := m.position.x
  y := m.position.y
  z := m.position.z
  yaw := m.yaw
  pitch := m.pitch
  velocityX := m.velocity.x
  velocityY := m.velocity.y
  velocityZ := m.velocity.z
  flying := m.flying
  gliding := m.gliding

def motion (r : TeleportRequest) : PlayerMotion where
  position := ⟨r.x, r.y, r.z⟩
  yaw := r.yaw
  pitch := r.pitch
  velocity := ⟨r.velocityX, r.velocityY, r.velocityZ⟩
  flying := r.flying
  gliding := r.gliding

@[simp] theorem motion_ofMotion (player : Uuid) (worldId : Option Uuid) (worldName : String)
    (m : PlayerMotion) : (ofMotion player worldId worldName m).motion = m := rfl

end TeleportRequest

/-- Whoever is sent to a world that is not loaded stays in their own. -/
def Avatar.teleported (a : Avatar) (request : TeleportRequest) (ws : Worlds) : Avatar where
  world := (ws.resolve? request.worldId (some request.worldName)).getD a.world
  motion := request.motion

/-- A selection that a player made on another server. -/
structure MirrorRequest where
  player : Uuid
  selection : ExternalSelection
  deriving DecidableEq

structure Session where
  handle : Handle
  player : Uuid
  addr : Address
  avatar : Avatar
  selections : Selections := {}
  seesThrough : Bool := true
  /-- When a packet came last. -/
  lastSeen : Nat
  /-- Ticks for which portals still leave the player alone. -/
  cooldown : UInt32 := 0
  deriving DecidableEq

namespace Session

def touch (s : Session) (now : Nat) : Session :=
  { s with lastSeen := now }

def isSilent (s : Session) (now limit : Nat) : Bool :=
  limit < now - s.lastSeen

def teleport (s : Session) (request : TeleportRequest) (ws : Worlds) : Session :=
  { s with avatar := s.avatar.teleported request ws }

def receiveSelection (s : Session) (selection : ExternalSelection) : Session :=
  { s with selections := { s.selections with external := some selection } }

end Session

end PortalNet
