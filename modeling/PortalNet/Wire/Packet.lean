import PortalNet.Packet
import PortalNet.Wire.Codec

/-! # Packets as bytes

The wire form of every type that a packet can hold. Variants are numbered in the order in which
they are listed here.
-/

namespace PortalNet

namespace Codec

def uint32 : Codec UInt32 :=
  (nat 4).map UInt32.ofNat UInt32.toNat

def uint64 : Codec UInt64 :=
  (nat 8).map UInt64.ofNat UInt64.toNat

def int32 : Codec Int32 :=
  (nat 4).map (fun n => .ofBitVec (.ofNat 32 n)) (·.toBitVec.toNat)

def double : Codec Double :=
  (nat 8).map Floating.ofBits Floating.bits

def single : Codec Single :=
  (nat 4).map Floating.ofBits Floating.bits

def bool : Codec Bool :=
  (nat 1).refine (fun n => if n = 0 then some false else if n = 1 then some true else none)
    Bool.toNat .invalidBool

def string : Codec String :=
  blob.refine (fun bytes => String.fromUTF8? ⟨bytes.toArray⟩) (·.toUTF8.data.toList) .invalidUtf8

def uuid : Codec Uuid :=
  blob.refine Uuid.ofBytes? Uuid.toBytes .invalidLength

def direction : Codec Direction :=
  union (Direction.all.map fun d => .constant d (· = d))

def vec3 : Codec (Vec3 Double) :=
  (double.pair (double.pair double)).map (fun (x, y, z) => ⟨x, y, z⟩) fun v => (v.x, v.y, v.z)

def block : Codec Block :=
  (int32.pair (int32.pair int32)).map (fun (x, y, z) => ⟨x, y, z⟩) fun b => (b.x, b.y, b.z)

def size : Codec (Size Double) :=
  (double.pair double).map (fun (w, h) => ⟨w, h⟩) fun s => (s.width, s.height)

def motion : Codec PlayerMotion :=
  (vec3.pair (single.pair (single.pair (vec3.pair (bool.pair bool))))).map
    (fun (p, yaw, pitch, v, flying, gliding) => ⟨p, yaw, pitch, v, flying, gliding⟩)
    fun m => (m.position, m.yaw, m.pitch, m.velocity, m.flying, m.gliding)

def frame : Codec (Frame Double) :=
  (vec3.pair direction).map (fun (c, d) => ⟨c, d⟩) fun f => (f.center, f.facing)

def position : Codec Position :=
  ((option uuid).pair ((option string).pair (frame.pair ((option string).pair bool)))).map
    (fun (id, name, frame, server, lastPlayer) => ⟨id, name, frame, server, lastPlayer⟩)
    fun p => (p.worldId, p.worldName, p.frame, p.server, p.lastPlayer)

def externalSelection : Codec ExternalSelection :=
  (position.pair size).map (fun (p, s) => ⟨p, s⟩) fun e => (e.position, e.size)

def teleportRequest : Codec TeleportRequest :=
  (uuid.pair ((option uuid).pair (string.pair
    (vec3.pair (single.pair (single.pair (vec3.pair (bool.pair bool)))))))).map
    (fun (player, worldId, worldName, ⟨x, y, z⟩, yaw, pitch, ⟨vx, vy, vz⟩, flying, gliding) =>
      ⟨player, worldId, worldName, x, y, z, yaw, pitch, vx, vy, vz, flying, gliding⟩)
    fun r => (r.player, r.worldId, r.worldName, ⟨r.x, r.y, r.z⟩, r.yaw, r.pitch,
      ⟨r.velocityX, r.velocityY, r.velocityZ⟩, r.flying, r.gliding)

def mirrorRequest : Codec MirrorRequest :=
  (uuid.pair externalSelection).map (fun (player, s) => ⟨player, s⟩) fun r =>
    (r.player, r.selection)

def command : Codec Command :=
  union [
    ⟨_, bool.pair block, fun (first, b) => .selectCorner first b,
      fun | .selectCorner first b => some (first, b) | _ => none⟩,
    .constant .selectOrigin (· = .selectOrigin),
    .constant .selectDestination (· = .selectDestination),
    ⟨_, bool.pair bool, fun (twoWay, invert) => .link twoWay invert,
      fun | .link twoWay invert => some (twoWay, invert) | _ => none⟩,
    ⟨_, bool, .linkExternal, fun | .linkExternal invert => some invert | _ => none⟩,
    ⟨_, bool, .removeNearest, fun | .removeNearest other => some other | _ => none⟩,
    ⟨_, option string, .rename, fun | .rename name => some name | _ => none⟩,
    ⟨_, bool, .setAllowsNonPlayers, fun | .setAllowsNonPlayers allow => some allow | _ => none⟩,
    ⟨_, bool, .setSeesThrough, fun | .setSeesThrough enabled => some enabled | _ => none⟩]

def relayMessage : Codec RelayMessage :=
  union [
    ⟨_, teleportRequest, .teleport, fun | .teleport r => some r | _ => none⟩,
    ⟨_, mirrorRequest, .mirrorSelection, fun | .mirrorSelection r => some r | _ => none⟩,
    ⟨_, uint64.pair uuid, fun (id, player) => .getSelection id player,
      fun | .getSelection id player => some (id, player) | _ => none⟩,
    ⟨_, uint64.pair (uuid.pair (option externalSelection)),
      fun (id, player, selection) => .selectionResponse id player selection,
      fun | .selectionResponse id player selection => some (id, player, selection) | _ => none⟩]

def packet : Codec Packet :=
  union [
    ⟨_, uint32.pair uuid, fun (version, player) => .join version player,
      fun | .join version player => some (version, player) | _ => none⟩,
    ⟨_, motion, .move, fun | .move m => some m | _ => none⟩,
    ⟨_, command, .command, fun | .command c => some c | _ => none⟩,
    .constant .leave (· = .leave),
    ⟨_, string.pair motion, fun (world, m) => .joined world m,
      fun | .joined world m => some (world, m) | _ => none⟩,
    ⟨_, string.pair motion, fun (world, m) => .teleported world m,
      fun | .teleported world m => some (world, m) | _ => none⟩,
    ⟨_, string, .transfer, fun | .transfer server => some server | _ => none⟩,
    ⟨_, bool.pair string, fun (success, message) => .commandResult success message,
      fun | .commandResult success message => some (success, message) | _ => none⟩,
    ⟨_, string, .disconnected, fun | .disconnected reason => some reason | _ => none⟩,
    ⟨_, uint32.pair string, fun (version, server) => .register version server,
      fun | .register version server => some (version, server) | _ => none⟩,
    .constant .registered (· = .registered),
    .constant .heartbeat (· = .heartbeat),
    ⟨_, string.pair relayMessage, fun (target, m) => .forward target m,
      fun | .forward target m => some (target, m) | _ => none⟩,
    ⟨_, string.pair relayMessage, fun (source, m) => .deliver source m,
      fun | .deliver source m => some (source, m) | _ => none⟩,
    ⟨_, uuid.pair string, fun (player, target) => .switchServer player target,
      fun | .switchServer player target => some (player, target) | _ => none⟩,
    .constant .notice (· = .notice)]

end Codec

namespace Packet

def encode (p : Packet) : List UInt8 :=
  Codec.packet.write p

/-- What stands behind the packet is ignored. -/
def decode (bytes : List UInt8) : Except WireError Packet :=
  (Codec.packet.read bytes).map (·.1)

end Packet

end PortalNet
