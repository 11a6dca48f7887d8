import PortalNet.Packet
import PortalNet.Portal.Record

/-! # Packets as JSON

The readable form of packets, for logs and tools; on the network packets are bytes. A variant is an
object with one member, or a name alone if it holds nothing.
-/

namespace PortalNet

open Json

instance {α : Type} [ToJson α] : ToJson (Vec3 α) where
  toJson v := object [("x", .of v.x), ("y", .of v.y), ("z", .of v.z)]

instance {α : Type} [OfJson α] : OfJson (Vec3 α) where
  ofJson? j := do
    let [x, y, z] ← j.allFields? ["x", "y", "z"] | none
    return ⟨← field? x, ← field? y, ← field? z⟩

instance : ToJson Block where
  toJson b := object [("x", .of b.x), ("y", .of b.y), ("z", .of b.z)]

instance : OfJson Block where
  ofJson? j := do
    let [x, y, z] ← j.allFields? ["x", "y", "z"] | none
    return ⟨← field? x, ← field? y, ← field? z⟩

instance : ToJson PlayerMotion where
  toJson m := object [
    ("position", .of m.position), ("yaw", .of m.yaw), ("pitch", .of m.pitch),
    ("velocity", .of m.velocity), ("flying", .of m.flying), ("gliding", .of m.gliding)]

instance : OfJson PlayerMotion where
  ofJson? j := do
    let [position, yaw, pitch, velocity, flying, gliding] ←
      j.allFields? ["position", "yaw", "pitch", "velocity", "flying", "gliding"] | none
    return ⟨← field? position, ← field? yaw, ← field? pitch, ← field? velocity, ← field? flying,
      ← field? gliding⟩

instance : ToJson ExternalSelection where
  toJson s := object [("position", .of s.position), ("size", .of s.size)]

instance : OfJson ExternalSelection where
  ofJson? j := do
    let [position, size] ← j.allFields? ["position", "size"] | none
    return ⟨← field? position, ← field? size⟩

instance : ToJson TeleportRequest where
  toJson r := object [
    ("player_id", .of r.player), ("dest_world_id", .of r.worldId),
    ("dest_world_name", .of r.worldName),
    ("dest_x", .of r.x), ("dest_y", .of r.y), ("dest_z", .of r.z),
    ("dest_yaw", .of r.yaw), ("dest_pitch", .of r.pitch),
    ("dest_vel_x", .of r.velocityX), ("dest_vel_y", .of r.velocityY),
    ("dest_vel_z", .of r.velocityZ),
    ("is_flying", .of r.flying), ("is_gliding", .of r.gliding)]

instance : OfJson TeleportRequest where
  ofJson? j := do
    let [player, worldId, worldName, x, y, z, yaw, pitch, vx, vy, vz, flying, gliding] ←
      j.allFields? ["player_id", "dest_world_id", "dest_world_name", "dest_x", "dest_y", "dest_z",
        "dest_yaw", "dest_pitch", "dest_vel_x", "dest_vel_y", "dest_vel_z", "is_flying",
        "is_gliding"] | none
    return {
      player := ← field? player, worldId := ← field? worldId, worldName := ← field? worldName
      x := ← field? x, y := ← field? y, z := ← field? z
      yaw := ← field? yaw, pitch := ← field? pitch
      velocityX := ← field? vx, velocityY := ← field? vy, velocityZ := ← field? vz
      flying := ← field? flying, gliding := ← field? gliding }

instance : ToJson MirrorRequest where
  toJson r := object [("player_id", .of r.player), ("selection", .of r.selection)]

instance : OfJson MirrorRequest where
  ofJson? j := do
    let [player, selection] ← j.allFields? ["player_id", "selection"] | none
    return ⟨← field? player, ← field? selection⟩

instance : ToJson Command where
  toJson
    | .selectCorner first b =>
      variant "SelectCorner" (object [("first", .of first), ("position", .of b)])
    | .selectOrigin => string "SelectOrigin"
    | .selectDestination => string "SelectDestination"
    | .link twoWay invert =>
      variant "Link" (object [("two_way", .of twoWay), ("invert", .of invert)])
    | .linkExternal invert => variant "LinkExternal" (object [("invert", .of invert)])
    | .removeNearest other =>
      variant "RemoveNearest" (object [("remove_destination", .of other)])
    | .rename name => variant "Rename" (object [("name", .of name)])
    | .setAllowsNonPlayers allow =>
      variant "SetAllowNonPlayerTeleportation" (object [("allow", .of allow)])
    | .setSeesThrough enabled => variant "SetSeeThrough" (object [("enabled", .of enabled)])

instance : OfJson Command where
  ofJson? j := do
    let (name, content) ← j.variant?
    match name with
    | "SelectCorner" =>
      let [first, b] ← (← content).memberFields? ["first", "position"] | none
      return .selectCorner (← field? first) (← field? b)
    | "SelectOrigin" => bare? .selectOrigin content
    | "SelectDestination" => bare? .selectDestination content
    | "Link" =>
      let [twoWay, invert] ← (← content).memberFields? ["two_way", "invert"] | none
      return .link (← field? twoWay) (← field? invert)
    | "LinkExternal" =>
      let [invert] ← (← content).memberFields? ["invert"] | none
      return .linkExternal (← field? invert)
    | "RemoveNearest" =>
      let [other] ← (← content).memberFields? ["remove_destination"] | none
      return .removeNearest (← field? other)
    | "Rename" =>
      let [name] ← (← content).memberFields? ["name"] | none
      return .rename (← field? name)
    | "SetAllowNonPlayerTeleportation" =>
      let [allow] ← (← content).memberFields? ["allow"] | none
      return .setAllowsNonPlayers (← field? allow)
    | "SetSeeThrough" =>
      let [enabled] ← (← content).memberFields? ["enabled"] | none
      return .setSeesThrough (← field? enabled)
    | _ => none

instance : ToJson RelayMessage where
  toJson
    | .teleport r => variant "Teleport" (.of r)
    | .mirrorSelection r => variant "MirrorSelection" (.of r)
    | .getSelection requestId player =>
      variant "GetSelection" (object [("request_id", .of requestId), ("player_id", .of player)])
    | .selectionResponse requestId player selection =>
      variant "SelectionResponse" (object [
        ("request_id", .of requestId), ("player_id", .of player), ("selection", .of selection)])

instance : OfJson RelayMessage where
  ofJson? j := do
    let (name, content) ← j.variant?
    let content ← content
    match name with
    | "Teleport" => return .teleport (← content.read?)
    | "MirrorSelection" => return .mirrorSelection (← content.read?)
    | "GetSelection" =>
      let [requestId, player] ← content.memberFields? ["request_id", "player_id"] | none
      return .getSelection (← field? requestId) (← field? player)
    | "SelectionResponse" =>
      let [requestId, player, selection] ←
        content.memberFields? ["request_id", "player_id", "selection"] | none
      return .selectionResponse (← field? requestId) (← field? player) (← field? selection)
    | _ => none

instance : ToJson Packet where
  toJson
    | .join version player =>
      variant "Join" (object [("client_version", .of version), ("player_id", .of player)])
    | .move motion => variant "Move" (object [("motion", .of motion)])
    | .command c => variant "Command" (.of c)
    | .leave => string "Leave"
    | .joined worldName motion =>
      variant "Joined" (object [("world_name", .of worldName), ("motion", .of motion)])
    | .teleported worldName motion =>
      variant "Teleported" (object [("world_name", .of worldName), ("motion", .of motion)])
    | .transfer server => variant "Transfer" (object [("server_name", .of server)])
    | .commandResult success message =>
      variant "CommandResult" (object [("success", .of success), ("message", .of message)])
    | .disconnected reason => variant "Disconnected" (object [("reason", .of reason)])
    | .register version server =>
      variant "Register" (object [("client_version", .of version), ("server_name", .of server)])
    | .registered => string "Registered"
    | .heartbeat => string "Heartbeat"
    | .forward target message =>
      variant "Forward" (object [("target_server", .of target), ("message", .of message)])
    | .deliver source message =>
      variant "Deliver" (object [("source_server", .of source), ("message", .of message)])
    | .switchServer player target =>
      variant "SwitchServer" (object [("player_id", .of player), ("target_server", .of target)])
    | .notice => variant "Notice" null

instance : OfJson Packet where
  ofJson? j := do
    let (name, content) ← j.variant?
    match name with
    | "Join" =>
      let [version, player] ← (← content).memberFields? ["client_version", "player_id"] | none
      return .join (← field? version) (← field? player)
    | "Move" =>
      let [motion] ← (← content).memberFields? ["motion"] | none
      return .move (← field? motion)
    | "Command" => return .command (← (← content).read?)
    | "Leave" => bare? .leave content
    | "Joined" =>
      let [worldName, motion] ← (← content).memberFields? ["world_name", "motion"] | none
      return .joined (← field? worldName) (← field? motion)
    | "Teleported" =>
      let [worldName, motion] ← (← content).memberFields? ["world_name", "motion"] | none
      return .teleported (← field? worldName) (← field? motion)
    | "Transfer" =>
      let [server] ← (← content).memberFields? ["server_name"] | none
      return .transfer (← field? server)
    | "CommandResult" =>
      let [success, message] ← (← content).memberFields? ["success", "message"] | none
      return .commandResult (← field? success) (← field? message)
    | "Disconnected" =>
      let [reason] ← (← content).memberFields? ["reason"] | none
      return .disconnected (← field? reason)
    | "Register" =>
      let [version, server] ← (← content).memberFields? ["client_version", "server_name"] | none
      return .register (← field? version) (← field? server)
    | "Registered" => bare? .registered content
    | "Heartbeat" => bare? .heartbeat content
    | "Forward" =>
      let [target, message] ← (← content).memberFields? ["target_server", "message"] | none
      return .forward (← field? target) (← field? message)
    | "Deliver" =>
      let [source, message] ← (← content).memberFields? ["source_server", "message"] | none
      return .deliver (← field? source) (← field? message)
    | "SwitchServer" =>
      let [player, target] ← (← content).memberFields? ["player_id", "target_server"] | none
      return .switchServer (← field? player) (← field? target)
    | "Notice" =>
      match content with
      | some null => return .notice
      | _ => none
    | _ => none

end PortalNet
