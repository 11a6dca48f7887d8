import PortalNet.Command

/-! # Packets

Everything that players, servers and the relay say to each other. What one server has to say to
another travels inside a packet to the relay and a packet from it.
-/

namespace PortalNet

def protocolVersion : UInt32 := 1

/-- No packet is longer than this many bytes. -/
def maxDatagram : Nat := 8192

/-- From one server to another. -/
inductive RelayMessage where
  | teleport (request : TeleportRequest)
  | mirrorSelection (request : MirrorRequest)
  | getSelection (requestId : UInt64) (player : Uuid)
  | selectionResponse (requestId : UInt64) (player : Uuid) (selection : Option ExternalSelection)
  deriving DecidableEq

inductive Packet where
  -- from a player
  | join (version : UInt32) (player : Uuid)
  | move (motion : PlayerMotion)
  | command (command : Command)
  | leave
  -- to a player
  | joined (worldName : String) (motion : PlayerMotion)
  | teleported (worldName : String) (motion : PlayerMotion)
  | transfer (server : String)
  | commandResult (success : Bool) (message : String)
  | disconnected (reason : String)
  -- between a server and the relay
  | register (version : UInt32) (server : String)
  | registered
  | heartbeat
  | forward (target : String) (message : RelayMessage)
  | deliver (source : String) (message : RelayMessage)
  | switchServer (player : Uuid) (target : String)
  | notice
  deriving DecidableEq

end PortalNet
