import PortalNet.Floating.Arithmetic

/-! # Settings

What a server and a relay can be told when they start. Durations are in nanoseconds.
-/

namespace PortalNet

def second : Nat := 10 ^ 9

/-- The length of a tick at a rate per second. A rate of zero counts as one. -/
def tickDuration (rate : UInt32) : Nat :=
  let rate : Int := max rate.toNat 1
  (((1 : Int) : Double) / (rate : Double)).nearestMultiple second

structure Settings where
  bind : String := "127.0.0.1:25600"
  /-- Without a relay, portals to other servers lead nowhere. -/
  relay : Option String := none
  /-- Under which name other servers know this one. -/
  name : String := "default"
  tick : Nat := tickDuration 20
  file : String := "portals.json"
  /-- The first world is the one in which new players appear. -/
  worlds : List String := ["world", "world_nether"]
  activation : Double := (16 : Int)
  view : Double := (8 : Int)
  maxPlayers : Nat := 64
  warnOnMissingSelection : Bool := true
  playerTimeout : Nat := 10 * second
  heartbeat : Nat := 2 * second
  /-- For how many ticks portals leave a player alone whom one has moved. -/
  cooldown : UInt32 := 20

structure RelaySettings where
  bind : String := "127.0.0.1:25500"
  serverTimeout : Nat := 10 * second

end PortalNet
