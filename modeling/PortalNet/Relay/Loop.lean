import PortalNet.Relay

/-! # The relay at work

Packets and timeouts wait in one queue and are handled in turn, while silent servers are evicted at
any time, so that what follows from an eviction is done later than the eviction.
-/

namespace PortalNet

/-- A relay, the events that wait for it, and whether it still takes any. -/
structure RelayLoop where
  relay : Relay := {}
  queue : List RelayEvent := []
  running : Bool := true

namespace RelayLoop

def arrive (l : RelayLoop) (packet : Packet) (addr : Address) : RelayLoop :=
  { l with queue := l.queue ++ [.packet packet addr] }

def stop (l : RelayLoop) : RelayLoop :=
  { l with queue := l.queue ++ [.shutdown] }

/-- A timeout is put in the queue for every server that is evicted. -/
def evict (l : RelayLoop) (now limit : Nat) : RelayLoop :=
  let (names, relay) := l.relay.evict now limit
  { l with relay, queue := l.queue ++ names.map .serverTimeout }

/-- The first event is handled. -/
def turn (l : RelayLoop) (now : Nat) : RelayLoop × List Letter :=
  match l.running, l.queue with
  | true, event :: queue =>
    let (running, relay, letters) := l.relay.handle event now
    ({ relay, queue, running }, letters)
  | _, _ => (l, [])

end RelayLoop

end PortalNet
