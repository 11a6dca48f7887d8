import PortalNet.Backend

/-! # The server at work

Packets and timeouts wait in one queue and are handled in turn, between ticks, while silent players
are looked for at any time, so that what follows from a player's silence is done later than the
silence was noticed.
-/

namespace PortalNet

/-- A server, the events that wait for it, and whether it still takes any. -/
structure BackendLoop where
  backend : Backend
  queue : List BackendEvent := []
  running : Bool := true

namespace BackendLoop

def arrive (l : BackendLoop) (packet : Packet) (addr : Address) : BackendLoop :=
  { l with queue := l.queue ++ [.packet packet addr] }

def stop (l : BackendLoop) : BackendLoop :=
  { l with queue := l.queue ++ [.shutdown] }

/-- A timeout is put in the queue for every silent player. -/
def patrol (l : BackendLoop) (now : Nat) : BackendLoop :=
  { l with queue := l.queue ++ (l.backend.silent now).map .playerTimeout }

/-- The first event is handled. -/
def turn (l : BackendLoop) (now : Nat) (fresh : Nat → Uuid) : BackendLoop × List Outgoing :=
  match l.running, l.queue with
  | true, event :: queue =>
    let (running, backend, out) := l.backend.handle event now fresh
    ({ backend, queue, running }, out)
  | _, _ => (l, [])

def tick (l : BackendLoop) : BackendLoop × List Outgoing :=
  if l.running then
    let (backend, out) := l.backend.tick
    ({ l with backend }, out)
  else (l, [])

end BackendLoop

end PortalNet
