import PortalNet.Backend.Loop
import PortalNet.Options
import PortalNet.Portal.Storage
import PortalNet.Relay.Loop
import PortalNet.Wire.Packet
import Std.Async.DNS
import Std.Async.Signal
import Std.Async.Timer
import Std.Async.UDP

/-! # The program

Runs a server or a relay on a datagram socket until it is interrupted. All decisions are made by
`BackendLoop` and `RelayLoop`, which keep the queue of what is still to be handled; this module
waits for what happens, tells them, and sends what they answer.
-/

namespace PortalNet.Program

open Std.Async Std.Net

def ofSocket : SocketAddress → Address
  | .v4 a => ⟨.v4 a.addr.octets, a.port⟩
  | .v6 a => ⟨.v6 a.addr.segments 0, a.port⟩

def toSocket (a : Address) : SocketAddress :=
  match a.host with
  | .v4 parts => .v4 ⟨⟨parts⟩, a.port⟩
  | .v6 groups _ => .v6 ⟨⟨groups⟩, a.port⟩

/-- An address as it is written, or the first one that its host is known by. -/
def resolve (text : String) : IO Address := do
  if let some a := Address.ofString? text then return a
  let cs := text.toList.reverse
  let host := String.ofList (cs.dropWhile (· ≠ ':')).tail.reverse
  let port := String.ofList (cs.takeWhile (· ≠ ':')).reverse
  let found ← (DNS.getAddrInfo host port).block
  match found.toList.head?, Options.whole? (2 ^ 16) port with
  | some (.v4 ip), some n => return ⟨.v4 ip.octets, .ofNat n⟩
  | some (.v6 ip), some n => return ⟨.v6 ip.segments 0, .ofNat n⟩
  | _, _ => throw (IO.userError s!"Could not resolve address {text}")

/-- A supply of ids from random bytes. -/
def freshIds : IO (Nat → Uuid) := do
  let seed := (← IO.getRandomBytes 16).data.foldl (fun n b => 256 * n + b.toNat) 0
  return fun i => .version4 (seed + i)

/-- What the program can be woken by. -/
inductive Happening where
  | datagram (bytes : ByteArray) (sender : Option SocketAddress)
  | pulse
  | interrupt

abbrev Awaited := Task (Except IO.Error Happening)

structure Endpoint where
  socket : UDP.Socket
  interrupts : Signal.Waiter
  /-- The time between two pulses. -/
  period : Std.Time.Millisecond.Offset

namespace Endpoint

def listen (place : String) (period : Nat) : IO Endpoint := do
  let socket ← UDP.Socket.mk
  socket.bind (toSocket (← resolve place))
  return ⟨socket, ← Signal.Waiter.mk .sigint true, .ofNat (max 1 (period / 1000000))⟩

/-- A packet that cannot be sent is lost, like one that does not arrive. -/
def send (e : Endpoint) (letters : List Letter) : IO Unit := do
  for (addr, packet) in letters do
    try (e.socket.send ⟨packet.encode.toArray⟩ (some (toSocket addr))).block
    catch error => IO.eprintln s!"Failed to send packet to {addr}: {error}"

def datagram (e : Endpoint) : IO Awaited := do
  return (← (e.socket.recv maxDatagram.toUInt64).toIO).map fun (bytes, sender) =>
    .datagram bytes sender

def pulse (e : Endpoint) : IO Awaited := do
  return (← (sleep e.period).toIO).map fun _ => .pulse

def interrupt (e : Endpoint) : IO Awaited := do
  return (← e.interrupts.wait).map fun _ => .interrupt

end Endpoint

/-- Bytes that are no packet, and those without a sender, go unanswered. -/
def received (bytes : ByteArray) (sender : Option SocketAddress) : Option (Packet × Address) := do
  let sender ← sender
  let packet ← (Packet.decode bytes.data.toList).toOption
  return (packet, ofSocket sender)

/-- What a state does when the program is woken, and when the first event in its queue has its
turn. -/
structure Reactions (State : Type) where
  packet : State → Packet → Address → State
  pulse : State → IO State
  interrupt : State → State
  turn : State → IO State
  /-- Whether no event waits. -/
  isIdle : State → Bool
  goesOn : State → Bool

/-- Takes note of all that happens, in the order in which it does, and gives one event its turn in
between, until there are no turns any more. What has happened is awaited again at once, and the rest
stays awaited; an interrupt comes once. -/
def Reactions.run {State : Type} (react : Reactions State) (e : Endpoint) (start : State) :
    IO State := do
  let mut state := start
  let mut datagram ← e.datagram
  let mut pulse ← e.pulse
  let mut interrupt := some (← e.interrupt)
  while react.goesOn state do
    let (first, rest) := match interrupt with
      | some interrupt => (interrupt, [pulse, datagram])
      | none => (pulse, [datagram])
    if ← pure (react.isIdle state) <||> (first :: rest).anyM (IO.hasFinished ·) then
      match ← IO.ofExcept (← IO.waitAny (first :: rest)) with
      | .interrupt =>
        interrupt := none
        state := react.interrupt state
      | .pulse =>
        pulse ← e.pulse
        state ← react.pulse state
      | .datagram bytes sender =>
        datagram ← e.datagram
        if let some (packet, addr) := received bytes sender then
          state := react.packet state packet addr
    state ← react.turn state
  return state

/-- How often silence is looked for. -/
def patrol : Nat := second

def relay (settings : RelaySettings) : IO Unit := do
  let endpoint ← Endpoint.listen settings.bind patrol
  let reactions : Reactions RelayLoop :=
    { packet := .arrive
      pulse := fun l => return l.evict (← IO.monoNanosNow) settings.serverTimeout
      interrupt := .stop
      turn := fun l => do
        let (l, letters) := l.turn (← IO.monoNanosNow)
        endpoint.send letters
        return l
      isIdle := (·.queue.isEmpty)
      goesOn := (·.running) }
  let l ← reactions.run endpoint {}
  endpoint.send l.relay.farewell

/-- The contents of a file, if there is one. -/
def contents? (file : String) : IO (Option String) := do
  try return some (← IO.FS.readFile file)
  catch
    | .noFileOrDirectory .. => return none
    | error => throw error

/-- Replaces a file once its new contents are complete. -/
def replaceFile (file contents : String) : IO Unit := do
  let path := DiskPath.ofString file
  if let some folder := path.parent? then IO.FS.createDirAll (toString folder)
  let staging := toString (Storage.staging path)
  IO.FS.writeFile staging contents
  IO.FS.rename staging file

/-- A server that runs, and when its next heartbeat and its next patrol are due. -/
structure Watch where
  loop : BackendLoop
  heartbeatAt : Nat
  patrolAt : Nat

/-- A server that has crashed neither says farewell nor leaves a file behind. -/
def server (settings : Settings) : IO Unit := do
  let endpoint ← Endpoint.listen settings.bind settings.tick
  let relayAddress ← settings.relay.mapM resolve
  let start := Backend.start settings relayAddress (← contents? settings.file) (← freshIds)
  let backend ← IO.ofExcept (start.mapError fun e => IO.userError e.message)
  endpoint.send (backend.letters backend.registration)
  let reactions : Reactions Watch :=
    { packet := fun w packet addr => { w with loop := w.loop.arrive packet addr }
      pulse := fun w => do
        let (loop, out) := w.loop.tick
        endpoint.send (loop.backend.letters out)
        let mut w := { w with loop }
        let now ← IO.monoNanosNow
        if w.heartbeatAt ≤ now then
          endpoint.send (w.loop.backend.letters w.loop.backend.heartbeat)
          w := { w with heartbeatAt := now + settings.heartbeat }
        if w.patrolAt ≤ now then
          w := { w with loop := w.loop.patrol now, patrolAt := now + patrol }
        return w
      interrupt := fun w => { w with loop := w.loop.stop }
      turn := fun w => do
        let (loop, out) := w.loop.turn (← IO.monoNanosNow) (← freshIds)
        endpoint.send (loop.backend.letters out)
        return { w with loop }
      isIdle := (·.loop.queue.isEmpty)
      goesOn := (·.loop.running) }
  let now ← IO.monoNanosNow
  let w ← reactions.run endpoint ⟨{ backend }, now, now + patrol⟩
  let backend := w.loop.backend
  if backend.crashed then throw (IO.userError "Arithmetic overflow")
  endpoint.send (backend.letters backend.farewell)
  replaceFile settings.file backend.file

def run (arguments : List String) : IO UInt32 := do
  match Role.ofArguments arguments with
  | .error e =>
    IO.eprintln e.message
    return 2
  | .ok role =>
    try
      match role with
      | .server settings => server settings
      | .relay settings => relay settings
      return 0
    catch error =>
      IO.eprintln s!"{error}"
      return 1

end PortalNet.Program

def main (arguments : List String) : IO UInt32 :=
  PortalNet.Program.run arguments
