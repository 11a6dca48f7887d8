import PortalNet.Packet
import PortalNet.Relay.Directory

/-! # The relay

The relay routes what servers have to say to each other and knows nothing of portals. When a player
switches servers it asks the old server what the player selected there, and passes the answer on to
the new one; while the answer is out, the lookup remembers the two.
-/

namespace PortalNet

/-- A question for the selections of a player who switches servers. -/
structure Lookup where
  player : Uuid
  source : String
  target : String
  deriving DecidableEq

def Lookup.involves (l : Lookup) (server : String) : Bool :=
  l.source = server || l.target = server

structure Relay where
  directory : Directory := {}
  lookups : Table UInt64 Lookup := ∅
  nextRequest : UInt64 := 1

/-- A packet and where it goes. -/
abbrev Letter := Address × Packet

inductive RelayEvent where
  | packet (packet : Packet) (addr : Address)
  | serverTimeout (name : String)
  | shutdown
  deriving DecidableEq

namespace Relay

/-- A message to a server that is not registered is dropped. -/
def deliver (r : Relay) (source target : String) (message : RelayMessage) : List Letter :=
  match r.directory.addressOf? target with
  | some addr => [(addr, .deliver source message)]
  | none => []

/-- Drops the lookups that can no longer be answered or passed on. -/
def forget (r : Relay) (server : String) : Relay :=
  { r with lookups := r.lookups.filter fun _ l => !l.involves server }

def register (r : Relay) (version : UInt32) (name : String) (addr : Address) (now : Nat) :
    Relay × List Letter :=
  if version ≠ protocolVersion then (r, [])
  else
    let r := match r.directory.nameAt? addr with
      | some previous => if previous = name then r else r.forget previous
      | none => r
    ({ r with directory := (r.directory.register name addr now).2 }, [(addr, .registered)])

/-- The answer to a lookup becomes a request to the server that the lookup was made for; every
other message goes where it is addressed to. -/
def forward (r : Relay) (source target : String) (message : RelayMessage) :
    Relay × List Letter :=
  match message with
  | .selectionResponse requestId player selection =>
    match r.lookups.get? requestId with
    | some lookup =>
      let r := { r with lookups := r.lookups.erase requestId }
      match selection with
      | some selection =>
        (r, r.deliver source lookup.target (.mirrorSelection ⟨player, selection⟩))
      | none => (r, [])
    | none => (r, r.deliver source target message)
  | _ => (r, r.deliver source target message)

/-- Asks the server that a player leaves, in the name of the one that the player goes to. -/
def switch (r : Relay) (source : String) (addr : Address) (player : Uuid) (target : String) :
    Relay × List Letter :=
  match r.directory.get? target with
  | none => (r, [])
  | some _ =>
    let id := r.nextRequest
    ({ r with
        lookups := r.lookups.insert id ⟨player, source, target⟩
        nextRequest := id + 1 },
      [(addr, .deliver target (.getSelection id player))])

/-- A packet from the server that is registered as `source`. -/
def receiveFrom (r : Relay) (source : String) (packet : Packet) (addr : Address) :
    Relay × List Letter :=
  match packet with
  | .forward target message => r.forward source target message
  | .switchServer player target => r.switch source addr player target
  | .notice => ({ r with directory := (r.directory.deregister source).2 }.forget source, [])
  | _ => (r, [])

/-- Any packet keeps a registered server alive. Anyone else who sends more than a registration is
told that they are not registered. -/
def receive (r : Relay) (packet : Packet) (addr : Address) (now : Nat) : Relay × List Letter :=
  match packet with
  | .register version name => r.register version name addr now
  | _ =>
    let r := { r with directory := (r.directory.heartbeat addr now).2 }
    match r.directory.nameAt? addr with
    | some source => r.receiveFrom source packet addr
    | none => (r, [(addr, .notice)])

/-- Removes silent servers; each of the names is then to be handled as a timeout. -/
def evict (r : Relay) (now limit : Nat) : List String × Relay :=
  let (names, directory) := r.directory.evict now limit
  (names, { r with directory })

/-- Handles one event, and answers whether the relay goes on. -/
def handle (r : Relay) (event : RelayEvent) (now : Nat) : Bool × Relay × List Letter :=
  match event with
  | .packet packet addr => (true, r.receive packet addr now)
  | .serverTimeout name => (true, r.forget name, [])
  | .shutdown => (false, r, [])

/-- What is sent before the relay stops. -/
def farewell (r : Relay) : List Letter :=
  r.directory.all.map fun (_, addr) => (addr, .notice)

end Relay

end PortalNet
