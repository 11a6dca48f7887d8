import PortalNet.Activation
import PortalNet.Packet
import PortalNet.Portal.Archive
import PortalNet.Settings
import PortalNet.Traversal

/-! # A server of the network

A server hosts worlds with their portals, serves players, and speaks with other servers through the
relay. Everything happens in answer to a packet, a tick or a heartbeat; what is to be sent is
returned in order.
-/

namespace PortalNet

structure Backend where
  settings : Settings
  relay : Option Address
  sessions : Store
  registry : Registry
  spawnWorld : World
  /-- Whether the relay has confirmed the registration and not withdrawn it. -/
  relayLinked : Bool := false
  ticks : UInt64 := 0
  /-- Whether arithmetic has overflowed, so that the server does not go on. -/
  crashed : Bool := false

inductive Outgoing where
  | send (addr : Address) (packet : Packet)
  /-- To every player except one. -/
  | broadcast (packet : Packet) (except : Option Handle)
  deriving DecidableEq

inductive StartError where
  | noWorld
  | notAPortalFile
  deriving DecidableEq

def StartError.message : StartError → String
  | noWorld => "At least one world has to be hosted"
  | notAPortalFile => "Portal file is not valid JSON"

inductive BackendEvent where
  | packet (packet : Packet) (addr : Address)
  | playerTimeout (handle : Handle)
  | shutdown
  deriving DecidableEq

namespace Backend

/-- Where players without a known place appear. -/
def spawnPoint : Vec3 Double :=
  ⟨Scalar.half ((1 : Int) : Double), (64 : Int), Scalar.half ((1 : Int) : Double)⟩

/-- Makes the worlds with the first ids of the supply, and reads the portals, if there are any. -/
def start (settings : Settings) (relay : Option Address) (file : Option String)
    (fresh : Nat → Uuid) : Except StartError Backend := do
  let worlds := settings.worlds.zipIdx.map fun (name, i) => (⟨fresh i, name⟩ : World)
  let some spawnWorld := worlds.head? | throw .noWorld
  let portals ← match file with
    | none => pure []
    | some text =>
      match Archive.decode? (fun i => fresh (worlds.length + i)) text with
      | some portals => pure portals
      | none => throw .notAPortalFile
  let empty : Registry := { worlds := worlds.foldl .load {} }
  return {
    settings
    relay
    sessions := .empty settings.maxPlayers
    registry := portals.foldl .register empty
    spawnWorld }

/-- Without a relay the packet is dropped. -/
def toRelay (b : Backend) (packet : Packet) : List Outgoing :=
  b.relay.toList.map (.send · packet)

def spawn (b : Backend) : Avatar :=
  ⟨b.spawnWorld, .standing spawnPoint⟩

/-- The sessions without whoever uses an address. -/
def vacate (b : Backend) (addr : Address) : Store :=
  match b.sessions.byAddress? addr with
  | some handle => (b.sessions.disconnect handle).2
  | none => b.sessions

/-- A join from an address in use replaces whoever was there. -/
def join (b : Backend) (version : UInt32) (player : Uuid) (addr : Address) (now : Nat) :
    Backend × List Outgoing :=
  if version ≠ protocolVersion then
    let reason :=
      s!"Unsupported protocol version {version.toNat}, expected {protocolVersion.toNat}"
    (b, [.send addr (.disconnected reason)])
  else
    match (b.vacate addr).connect player addr b.spawn b.registry.worlds now with
    | (some arrival, sessions) =>
      ({ b with sessions },
        [.send addr (.joined arrival.avatar.world.name arrival.avatar.motion)])
    | (none, sessions) => ({ b with sessions }, [.send addr (.disconnected "Server full")])

/-- Runs a command for the player at an address. -/
def runCommand (b : Backend) (handle : Handle) (command : Command) (addr : Address) (now : Nat)
    (fresh : Nat → Uuid) : Backend × List Outgoing :=
  let outcome :=
    command.execute (b.sessions.modify handle (·.touch now)) b.registry handle fresh
  let b := { b with sessions := outcome.store, registry := outcome.registry }
  match outcome.result with
  | .ok message => (b, [.send addr (.commandResult true message)])
  | .error (.refused e) => (b, [.send addr (.commandResult false e.message)])
  | .error .overflow => ({ b with crashed := true }, [])

def receiveFromPlayer (b : Backend) (packet : Packet) (addr : Address) (now : Nat)
    (fresh : Nat → Uuid) : Backend × List Outgoing :=
  match packet with
  | .join version player => b.join version player addr now
  | _ =>
    match b.sessions.byAddress? addr with
    | none => (b, [])
    | some handle =>
      match packet with
      | .move motion =>
        let change := fun (s : Session) => { s.touch now with avatar := ⟨s.avatar.world, motion⟩ }
        ({ b with sessions := b.sessions.modify handle change }, [])
      | .command command => b.runCommand handle command addr now fresh
      | .heartbeat => ({ b with sessions := b.sessions.modify handle (·.touch now) }, [])
      | .leave => ({ b with sessions := (b.sessions.disconnect handle).2 }, [])
      | _ => (b, [])

/-- Takes over a destination that a player selected elsewhere, and tells the player. -/
def acceptSelection (b : Backend) (source : String) (request : MirrorRequest) :
    Backend × List Outgoing :=
  let (delivery, sessions) := b.sessions.mirror request
  let b := { b with sessions }
  match delivery with
  | .stored => (b, [])
  | .applied handle =>
    (b, (b.sessions.session? handle).toList.map fun s =>
      .send s.addr (.commandResult true s!"Received destination selected on {source}"))

/-- A message of another server. -/
def receiveMessage (b : Backend) (source : String) (message : RelayMessage) :
    Backend × List Outgoing :=
  match message with
  | .teleport request =>
    let (delivery, sessions) := b.sessions.teleport request b.registry.worlds
    let b := { b with sessions }
    match delivery with
    | .stored => (b, [])
    | .applied handle =>
      (b, (b.sessions.session? handle).toList.map fun s =>
        .send s.addr (.teleported s.avatar.world.name s.avatar.motion))
  | .mirrorSelection request => b.acceptSelection source request
  | .getSelection requestId player =>
    match b.sessions.destination? player b.settings.name with
    | .ok selection =>
      (b, b.toRelay (.forward source (.selectionResponse requestId player selection)))
    | .error _ => ({ b with crashed := true }, [])
  | .selectionResponse _ player (some selection) => b.acceptSelection source ⟨player, selection⟩
  | .selectionResponse _ _ none => (b, [])

def receiveFromRelay (b : Backend) (packet : Packet) : Backend × List Outgoing :=
  match packet with
  | .registered => ({ b with relayLinked := true }, [])
  | .deliver source message => b.receiveMessage source message
  | .notice =>
    ({ b with relayLinked := false },
      if b.relayLinked then
        [.broadcast (.commandResult false "Portals to other servers are unavailable") none]
      else [])
  | _ => (b, [])

/-- What comes from the address of the relay is from the relay, and all else from players. -/
def receive (b : Backend) (packet : Packet) (addr : Address) (now : Nat) (fresh : Nat → Uuid) :
    Backend × List Outgoing :=
  if b.relay = some addr then b.receiveFromRelay packet
  else b.receiveFromPlayer packet addr now fresh

def registration (b : Backend) : List Outgoing :=
  b.toRelay (.register protocolVersion b.settings.name)

/-- Keeps the registration alive, and registers again while it is not confirmed. -/
def heartbeat (b : Backend) : List Outgoing :=
  if b.relayLinked then b.toRelay .heartbeat else b.registration

/-- What the journey of a player makes the server send. A player goes to another server behind
their teleport and the request to switch them over. -/
def announce (b : Backend) (s : Session) : Journey → List Outgoing
  | .here _ _ avatar => [.send s.addr (.teleported avatar.world.name avatar.motion)]
  | .away _ _ server request =>
    match b.relay with
    | none => []
    | some relay =>
      request.toList.map (fun r => .send relay (.forward server (.teleport r))) ++
        [.send relay (.switchServer s.player server), .send s.addr (.transfer server)]
  | .stay .. => []

/-- Activation, the clocks of the portals, and then the players in them. -/
def tick (b : Backend) : Backend × List Outgoing :=
  let range : ActivationRange := ⟨b.settings.activation, b.settings.view⟩
  let registry := (b.registry.observe range b.sessions.observers).1
  let registry := registry.update.2
  let (sessions, journeys) := b.sessions.traverse registry b.settings.cooldown
  let b := { b with registry, sessions, ticks := b.ticks + 1 }
  (b, journeys.flatMap fun journey =>
    match b.sessions.session? journey.handle with
    | some s => b.announce s journey
    | none => [])

/-- The players that have been silent for too long, each of whom is then to time out. -/
def silent (b : Backend) (now : Nat) : List Handle :=
  b.sessions.silent now b.settings.playerTimeout

/-- Handles one event, and answers whether the server goes on. -/
def handle (b : Backend) (event : BackendEvent) (now : Nat) (fresh : Nat → Uuid) :
    Bool × Backend × List Outgoing :=
  match event with
  | .packet packet addr =>
    let (b, out) := b.receive packet addr now fresh
    (!b.crashed, b, out)
  | .playerTimeout handle =>
    (true, { b with sessions := (b.sessions.disconnect handle).2 }, [])
  | .shutdown => (false, b, [])

/-- What is sent before the server stops. -/
def farewell (b : Backend) : List Outgoing :=
  (b.sessions.sessions.values.map fun s => .send s.addr (.disconnected "Server shutting down")) ++
    b.toRelay .notice

/-- The file that the server leaves behind. -/
def file (b : Backend) : String :=
  Archive.encode b.registry.all

/-- Where the packets in `out` go: a broadcast goes to each player that is connected now. -/
def letters (b : Backend) (out : List Outgoing) : List (Address × Packet) :=
  out.flatMap fun
    | .send addr packet => [(addr, packet)]
    | .broadcast packet except =>
      (b.sessions.sessions.values.filter fun s => some s.handle ≠ except).map fun s =>
        (s.addr, packet)

end Backend

end PortalNet
