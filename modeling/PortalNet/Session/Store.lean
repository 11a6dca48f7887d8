import PortalNet.Session.Basic

/-! # The session store

Everything that a server keeps by player. Requests of other servers race with the player they are
about: one that comes early is parked and takes effect when the player connects. A player who
leaves leaves behind their selections and their place, both of which wait for their return.
-/

namespace PortalNet

structure Store where
  sessions : Table Handle Session := ∅
  /-- The handle of each connected player. -/
  handles : Table Uuid Handle := ∅
  pendingTeleports : Table Uuid TeleportRequest := ∅
  pendingSelections : Table Uuid ExternalSelection := ∅
  retained : Table Uuid Selections := ∅
  /-- Where each player who left last stood. -/
  lastPlaces : Table Uuid Avatar := ∅
  nextHandle : Handle := 1
  capacity : Nat

/-- What came of connecting. -/
structure Arrival where
  handle : Handle
  /-- Where the player appears. -/
  avatar : Avatar
  /-- The session of the same player that made room for this one. -/
  replaced : Option Handle
  restoredSelection : Bool
  appliedTeleport : Bool
  appliedSelection : Bool
  deriving DecidableEq

/-- What came of a request of another server. -/
inductive Delivery where
  | applied (handle : Handle)
  | stored
  deriving DecidableEq

namespace Store

def empty (capacity : Nat) : Store where
  capacity

def session? (s : Store) (handle : Handle) : Option Session :=
  s.sessions.get? handle

def handleOf? (s : Store) (player : Uuid) : Option Handle :=
  s.handles.get? player

def byPlayer? (s : Store) (player : Uuid) : Option Session := do
  s.session? (← s.handleOf? player)

def byAddress? (s : Store) (addr : Address) : Option Handle :=
  (s.sessions.values.find? (·.addr = addr)).map (·.handle)

def modify (s : Store) (handle : Handle) (f : Session → Session) : Store :=
  { s with sessions := s.sessions.modify handle f }

/-- Closes a session. A handle that is not in use changes nothing. -/
def disconnect (s : Store) (handle : Handle) : Option Session × Store :=
  match s.session? handle with
  | none => (none, s)
  | some session =>
    (some { session with selections := {} },
      { s with
        sessions := s.sessions.erase handle
        handles :=
          if s.handleOf? session.player = some handle then s.handles.erase session.player
          else s.handles
        retained := s.retained.insert session.player session.selections
        lastPlaces := s.lastPlaces.insert session.player session.avatar })

/-- Closes the session of a player, if there is one. -/
def leave (s : Store) (player : Uuid) : Store :=
  match s.handleOf? player with
  | some handle => (s.disconnect handle).2
  | none => s

/-- The session that a player starts with: at their last place or else at the spawn, moved by a
parked teleport, with their old selections and a parked destination. -/
def opening (s : Store) (player : Uuid) (addr : Address) (spawn : Avatar) (ws : Worlds)
    (now : Nat) : Session :=
  let session : Session := {
    handle := s.nextHandle
    player
    addr
    avatar := (s.lastPlaces.get? player).getD spawn
    selections := (s.retained.get? player).getD {}
    lastSeen := now }
  let session := match s.pendingTeleports.get? player with
    | some request => session.teleport request ws
    | none => session
  match s.pendingSelections.get? player with
  | some selection => session.receiveSelection selection
  | none => session

/-- Adds a session and consumes what was kept for its player. -/
def accept (s : Store) (session : Session) : Store :=
  { s with
    sessions := s.sessions.insert session.handle session
    handles := s.handles.insert session.player session.handle
    pendingTeleports := s.pendingTeleports.erase session.player
    pendingSelections := s.pendingSelections.erase session.player
    retained := s.retained.erase session.player
    lastPlaces := s.lastPlaces.erase session.player
    nextHandle := s.nextHandle + 1 }

/-- Opens a session, closing an older one of the same player first. A full server refuses. -/
def connect (s : Store) (player : Uuid) (addr : Address) (spawn : Avatar) (ws : Worlds)
    (now : Nat) : Option Arrival × Store :=
  let replaced := s.handleOf? player
  let s := s.leave player
  if s.capacity ≤ s.sessions.size then (none, s)
  else
    let session := s.opening player addr spawn ws now
    (some {
        handle := session.handle
        avatar := session.avatar
        replaced
        restoredSelection := s.retained.contains player
        appliedTeleport := s.pendingTeleports.contains player
        appliedSelection := s.pendingSelections.contains player },
      s.accept session)

/-- Moves a connected player; for anyone else the latest request is parked. -/
def teleport (s : Store) (request : TeleportRequest) (ws : Worlds) : Delivery × Store :=
  match s.byPlayer? request.player with
  | some session => (.applied session.handle, s.modify session.handle (·.teleport request ws))
  | none =>
    (.stored,
      { s with pendingTeleports := s.pendingTeleports.insert request.player request })

/-- Gives a destination to a connected player; for anyone else the latest one is parked. -/
def mirror (s : Store) (request : MirrorRequest) : Delivery × Store :=
  match s.byPlayer? request.player with
  | some session =>
    (.applied session.handle, s.modify session.handle (·.receiveSelection request.selection))
  | none =>
    (.stored,
      { s with
        pendingSelections := s.pendingSelections.insert request.player request.selection })

/-- What a player has selected here, whether they are still connected or have left. -/
def selections? (s : Store) (player : Uuid) : Option Selections :=
  ((s.byPlayer? player).map (·.selections)).or (s.retained.get? player)

/-- The destination that a player selected here, in the form for other servers. -/
def destination? (s : Store) (player : Uuid) (server : String) :
    Except Failure (Option ExternalSelection) :=
  match s.selections? player with
  | some selections => selections.externalForm? server
  | none => return none

/-- The sessions that have been silent for longer than the limit. -/
def silent (s : Store) (now limit : Nat) : List Handle :=
  (s.sessions.values.filter (·.isSilent now limit)).map (·.handle)

end Store

end PortalNet
