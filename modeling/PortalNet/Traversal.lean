import PortalNet.Registry.Basic
import PortalNet.Session.Store

/-! # Traversal

Moving the players who stand in the window of a portal. Whoever was moved is left alone for some
ticks, so that the portal behind them does not take them back at once.
-/

namespace PortalNet

/-- What a tick did to one player. -/
inductive Journey where
  /-- Moved within this server. -/
  | here (handle : Handle) (portal : Uuid) (avatar : Avatar)
  /-- Goes on to another server, to where the request says or wherever they last stood there. -/
  | away (handle : Handle) (portal : Uuid) (server : String) (request : Option TeleportRequest)
  /-- Stands in a portal that does not move players. -/
  | stay (handle : Handle) (portal : Uuid)
  deriving DecidableEq

def Journey.handle : Journey → Handle
  | here handle .. | away handle .. | stay handle .. => handle

namespace Registry

/-- The portal in whose window a player stands. -/
def entered? (r : Registry) (a : Avatar) : Option Portal :=
  r.all.find? fun p =>
    match p.origin.world? r.worlds with
    | some w => w.id = a.world.id ∧ p.origin.position.frame.Contains p.size a.motion.position
    | none => false

end Registry

namespace Session

/-- Through the portal `p`. A destination in a world that is not loaded leaves the player where
they are. -/
def enter (s : Session) (r : Registry) (p : Portal) : Session × Option Journey :=
  if !p.relocatesPlayers then (s, some (.stay s.handle p.id))
  else
    let dest := p.dest.position
    let motion := p.origin.position.frame.carry dest.frame s.avatar.motion
    match dest.server with
    | some server =>
      let request := TeleportRequest.ofMotion s.player none (dest.worldName.getD "") motion
      (s, some (.away s.handle p.id server (if dest.lastPlayer then none else some request)))
    | none =>
      match p.dest.world? r.worlds with
      | some world =>
        let avatar := ⟨world, motion⟩
        ({ s with avatar }, some (.here s.handle p.id avatar))
      | none => (s, none)

def traverse (s : Session) (r : Registry) (cooldown : UInt32) : Session × Option Journey :=
  if 0 < s.cooldown then ({ s with cooldown := s.cooldown - 1 }, none)
  else match r.entered? s.avatar with
    | none => (s, none)
    | some p => { s with cooldown }.enter r p

end Session

/-- One pass over all sessions. -/
def Store.traverse (s : Store) (r : Registry) (cooldown : UInt32) : Store × List Journey :=
  ({ s with sessions := s.sessions.mapValues fun _ session => (session.traverse r cooldown).1 },
    s.sessions.values.filterMap fun session => (session.traverse r cooldown).2)

end PortalNet
