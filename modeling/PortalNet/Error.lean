import PortalNet.Geometry.Window
import PortalNet.Uuid

/-! # Errors

What can be wrong with an operation on portals, and how it is put to the player.
-/

namespace PortalNet

inductive ErrorKind where
  | invalidSelection
  | differentSizes
  | malformedRecord
  | notFound
  | worldUnavailable
  | invalidOperation
  deriving DecidableEq

namespace ErrorKind

/-- An operation that the caller had no right to ask for is a fault of the caller; all else is for
the player. -/
def isUserFacing (k : ErrorKind) : Bool :=
  k ≠ invalidOperation

def describe (detail : String) : ErrorKind → String
  | invalidSelection => "Invalid selection: " ++ detail
  | differentSizes => "Origin and destination have different sizes (" ++ detail ++ ")"
  | malformedRecord => "Malformed record: " ++ detail
  | notFound => "Not found: " ++ detail
  | worldUnavailable => "World is not available: " ++ detail
  | invalidOperation => "Invalid operation: " ++ detail

end ErrorKind

inductive PortalError where
  | firstCornerUnset
  | secondCornerUnset
  | cornersInDifferentWorlds
  | cornersNotInLine (a b : Block)
  | originUnset
  | destinationUnset
  | externalDestinationUnset
  | netherPortalNamed
  | differentSizes (origin destination : Size Double)
  | malformedRecord
  | noPortalWithin (distance : Double)
  | portalMissing (id : Uuid)
  | noPortalNamed (name : String)
  | sessionMissing (handle : UInt32)
  | worldUnavailable (name : String)
  | blockOfExternal
  | autoSpawnedNamed
  | destinationNotExternal
  deriving DecidableEq

namespace PortalError

def kind : PortalError → ErrorKind
  | firstCornerUnset | secondCornerUnset | cornersInDifferentWorlds | cornersNotInLine .. =>
    .invalidSelection
  | originUnset | destinationUnset | externalDestinationUnset | netherPortalNamed =>
    .invalidSelection
  | differentSizes .. => .differentSizes
  | malformedRecord => .malformedRecord
  | noPortalWithin _ | portalMissing _ | noPortalNamed _ | sessionMissing _ => .notFound
  | worldUnavailable _ => .worldUnavailable
  | blockOfExternal | autoSpawnedNamed | destinationNotExternal => .invalidOperation

def detail : PortalError → String
  | firstCornerUnset => "The first corner is not set"
  | secondCornerUnset => "The second corner is not set"
  | cornersInDifferentWorlds => "The corners are in different worlds"
  | cornersNotInLine a b => s!"The corners {a} and {b} are not in line"
  | originUnset => "No origin has been selected"
  | destinationUnset => "No destination has been selected"
  | externalDestinationUnset => "No destination has been selected on another server"
  | netherPortalNamed => "Nether portals cannot be named"
  | differentSizes origin destination => s!"{origin} and {destination}"
  | malformedRecord => ""
  | noPortalWithin distance => s!"No portal within {distance.text} blocks"
  | portalMissing id => s!"Portal {id}"
  | noPortalNamed name => s!"No portals are named {name}"
  | sessionMissing handle => s!"Session {handle.toNat}"
  | worldUnavailable name => name
  | blockOfExternal => "Cannot get the block of an external position"
  | autoSpawnedNamed => "Cannot set the name of an auto-spawned portal"
  | destinationNotExternal => "The mirrored destination is not marked as external"

def message (e : PortalError) : String :=
  e.kind.describe e.detail

def isUserFacing (e : PortalError) : Bool :=
  e.kind.isUserFacing

end PortalError

/-- Why there is no result. The player is told of an error; an overflow in the arithmetic of blocks
ends the program. -/
inductive Failure where
  | refused (e : PortalError)
  | overflow
  deriving DecidableEq

namespace Failure

instance : Coe PortalError Failure := ⟨refused⟩

/-- The result if there is one. An error is as good as none, but an overflow is not. -/
def optional {α : Type} : Except Failure α → Except Failure (Option α)
  | .ok a => return some a
  | .error (.refused _) => return none
  | .error .overflow => throw overflow

end Failure

end PortalNet
