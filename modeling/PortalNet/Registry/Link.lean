import PortalNet.Registry.Basic
import PortalNet.Selection

/-! # Linking windows

Making portals out of two selected windows of one size, or out of a window here and one on another
server. Ids of new portals come from a supply.
-/

namespace PortalNet

structure LinkOptions where
  /-- Whether a portal leads back too. -/
  twoWay : Bool := false
  /-- Whether the destination faces the other way. -/
  invert : Bool := false
  name : Option String := none
  owner : Option Uuid := none

namespace Registry

def linkedPortal (options : LinkOptions) (id : Uuid) (origin dest : Position)
    (size : Size Double) : Portal where
  id
  owner := options.owner
  name := options.name
  origin
  dest
  size
  isCustom := true

/-- The size of a link between two windows here, and where it starts and leads. -/
def linkEnds (origin destination : Selection) (options : LinkOptions) :
    Except Failure (Size Double × Position × Position) := do
  let size ← origin.size
  let destSize ← destination.size
  if ¬ size.Same destSize then throw (.refused (.differentSizes size destSize))
  let near ← origin.position
  let far ← (if options.invert then destination.invert else destination).position
  return (size, near, far)

/-- The portal that leads there has the id `fresh 0` and the one that leads back `fresh 1`. Answers
the ids in this order. -/
def link (r : Registry) (origin destination : Selection) (options : LinkOptions)
    (fresh : Nat → Uuid) : Except Failure (List Uuid) × Registry :=
  match linkEnds origin destination options with
  | .error e => (throw e, r)
  | .ok (size, near, far) =>
    let there := linkedPortal options (fresh 0) near far size
    let back := linkedPortal options (fresh 1) far near size
    if options.twoWay then (return [there.id, back.id], (r.register back).register there)
    else (return [there.id], r.register there)

/-- The size of a link to another server, and where it starts and leads. -/
def linkEndsAbroad (origin : Selection) (external : ExternalSelection) (options : LinkOptions) :
    Except Failure (Size Double × Position × Position) := do
  let size ← origin.size
  if ¬ size.Same external.size then throw (.refused (.differentSizes size external.size))
  if ¬ external.position.isExternal then throw (.refused .destinationNotExternal)
  let near ← origin.position
  return (size, near, if options.invert then external.position.inverted else external.position)

def linkExternal (r : Registry) (origin : Selection) (external : ExternalSelection)
    (options : LinkOptions) (fresh : Uuid) : Except Failure Uuid × Registry :=
  match linkEndsAbroad origin external options with
  | .error e => (throw e, r)
  | .ok (size, near, far) =>
    let portal := linkedPortal options fresh near far size
    (return portal.id, r.register portal)

end Registry

namespace Selections

/-- Links the selected origin to the selected destination. -/
def link (s : Selections) (r : Registry) (options : LinkOptions) (fresh : Nat → Uuid) :
    Except Failure (List Uuid) × Registry :=
  match s.origin, s.destination with
  | none, _ => (throw (.refused .originUnset), r)
  | some _, none => (throw (.refused .destinationUnset), r)
  | some origin, some destination => r.link origin destination options fresh

/-- Links the selected origin to the window selected on another server. -/
def linkExternal (s : Selections) (r : Registry) (options : LinkOptions) (fresh : Uuid) :
    Except Failure Uuid × Registry :=
  match s.origin, s.external with
  | none, _ => (throw (.refused .originUnset), r)
  | some _, none => (throw (.refused .externalDestinationUnset), r)
  | some origin, some external => r.linkExternal origin external options fresh

end Selections

end PortalNet
