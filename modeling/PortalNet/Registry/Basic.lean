import PortalNet.Portal.Basic

/-! # The registry of portals

All portals of a server by their ids, with the worlds they stand in and the regions they keep
loaded. Removing a portal that was lit in a frame clears its portal block. When the other direction
is to go too, every portal that starts exactly at the destination is removed with it, and they take
no further portals along.
-/

namespace PortalNet

structure Registry where
  portals : Table Uuid Portal := ∅
  worlds : Worlds := {}
  regions : Regions := {}

namespace Registry

def get? (r : Registry) (id : Uuid) : Option Portal :=
  r.portals.get? id

/-- A portal with a known id takes the place of the old one, which is shut down. -/
def register (r : Registry) (p : Portal) : Registry where
  portals := r.portals.insert p.id p
  worlds := r.worlds
  regions := match r.get? p.id with
    | some old => (old.shutDown r.regions).2
    | none => r.regions

def ids (r : Registry) : List Uuid :=
  r.portals.keys

def all (r : Registry) : List Portal :=
  r.portals.values

def named (r : Registry) (name : String) : List Portal :=
  r.all.filter (·.name = some name)

/-- The registry after every portal of `which` has been asked for the location of its origin. -/
def resolveOrigins (r : Registry) (which : Portal → Bool := fun _ => true) : Registry :=
  { r with
    portals := r.portals.mapValues fun _ p => if which p then p.resolveOrigin r.worlds else p }

def distance? (r : Registry) (l : Location) (p : Portal) : Option Double := do
  (← p.origin.location? r.worlds).distance? l

/-- The first of the entries with the least rank. -/
def nearest? : List (Portal × Double) → Option (Portal × Double)
  | [] => none
  | e :: rest =>
    match nearest? rest with
    | some best => if best.2.rank < e.2.rank then some best else some e
    | none => some e

/-- The portal whose origin is nearest to a place, among those in its world and within a
distance. -/
def closest? (r : Registry) (l : Location) (limit : Double) : Option Portal :=
  let near := r.all.filterMap fun p =>
    match r.distance? l p with
    | some d => if d ≤ limit then some (p, d) else none
    | none => none
  (nearest? near).map (·.1)

def startsAt (r : Registry) (l : Location) (p : Portal) : Bool :=
  match p.origin.location? r.worlds with
  | some origin => origin.Same l
  | none => false

/-- The portal that leads back, if there is one. -/
def paired? (r : Registry) (p : Portal) : Option Portal := do
  if p.isCrossServer then none
  let l ← p.dest.location? r.worlds
  r.all.find? fun q => q.id ≠ p.id ∧ r.startsAt l q

/-- The registry after `paired?` has been asked for the portal with this id. -/
def resolvePair (r : Registry) (p : Portal) : Registry :=
  if p.isCrossServer then r
  else
    let r := { r with portals := r.portals.modify p.id (·.resolveDest r.worlds) }
    if (p.dest.location? r.worlds).isSome then r.resolveOrigins (·.id ≠ p.id) else r

/-- Takes a portal out and shuts it down, and leaves all blocks as they are. -/
def take (r : Registry) (id : Uuid) : Option Portal × Registry :=
  match r.get? id with
  | none => (none, r)
  | some p =>
    let (p, regions) := p.shutDown r.regions
    (some p, { r with portals := r.portals.erase id, regions })

def clearBlock (r : Registry) (a : Anchor) : Registry :=
  match a.block r.worlds with
  | .ok place => { r with worlds := r.worlds.setMaterial place.world.id place.block .air }
  | .error _ => r

/-- Removes a portal and nothing else. -/
def removeOne (r : Registry) (id : Uuid) : Option Portal × Registry :=
  match r.take id with
  | (none, r) => (none, r)
  | (some p, r) => (some p, if p.isAutoSpawned then r.clearBlock p.origin else r)

def removeEach (r : Registry) : List Uuid → List Portal × Registry
  | [] => ([], r)
  | id :: rest =>
    let (p, r) := r.removeOne id
    let (ps, r) := r.removeEach rest
    (p.toList ++ ps, r)

/-- Removes the portals that start exactly here. -/
def removeAt (r : Registry) (l : Location) : List Portal × Registry :=
  r.resolveOrigins.removeEach ((r.all.filter (r.startsAt l)).map (·.id))

/-- Removes a portal, with the other direction if wanted. -/
def remove (r : Registry) (id : Uuid) (otherDirection : Bool) : Option Portal × Registry :=
  match r.removeOne id with
  | (none, r) => (none, r)
  | (some p, r) =>
    if otherDirection && !p.isCrossServer then
      let r := match p.dest.location? r.worlds with
        | some l => (r.removeAt l).2
        | none => r
      (some p, if p.isAutoSpawned then r.clearBlock p.dest else r)
    else (some p, r)

/-- Players can edit the nearest portal within this distance. -/
def reach : Double := (20 : Int)

def removeNearest (r : Registry) (l : Location) (otherDirection : Bool) :
    Except PortalError Portal × Registry :=
  match r.closest? l reach with
  | none => (throw (.noPortalWithin reach), r.resolveOrigins)
  | some p =>
    match r.resolveOrigins.remove p.id otherDirection with
    | (some p, r) => (return p, r)
    | (none, r) => (throw (.portalMissing p.id), r)

/-- Removes the portals of a name and answers how many there were. -/
def removeNamed (r : Registry) (name : String) : Except PortalError Nat × Registry :=
  let ids := (r.named name).map (·.id)
  if ids.isEmpty then (throw (.noPortalNamed name), r)
  else (return ids.length, (r.removeEach ids).2)

/-- Renames a portal and answers the id of the portal that has the name now, which is `fresh` if a
copy had to take its place. -/
def rename (r : Registry) (id : Uuid) (name : Option String) (fresh : Uuid) :
    Except PortalError Uuid × Registry :=
  match r.get? id with
  | none => (throw (.portalMissing id), r)
  | some p =>
    match RenameKind.classify p.name name with
    | .inPlace =>
      let (result, p) := p.rename name
      (result.map fun _ => id, { r with portals := r.portals.insert id p })
    | .replacement => (return fresh, (r.take id).2.register (p.replacement fresh name))

def setAllowsNonPlayers (r : Registry) (id : Uuid) (allow : Bool) :
    Except PortalError Unit × Registry :=
  match r.get? id with
  | none => (throw (.portalMissing id), r)
  | some p =>
    (return (), { r with portals := r.portals.insert id { p with allowsNonPlayers := allow } })

def activate (r : Registry) (id : Uuid) : Registry :=
  match r.get? id with
  | none => r
  | some p =>
    if p.isActivated then r
    else
      let (p, regions) := p.activate r.worlds r.regions
      { r with portals := r.portals.insert id p, regions }

def deactivate (r : Registry) (id : Uuid) : Registry :=
  match r.get? id with
  | none => r
  | some p =>
    if p.isActivated then
      let (p, regions) := p.deactivate r.regions
      { r with portals := r.portals.insert id p, regions }
    else r

def viewActivate (r : Registry) (id : Uuid) : Registry :=
  { r with portals := r.portals.modify id fun p => if p.isViewActive then p else p.viewActivate }

def viewDeactivate (r : Registry) (id : Uuid) : Registry :=
  { r with portals := r.portals.modify id (·.viewDeactivate) }

/-- One tick of a registered portal. -/
def updatePortal (ws : Worlds) (p : Portal) : Portal :=
  if p.isValid ws then (p.update ws).viewUpdate else p.update ws

def removeBroken (r : Registry) : List Uuid → List Uuid × Registry
  | [] => ([], r)
  | id :: rest =>
    let (p, r) := r.remove id true
    let (ids, r) := r.removeBroken rest
    ((p.map (·.id)).toList ++ ids, r)

/-- One tick: portals whose blocks are gone remove themselves with their other direction. Answers
the ids of those that did. -/
def update (r : Registry) : List Uuid × Registry :=
  let broken := (r.all.filter (!·.isValid r.worlds)).map (·.id)
  removeBroken { r with portals := r.portals.mapValues fun _ => updatePortal r.worlds } broken

end Registry

end PortalNet
