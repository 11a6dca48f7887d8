import PortalNet.Registry.Basic
import PortalNet.Session.Store

/-! # Activation

A portal is activated while a player is near its origin, and view-active while a player who wants
to see through portals is.
-/

namespace PortalNet

structure Observer where
  location : Location
  seesThrough : Bool

/-- The changes of one pass, by the ids of the portals. -/
structure ActivationChanges where
  activated : List Uuid := []
  deactivated : List Uuid := []
  viewActivated : List Uuid := []
  viewDeactivated : List Uuid := []
  deriving DecidableEq

def ActivationChanges.isEmpty (c : ActivationChanges) : Bool :=
  c.activated.isEmpty && c.deactivated.isEmpty && c.viewActivated.isEmpty &&
    c.viewDeactivated.isEmpty

structure ActivationRange where
  activation : Double
  view : Double

def Store.observers (s : Store) : List Observer :=
  s.sessions.values.map fun session => ⟨session.avatar.location, session.seesThrough⟩

namespace Registry

/-- Whether some observer is near enough to the origin of a portal. -/
def observed (r : Registry) (p : Portal) (observers : List Observer) (limit : Double) : Bool :=
  match p.origin.location? r.worlds with
  | none => false
  | some origin => observers.any fun o =>
    match o.location.distance? origin with
    | some d => d ≤ limit
    | none => false

/-- Activates or deactivates one portal as the observers ask for, and notes what changed. -/
def observePortal (range : ActivationRange) (observers : List Observer)
    (state : Registry × ActivationChanges) (id : Uuid) : Registry × ActivationChanges :=
  let (r, c) := state
  match r.get? id with
  | none => (r, c)
  | some p =>
    let active := r.observed p observers range.activation
    let view := r.observed p (observers.filter (·.seesThrough)) range.view
    let r := { r with portals := r.portals.insert id (p.resolveOrigin r.worlds) }
    let (r, c) := match p.isActivated, active with
      | false, true => (r.activate id, { c with activated := c.activated ++ [id] })
      | true, false => (r.deactivate id, { c with deactivated := c.deactivated ++ [id] })
      | _, _ => (r, c)
    match p.isViewActive, view with
    | false, true => (r.viewActivate id, { c with viewActivated := c.viewActivated ++ [id] })
    | true, false =>
      (r.viewDeactivate id, { c with viewDeactivated := c.viewDeactivated ++ [id] })
    | _, _ => (r, c)

/-- One pass over all portals. -/
def observe (r : Registry) (range : ActivationRange) (observers : List Observer) :
    Registry × ActivationChanges :=
  r.ids.foldl (observePortal range observers) (r, {})

end Registry

end PortalNet
