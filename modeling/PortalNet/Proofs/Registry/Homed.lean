import Mathlib.Data.List.Nodup
import PortalNet.Proofs.Registry.Holding
import PortalNet.Proofs.Registry.Recall
import PortalNet.Proofs.Registry.Removal

/-! # Portals at home

An end of a portal is at home if the world in which it is found is hosted and has the name that the
end carries. Between ends that are at home, ids of worlds do no more than names would: they tell the
worlds apart.
-/

namespace PortalNet

/-- A point of the world of some name. -/
structure Spot where
  world : String
  point : Vec3 Double
  deriving DecidableEq

namespace Spot

def distance? (a b : Spot) : Option Double :=
  if a.world = b.world then some (a.point.distance b.point) else none

def Same (a b : Spot) : Prop :=
  a.world = b.world ∧ a.point.Same b.point

instance (a b : Spot) : Decidable (a.Same b) :=
  inferInstanceAs (Decidable (_ ∧ _))

end Spot

def Location.spot (l : Location) : Spot :=
  ⟨l.world.name, l.point⟩

namespace Worlds

variable {ws : Worlds} {v w : World} {k l : Location} {id : Uuid} {name : String}

def names (ws : Worlds) : List String :=
  ws.loaded.values.map (·.name)

def Hosts (ws : Worlds) (w : World) : Prop :=
  w ∈ ws.loaded.values

instance : Decidable (ws.Hosts w) :=
  inferInstanceAs (Decidable (_ ∈ _))

/-- Worlds are found under their ids, and no two have one name. -/
structure Distinct (ws : Worlds) : Prop where
  keyed : ∀ e ∈ ws.loaded.entries, e.2.id = e.1
  names : ws.names.Nodup

theorem of_byName? (h : ws.byName? name = some w) : ws.Hosts w ∧ w.name = name :=
  ⟨List.mem_of_find?_eq_some h, by simpa using List.find?_some h⟩

/-- A name belongs to a world that is hosted, or no world has it. -/
theorem byName?_isSome_iff : (ws.byName? name).isSome ↔ name ∈ ws.names := by
  rw [byName?, List.find?_isSome, names, List.mem_map]
  simp only [decide_eq_true_eq]

theorem byName?_eq_none_congr {vs : Worlds} (h : vs.names.Perm ws.names) :
    vs.byName? name = none ↔ ws.byName? name = none := by
  rw [← Option.not_isSome_iff_eq_none, ← Option.not_isSome_iff_eq_none, byName?_isSome_iff,
    byName?_isSome_iff, h.mem_iff]

namespace Distinct

variable (h : ws.Distinct)

include h

theorem get?_of_hosts (hw : ws.Hosts w) : ws.loaded.get? w.id = some w := by
  obtain ⟨id, hid⟩ := Table.mem_values_iff.1 hw
  rw [h.keyed _ (Table.get?_eq_some_iff.1 hid)]
  exact hid

theorem id_iff_name (hv : ws.Hosts v) (hw : ws.Hosts w) : v.id = w.id ↔ v.name = w.name := by
  constructor
  · intro he
    have hget := h.get?_of_hosts hv
    rw [he, h.get?_of_hosts hw] at hget
    exact congrArg World.name (Option.some.inj hget).symm
  · intro he
    exact congrArg World.id (List.inj_on_of_nodup_map h.names hv hw he)

theorem distance?_eq (hk : ws.Hosts k.world) (hl : ws.Hosts l.world) :
    k.distance? l = k.spot.distance? l.spot :=
  if_congr (h.id_iff_name hk hl) rfl rfl

theorem same_iff (hk : ws.Hosts k.world) (hl : ws.Hosts l.world) :
    k.Same l ↔ k.spot.Same l.spot :=
  and_congr_left fun _ => h.id_iff_name hk hl

end Distinct

end Worlds

namespace Anchor

variable {a b : Anchor} {ws : Worlds} {asks : List Worlds} {l : Location}

/-- What is remembered of a place has its coordinates, and nothing is of one on another server. -/
def Genuine (a : Anchor) : Prop :=
  ∀ l ∈ a.cache, a.position.isExternal = false ∧ l.point = a.position.frame.center

instance : Decidable a.Genuine :=
  inferInstanceAs (Decidable (∀ l ∈ a.cache, _))

/-- Where it is found, it is in a world that is hosted and has the name that it carries. -/
def Homed (ws : Worlds) (a : Anchor) : Prop :=
  ∀ l ∈ a.location? ws, ws.Hosts l.world ∧ a.position.worldName = some l.world.name

instance : Decidable (a.Homed ws) :=
  inferInstanceAs (Decidable (∀ l ∈ a.location? ws, _))

def spot? (a : Anchor) (ws : Worlds) : Option Spot :=
  (a.location? ws).map Location.spot

theorem genuine_of_position {p : Position} : (p : Anchor).Genuine :=
  fun _ hl => absurd hl (Option.not_mem_none _)

theorem of_locate? {p : Position} (h : p.locate? ws = some l) :
    p.isExternal = false ∧ l.point = p.frame.center := by
  obtain ⟨w, hw, rfl⟩ := Option.map_eq_some_iff.1 h
  refine ⟨?_, rfl⟩
  unfold Position.resolve? at hw
  split at hw
  · cases hw
  · exact Bool.eq_false_iff.2 ‹_›

namespace Genuine

theorem location? (h : a.Genuine) (hl : a.location? ws = some l) :
    a.position.isExternal = false ∧ l.point = a.position.frame.center := by
  rw [location?_eq, Option.or_eq_some_iff] at hl
  rcases hl with hl | ⟨-, hl⟩
  · exact h l hl
  · exact of_locate? hl

theorem resolved (h : a.Genuine) : (a.resolved ws).Genuine :=
  fun _ hl => h.location? hl

theorem asked (h : a.Genuine) (hb : b = a ∨ b = a.resolved ws) : b.Genuine := by
  rcases hb with rfl | rfl
  · exact h
  · exact h.resolved

theorem askedIn (h : a.Genuine) : (a.askedIn asks).Genuine := by
  induction asks generalizing a with
  | nil => exact h
  | cons ws asks ih => exact ih h.resolved

end Genuine

theorem Homed.asked (h : a.Homed ws) (hb : b = a ∨ b = a.resolved ws) : b.Homed ws := by
  rcases hb with rfl | rfl
  · exact h
  · intro l hl
    rw [location?_resolved] at hl
    exact h l hl

end Anchor

namespace Registry

/-- What holds of every registry: portals are found under their ids, and what their ends remember
are their own places. -/
structure Sound (r : Registry) : Prop where
  keyed : r.Keyed
  genuine : ∀ p ∈ r.all, p.origin.Genuine ∧ p.dest.Genuine

theorem sound_run {ws : Worlds} {es : List Event}
    (h : ∀ p ∈ es.flatMap Event.registered, p.origin.Genuine ∧ p.dest.Genuine) :
    (run { worlds := ws } es).Sound := by
  have haccounted : (run { worlds := ws } es).Accounted :=
    run_induction .empty fun _ _ _ => .of_change
  refine ⟨haccounted.keyed, fun q hq => ?_⟩
  obtain ⟨p, hp | hp, ht⟩ := traced_run hq
  · cases hp
  · obtain ⟨asks, -, horigin⟩ := ht.origin
    obtain ⟨more, -, hdest⟩ := ht.dest
    exact ⟨horigin ▸ (h p hp).1.askedIn, hdest ▸ (h p hp).2.askedIn⟩

/-- All portals are at home at both ends, among worlds of different names. -/
structure Homed (r : Registry) : Prop extends Sound r where
  worlds : r.worlds.Distinct
  origin : ∀ p ∈ r.all, p.origin.Homed r.worlds
  dest : ∀ p ∈ r.all, p.dest.Homed r.worlds

variable {r : Registry} {p q : Portal} {l : Location}

namespace Homed

theorem distance?_eq (h : r.Homed) (hp : p ∈ r.all) (hl : r.worlds.Hosts l.world) :
    r.distance? l p = (p.origin.spot? r.worlds).bind (·.distance? l.spot) := by
  rw [distance?, Anchor.spot?]
  cases ho : p.origin.location? r.worlds with
  | none => rfl
  | some o => exact h.worlds.distance?_eq (h.origin p hp o ho).1 hl

theorem startsAt_eq (h : r.Homed) (hp : p ∈ r.all) (hl : r.worlds.Hosts l.world) :
    r.startsAt l p = (p.origin.spot? r.worlds).any fun o => o.Same l.spot := by
  rw [startsAt, Anchor.spot?]
  cases ho : p.origin.location? r.worlds with
  | none => rfl
  | some o => exact decide_eq_decide.2 (h.worlds.same_iff (h.origin p hp o ho).1 hl)

/-- Whether one portal starts where another one leads can be told from their spots. -/
theorem leads_eq (h : r.Homed) (hp : p ∈ r.all) (hq : q ∈ r.all) :
    r.leads p q = (p.dest.spot? r.worlds).any fun d =>
      (q.origin.spot? r.worlds).any fun o => o.Same d := by
  have hdest : p.dest.spot? r.worlds = (p.dest.location? r.worlds).map Location.spot := rfl
  rw [leads, target?, hdest]
  cases hd : p.dest.location? r.worlds with
  | none =>
    rw [ite_self]
    rfl
  | some d =>
    have hlocal : p.isCrossServer = false := ((h.genuine p hp).2.location? hd).1
    rw [hlocal]
    exact h.startsAt_eq hq (h.dest p hp d hd).1

end Homed

end Registry

end PortalNet
