import PortalNet.Position

/-! # What anchors remember

An anchor answers with the location that it remembers, and else with the one that its position has
now. The first lookup that finds a location is therefore the last one that is made, whatever
becomes of the worlds.
-/

namespace PortalNet

namespace Worlds

variable {vs ws : Worlds} {id : Option Uuid} {name : Option String} {w : World}

theorem resolve?_congr (h : vs.loaded = ws.loaded) : vs.resolve? id name = ws.resolve? id name := by
  have hid : vs.byId? = ws.byId? := by
    funext id
    rw [byId?, byId?, h]
  have hname : vs.byName? = ws.byName? := by
    funext name
    rw [byName?, byName?, h]
  rw [resolve?, resolve?, hid, hname]

/-- Only a world that is loaded is found. -/
theorem mem_of_resolve? (h : ws.resolve? id name = some w) : w ∈ ws.loaded.values := by
  rcases Option.or_eq_some_iff.1 h with hid | ⟨-, hname⟩
  · obtain ⟨i, -, hi⟩ := Option.bind_eq_some_iff.1 hid
    exact Table.mem_values_iff.2 ⟨i, hi⟩
  · obtain ⟨n, -, hn⟩ := Option.bind_eq_some_iff.1 hname
    exact List.mem_of_find?_eq_some hn

end Worlds

namespace Position

/-- The world of a position among the worlds of this server. -/
def resolve? (p : Position) (ws : Worlds) : Option World :=
  if p.isExternal then none else ws.resolve? p.worldId p.worldName

def locate? (p : Position) (ws : Worlds) : Option Location :=
  (p.resolve? ws).map (⟨·, p.frame.center⟩)

variable {p : Position} {vs ws : Worlds}

theorem resolve?_congr (h : vs.loaded = ws.loaded) : p.resolve? vs = p.resolve? ws := by
  rw [resolve?, resolve?, Worlds.resolve?_congr h]

theorem findSome?_resolve? {asks : List Worlds} (h : p.isExternal = true) :
    asks.findSome? p.resolve? = none :=
  List.findSome?_eq_none_iff.2 fun ws _ => by rw [resolve?, if_pos h]

theorem findSome?_locate? {asks : List Worlds} :
    asks.findSome? p.locate? = (asks.findSome? p.resolve?).map (⟨·, p.frame.center⟩) :=
  List.map_findSome?.symm

theorem locate?_congr (h : vs.loaded = ws.loaded) : p.locate? vs = p.locate? ws := by
  rw [locate?, locate?, resolve?_congr h]

end Position

namespace Anchor

variable {a : Anchor} {vs ws : Worlds} {asks : List Worlds}

theorem location?_eq : a.location? ws = a.cache.or (a.position.locate? ws) := by
  unfold location? world? Position.locate? Position.resolve?
  cases a.position.isExternal <;> cases a.cache <;> rfl

theorem world?_eq (h : a.position.isExternal = false) :
    a.world? ws = (a.location? ws).map (·.world) := by
  unfold location? world?
  rw [h]
  cases a.cache with
  | some l => rfl
  | none => cases ws.resolve? a.position.worldId a.position.worldName <;> rfl

theorem location?_congr (h : vs.loaded = ws.loaded) : a.location? vs = a.location? ws := by
  rw [location?_eq, location?_eq, Position.locate?_congr h]

theorem world?_congr (h : vs.loaded = ws.loaded) : a.world? vs = a.world? ws := by
  unfold world?
  rw [Worlds.resolve?_congr h]

theorem resolved_congr (h : vs.loaded = ws.loaded) : a.resolved vs = a.resolved ws := by
  rw [resolved, resolved, location?_congr h]

theorem block_congr (h : vs.loaded = ws.loaded) : a.block vs = a.block ws := by
  rw [block, block, location?_congr h]

@[simp] theorem position_resolved : (a.resolved ws).position = a.position := rfl

@[simp] theorem cache_resolved : (a.resolved ws).cache = a.location? ws := rfl

@[simp] theorem resolved_resolved : (a.resolved ws).resolved ws = a.resolved ws := by
  rw [resolved, location?_resolved]
  rfl

@[simp] theorem world?_resolved : (a.resolved ws).world? ws = a.world? ws := by
  cases h : a.position.isExternal with
  | true => simp [world?, h]
  | false =>
    have hr : (a.resolved ws).position.isExternal = false := h
    rw [world?_eq hr, world?_eq h, location?_resolved]

@[simp] theorem block_resolved : (a.resolved ws).block ws = a.block ws := by
  rw [block, block, location?_resolved]
  rfl

/-- The anchor after it was asked for its location again and again, as the worlds were each time. -/
def askedIn (a : Anchor) (asks : List Worlds) : Anchor :=
  asks.foldl resolved a

@[simp] theorem askedIn_nil : a.askedIn [] = a := rfl

theorem askedIn_append {more : List Worlds} :
    a.askedIn (asks ++ more) = (a.askedIn asks).askedIn more :=
  List.foldl_append ..

@[simp] theorem position_askedIn : (a.askedIn asks).position = a.position := by
  induction asks generalizing a with
  | nil => rfl
  | cons ws asks ih => exact ih

/-- The first lookup that found a location gives all later answers. -/
theorem cache_askedIn :
    (a.askedIn asks).cache = a.cache.or (asks.findSome? a.position.locate?) := by
  induction asks generalizing a with
  | nil => simp
  | cons ws asks ih =>
    change ((a.resolved ws).askedIn asks).cache = _
    rw [ih, cache_resolved, position_resolved, location?_eq, List.findSome?_cons]
    cases a.cache <;> cases a.position.locate? ws <;> rfl

/-- All answers come from the first lookup that found the world, be it the present one. They are
those of the present worlds unless an earlier lookup found a world that is not found now. -/
structure Recalls (a : Anchor) (asks : List Worlds) : Prop where
  world : ∀ now, a.world? now = (asks ++ [now]).findSome? a.position.resolve?
  location : ∀ now, a.location? now = (asks ++ [now]).findSome? a.position.locate?
  block : ∀ now, (a.block now).toOption =
    ((asks ++ [now]).findSome? a.position.locate?).map fun l => ⟨l.world, l.block⟩
  current : ∀ now,
    a.world? now = a.position.resolve? now ∧ a.location? now = a.position.locate? now ↔
    ∀ w, asks.findSome? a.position.resolve? = some w → a.position.resolve? now = some w

theorem location?_askedIn {p : Position} {now : Worlds} :
    ((p : Anchor).askedIn asks).location? now = (asks ++ [now]).findSome? p.locate? := by
  rw [location?_eq, cache_askedIn, position_askedIn, List.findSome?_append]
  simp

theorem world?_askedIn {p : Position} {now : Worlds} :
    ((p : Anchor).askedIn asks).world? now = (asks ++ [now]).findSome? p.resolve? := by
  have hposition : ((p : Anchor).askedIn asks).position = p := position_askedIn
  cases h : p.isExternal with
  | true => rw [world?, hposition, if_pos h, Position.findSome?_resolve? h]
  | false =>
    rw [← hposition] at h
    rw [world?_eq h, location?_askedIn, Position.findSome?_locate?, Option.map_map]
    exact Option.map_id'

theorem block_askedIn {p : Position} {now : Worlds} :
    (((p : Anchor).askedIn asks).block now).toOption =
      ((asks ++ [now]).findSome? p.locate?).map fun l => ⟨l.world, l.block⟩ := by
  unfold block
  rw [position_askedIn, location?_askedIn]
  cases h : p.isExternal with
  | true =>
    rw [Position.findSome?_locate?, Position.findSome?_resolve? h]
    rfl
  | false => cases (asks ++ [now]).findSome? p.locate? <;> rfl

/-- Where it is was loaded at one of the times it was asked. -/
theorem loaded_of_askedIn {p : Position} {now : Worlds} {w : World}
    (h : ((p : Anchor).askedIn asks).world? now = some w) :
    ∃ ws ∈ asks ++ [now], w ∈ ws.loaded.values := by
  rw [world?_askedIn] at h
  obtain ⟨ws, hws, h⟩ := List.exists_of_findSome?_eq_some h
  refine ⟨ws, hws, ?_⟩
  unfold Position.resolve? at h
  split at h
  · cases h
  · exact Worlds.mem_of_resolve? h

theorem recalls_askedIn {p : Position} : ((p : Anchor).askedIn asks).Recalls asks where
  world := by
    intro now
    rw [world?_askedIn, position_askedIn]
  location := by
    intro now
    rw [location?_askedIn, position_askedIn]
  block := by
    intro now
    rw [block_askedIn, position_askedIn]
  current := by
    intro now
    rw [world?_askedIn, location?_askedIn, position_askedIn, Position.findSome?_locate?,
      Position.locate?, List.findSome?_append]
    cases asks.findSome? p.resolve? with
    | none => simp
    | some w =>
      simp only [Option.some_or, Option.map_some, Option.some.injEq, forall_eq']
      constructor
      · rintro ⟨h, -⟩
        exact h.symm
      · intro h
        rw [h]
        exact ⟨rfl, rfl⟩

end Anchor

end PortalNet
