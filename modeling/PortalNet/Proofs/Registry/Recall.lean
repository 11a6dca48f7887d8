import PortalNet.Proofs.Registry.Run
import PortalNet.Proofs.Session.Run
import PortalNet.Proofs.Traversal

/-! # What registered portals remember

Both ends of a registered portal are the ends of a portal that was registered once, asked for their
places in the worlds of some earlier times. A player who goes through comes into the world that was
found first, whether it is still loaded or not.
-/

namespace PortalNet

/-- The ends of `q` are those of `p`, asked at some of the times `past`. -/
structure Portal.Traced (past : List Worlds) (p q : Portal) : Prop where
  origin : ∃ asks, asks.Sublist past ∧ q.origin = p.origin.askedIn asks
  dest : ∃ asks, asks.Sublist past ∧ q.dest = p.dest.askedIn asks

namespace Portal.Traced

variable {past later : List Worlds} {ws : Worlds} {p q o : Portal} {a b : Anchor}

theorem refl : p.Traced past p :=
  ⟨⟨[], List.nil_sublist _, rfl⟩, ⟨[], List.nil_sublist _, rfl⟩⟩

theorem asked_of_resolved (h : b = a ∨ b = a.resolved ws) :
    ∃ asks, asks.Sublist [ws] ∧ b = a.askedIn asks := by
  rcases h with rfl | rfl
  · exact ⟨[], List.nil_sublist _, rfl⟩
  · exact ⟨[ws], .refl _, rfl⟩

theorem of_revised (h : p.Revised ws q) : p.Traced [ws] q :=
  ⟨asked_of_resolved h.origin, asked_of_resolved h.dest⟩

theorem trans (h : p.Traced past q) (h' : q.Traced later o) : p.Traced (past ++ later) o := by
  constructor
  · obtain ⟨xs, hxs, hq⟩ := h.origin
    obtain ⟨ys, hys, ho⟩ := h'.origin
    exact ⟨xs ++ ys, hxs.append hys, by rw [ho, hq, Anchor.askedIn_append]⟩
  · obtain ⟨xs, hxs, hq⟩ := h.dest
    obtain ⟨ys, hys, ho⟩ := h'.dest
    exact ⟨xs ++ ys, hxs.append hys, by rw [ho, hq, Anchor.askedIn_append]⟩

end Portal.Traced

namespace Registry

/-- The worlds as they are before each event of a run. -/
def pasts (r : Registry) : List Event → List Worlds
  | [] => []
  | e :: es => r.worlds :: (r.after e).pasts es

variable {r s : Registry} {e : Event} {es : List Event} {k : Uuid} {p q : Portal}

/-- Where a portal comes from: it was there already or is registered by one of the events. -/
def Source (r : Registry) (es : List Event) (p : Portal) : Prop :=
  p ∈ r.all ∨ p ∈ es.flatMap Event.registered

theorem mem_all_insert (h : q ∈ (r.portals.insert k p).values) : q = p ∨ q ∈ r.all := by
  obtain ⟨j, hj⟩ := Table.mem_values_iff.1 h
  rw [Table.get?_insert] at hj
  split at hj
  · cases hj
    exact .inl rfl
  · exact .inr (Table.mem_values_iff.2 ⟨j, hj⟩)

theorem Narrows.mem_all (h : r.Narrows s) (hq : q ∈ s.all) :
    ∃ p ∈ r.all, p.Traced [r.worlds] q := by
  obtain ⟨k, hk⟩ := mem_all_iff.1 hq
  obtain ⟨p, hp, hr⟩ := h.portal k q hk
  exact ⟨p, mem_all_iff.2 ⟨k, hp⟩, .of_revised hr⟩

theorem traced_change (h : r.Change e s) (hq : q ∈ s.all) :
    ∃ p, r.Source [e] p ∧ p.Traced [r.worlds] q := by
  have hold : ∀ o ∈ r.all, ∃ p, r.Source [e] p ∧ p.Traced [r.worlds] o :=
    fun o ho => ⟨o, .inl ho, .refl⟩
  cases h with
  | steps hs =>
    obtain ⟨p, hp, htraced⟩ := (Narrows.of_steps hs).mem_all hq
    exact ⟨p, .inl hp, htraced⟩
  | register p idle =>
    rcases mem_all_insert hq with rfl | ho
    · exact ⟨q, .inr (List.mem_singleton_self q), .refl⟩
    · exact hold q ho
  | replace fresh name hp =>
    rcases mem_all_insert hq with rfl | ho
    · exact ⟨_, .inl (mem_all_iff.2 ⟨_, hp⟩), ⟨Portal.Traced.refl.origin, Portal.Traced.refl.dest⟩⟩
    · obtain ⟨p, hp, htraced⟩ := Narrows.take.mem_all ho
      exact ⟨p, .inl hp, htraced⟩
  | host worlds => exact hold q hq

theorem traced_run (hq : q ∈ (r.run es).all) :
    ∃ p, r.Source es p ∧ p.Traced (r.pasts es) q := by
  induction es generalizing r with
  | nil => exact ⟨q, .inl hq, .refl⟩
  | cons e es ih =>
    obtain ⟨o, ho, htraced⟩ := ih hq
    rcases ho with ho | ho
    · obtain ⟨p, hp, hpo⟩ := traced_change change_after ho
      refine ⟨p, ?_, hpo.trans htraced⟩
      exact hp.imp_right fun h => List.mem_append_left _ (by simpa using h)
    · have hsame : o.Traced [r.worlds] o := .refl
      exact ⟨o, .inr (List.mem_append_right _ ho), hsame.trans htraced⟩

end Registry

namespace Store

variable {s : Store} {r : Registry} {cooldown : UInt32} {h : Handle} {id : Uuid} {avatar : Avatar}

/-- A player moved within this server comes into the world of some portal's destination. -/
theorem dest_of_here (hj : .here h id avatar ∈ (s.traverse r cooldown).2) :
    ∃ p ∈ r.all, p.id = id ∧ p.dest.world? r.worlds = some avatar.world := by
  obtain ⟨x, hx, hj⟩ := List.mem_filterMap.1 hj
  unfold Session.traverse at hj
  split at hj
  · cases hj
  · cases hp : r.entered? x.avatar with
    | none => simp [hp] at hj
    | some p =>
      refine ⟨p, Registry.mem_all_iff.2 (Registry.encloses_of_entered? hp).1, ?_⟩
      simp only [hp, Session.enter] at hj
      split at hj
      · cases hj
      · split at hj
        · cases hj
        · split at hj
          · cases hj
            exact ⟨rfl, ‹_›⟩
          · cases hj

end Store

/-- Every answer comes from the first lookup that found a world. A portal of a registry was asked
in the worlds of earlier times. A player comes through it into the world that was found first, which
is loaded now or was loaded when it was found. -/
theorem recalled (ws : Worlds) (es : List Registry.Event) :
    let r : Registry := Registry.run { worlds := ws } es
    let past := Registry.pasts { worlds := ws } es
    let registered := es.flatMap Registry.Event.registered
    (∀ (p : Position) (asks : List Worlds), ((p : Anchor).askedIn asks).Recalls asks) ∧
    (∀ q ∈ r.all, ∃ p ∈ registered, p.Traced past q) ∧
    ∀ (s : Store) (cooldown : UInt32) (h : Handle) (id : Uuid) (avatar : Avatar),
      .here h id avatar ∈ (s.traverse r cooldown).2 →
      ∃ p ∈ registered, ∃ asks, asks.Sublist past ∧
        (p.dest.askedIn asks).world? r.worlds = some avatar.world ∧
        (p.dest.cache = none → ∃ ws ∈ asks ++ [r.worlds], avatar.world ∈ ws.loaded.values) := by
  intro r past registered
  have htraced : ∀ q ∈ r.all, ∃ p ∈ registered, p.Traced past q := by
    intro q hq
    obtain ⟨p, hp, h⟩ := Registry.traced_run hq
    rcases hp with hp | hp
    · cases hp
    · exact ⟨p, hp, h⟩
  refine ⟨fun p asks => Anchor.recalls_askedIn, htraced, ?_⟩
  intro s cooldown h id avatar hj
  obtain ⟨q, hq, -, hw⟩ := Store.dest_of_here hj
  obtain ⟨p, hp, ht⟩ := htraced q hq
  obtain ⟨asks, hasks, hdest⟩ := ht.dest
  rw [hdest] at hw
  refine ⟨p, hp, asks, hasks, hw, fun hcache => ?_⟩
  have hnew : p.dest = (p.dest.position : Anchor) := by
    rw [← hcache]
  rw [hnew] at hw
  exact Anchor.loaded_of_askedIn hw

namespace Sample

/-- A portal from the window where the player stands into the nether. -/
def passage : Portal where
  id := ⟨.replicate 16 5⟩
  origin := { position := .ofLocation ⟨world, origin⟩ .north }
  dest := { position := .ofLocation ⟨nether, origin⟩ .east }
  size := ⟨(2 : Int), (3 : Int)⟩
  isCustom := true

/-- The portal is asked where it leads, and then the nether is unloaded. -/
def unloading : List Registry.Event :=
  [.register passage rfl, .look (fun _ _ => false) (fun _ _ => true),
    .host ((worlds.load world).unload nether.id)]

def unloaded : Registry :=
  Registry.run { worlds := worlds.load world } unloading

def traveller : Store :=
  (Store.empty 1).run [.connect player address avatar {} 0]

def arrived : Avatar :=
  ⟨nether, passage.origin.position.frame.carry passage.dest.position.frame avatar.motion⟩

end Sample

open Sample in
theorem recalled_unloaded :
    let registered := unloading.flatMap Registry.Event.registered
    let past := Registry.pasts { worlds := worlds.load world } unloading
    (∃ p ∈ registered, p.Traced past (passage.resolveDest (worlds.load world))) ∧
    ∃ p ∈ registered, ∃ asks, asks.Sublist past ∧
      (p.dest.askedIn asks).world? unloaded.worlds = some nether ∧
      (p.dest.cache = none → ∃ ws ∈ asks ++ [unloaded.worlds], nether ∈ ws.loaded.values) := by
  obtain ⟨-, htraced, hhere⟩ := recalled (worlds.load world) unloading
  exact ⟨htraced _ (by decide +kernel), hhere traveller 0 1 passage.id arrived (by decide +kernel)⟩

open Sample in
/-- No world of the name or the id of the nether is loaded, and yet the player comes into it. -/
theorem unloaded_world_entered :
    unloaded.worlds.resolve? (some nether.id) (some nether.name) = none ∧
    unloaded.all.map (·.dest.world? unloaded.worlds) = [some nether] ∧
    (traveller.traverse unloaded 0).2 = [.here 1 passage.id arrived] := by
  decide +kernel

end PortalNet
