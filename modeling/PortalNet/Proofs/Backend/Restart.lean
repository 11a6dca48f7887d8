import Mathlib.Data.List.Perm.Basic
import PortalNet.Backend
import PortalNet.Proofs.Portal.Archive
import PortalNet.Proofs.Registry.Carried
import PortalNet.Proofs.Registry.Order

/-! # Restarts

A server that starts with the file of another one makes its worlds anew. No stored id of a world
means anything to it, and every end is found by the name that it carries. If the worlds have the
names that they had and the portals were at home, they are where they were and linked as they were.
-/

namespace PortalNet

namespace Worlds

variable {ws : Worlds} {vs : List World} {id : Uuid} {name : String} {w : World}

theorem loaded_loadAll :
    (vs.foldl load ws).loaded = vs.foldl (fun t w => t.insert w.id w) ws.loaded := by
  induction vs generalizing ws with
  | nil => rfl
  | cons w vs ih => exact ih

theorem entries_loadAll (distinct : (vs.map (·.id)).Nodup) :
    (vs.foldl load {}).loaded.entries = vs.map fun w => (w.id, w) := by
  rw [loaded_loadAll, Table.entries_insertAll (fun _ _ => rfl) distinct]
  rfl

theorem values_loadAll (distinct : (vs.map (·.id)).Nodup) :
    (vs.foldl load {}).loaded.values = vs := by
  rw [Table.values, entries_loadAll distinct, List.map_map]
  exact List.map_id _

theorem distinct_loadAll (distinct : (vs.map (·.id)).Nodup) (names : (vs.map (·.name)).Nodup) :
    (vs.foldl load {}).Distinct where
  keyed := by
    rw [entries_loadAll distinct, List.forall_mem_map]
    exact fun _ _ => rfl
  names := by
    rw [Worlds.names, values_loadAll distinct]
    exact names

theorem Distinct.of_byId? (h : ws.Distinct) (hw : ws.byId? id = some w) :
    ws.Hosts w ∧ w.id = id :=
  ⟨Table.mem_values_iff.2 ⟨id, hw⟩, h.keyed _ (Table.get?_eq_some_iff.1 hw)⟩

/-- An id of none of the worlds does not help to find one. -/
theorem Distinct.resolve?_of_unstored (h : ws.Distinct) {stored : Option Uuid}
    {name : Option String} (hnew : ∀ w, ws.Hosts w → stored ≠ some w.id) :
    ws.resolve? stored name = name.bind ws.byName? := by
  have hid : stored.bind ws.byId? = none := by
    rw [Option.bind_eq_none_iff]
    intro id hid
    cases hw : ws.byId? id with
    | none => rfl
    | some w =>
      obtain ⟨hhosts, rfl⟩ := h.of_byId? hw
      exact absurd hid (hnew w hhosts)
  rw [resolve?, hid, Option.none_or]

end Worlds

namespace Settings

variable {settings : Settings} {fresh : Nat → Uuid}

/-- The worlds that a server makes when it starts. -/
def hosted (settings : Settings) (fresh : Nat → Uuid) : List World :=
  settings.worlds.zipIdx.map fun (name, i) => ⟨fresh i, name⟩

theorem names_hosted : (settings.hosted fresh).map (·.name) = settings.worlds := by
  rw [hosted, List.map_map]
  exact List.zipIdx_map_fst ..

theorem ids_hosted :
    (settings.hosted fresh).map (·.id) = (List.range settings.worlds.length).map fresh := by
  rw [List.range_eq_range', ← List.zipIdx_map_snd 0 settings.worlds, List.map_map, hosted,
    List.map_map]
  rfl

end Settings

namespace Anchor

variable {a : Anchor} {vs ws : Worlds} {l : Location}

section renewed

variable (hvs : vs.Distinct) (hnew : ∀ w, vs.Hosts w → a.position.worldId ≠ some w.id)

include hvs hnew

/-- Among worlds that were made anew, an end is found by its name alone. -/
theorem location?_renewed : (a.position : Anchor).location? vs =
    if a.position.isExternal then none
    else (a.position.worldName.bind vs.byName?).map (⟨·, a.position.frame.center⟩) := by
  rw [location?_eq, Option.none_or, Position.locate?, Position.resolve?,
    hvs.resolve?_of_unstored hnew]
  split <;> rfl

theorem homed_renewed : (a.position : Anchor).Homed vs := by
  intro l hl
  rw [location?_renewed hvs hnew] at hl
  split at hl
  · cases hl
  · obtain ⟨w, hw, rfl⟩ := Option.map_eq_some_iff.1 hl
    obtain ⟨name, hname, hw⟩ := Option.bind_eq_some_iff.1 hw
    obtain ⟨hhosts, rfl⟩ := Worlds.of_byName? hw
    exact ⟨hhosts, hname⟩

/-- An end at home is where it was if the worlds have the names that they had. -/
theorem spot?_renewed (names : vs.names.Perm ws.names) (ha : a.Genuine) (hh : a.Homed ws) :
    (a.position : Anchor).spot? vs = a.spot? ws := by
  rw [spot?, spot?, location?_renewed hvs hnew]
  cases hl : a.location? ws with
  | some l =>
    obtain ⟨hlocal, hpoint⟩ := ha.location? hl
    obtain ⟨hhosts, hname⟩ := hh l hl
    have hmem : l.world.name ∈ vs.names := names.mem_iff.2 (List.mem_map_of_mem hhosts)
    obtain ⟨w, hw⟩ := Option.isSome_iff_exists.1 (Worlds.byName?_isSome_iff.2 hmem)
    have hspot : Location.spot ⟨w, a.position.frame.center⟩ = l.spot := by
      rw [Location.spot, Location.spot, (Worlds.of_byName? hw).2, hpoint]
    rw [hlocal, hname, Option.bind_some, hw]
    exact congrArg some hspot
  | none =>
    rw [location?_eq, Option.or_eq_none_iff] at hl
    cases hlocal : a.position.isExternal with
    | true => rfl
    | false =>
      cases hname : a.position.worldName with
      | none => rfl
      | some name =>
        have hnone : ws.byName? name = none := by
          have hresolve := Option.map_eq_none_iff.1 hl.2
          rw [Position.resolve?, hlocal, hname] at hresolve
          exact (Option.or_eq_none_iff.1 hresolve).2
        rw [Option.bind_some, (Worlds.byName?_eq_none_congr names).2 hnone]
        rfl

end renewed

end Anchor

namespace Registry

variable {r s : Registry} {settings : Settings} {relay : Option Address} {fresh : Nat → Uuid}
  {ps : List Portal} {p q : Portal} {k : Uuid} {b : Backend}

/-- What a new server has to be told to take the place of one with this registry: its portals, in
any order, the names of its worlds, in any order, and ids for them of which none is stored. -/
structure Reopens (r : Registry) (settings : Settings) (fresh : Nat → Uuid) (ps : List Portal) :
    Prop where
  saved : ps.Perm r.all
  hosts : settings.worlds ≠ []
  names : settings.worlds.Perm r.worlds.names
  distinct : ((List.range settings.worlds.length).map fresh).Nodup
  unstored : ∀ p ∈ r.all, ∀ i < settings.worlds.length,
    p.origin.position.worldId ≠ some (fresh i) ∧ p.dest.position.worldId ≠ some (fresh i)

/-- What a registry goes through: its server is restarted with the file that it leaves behind, or
some ends are looked up, which they remember from then on. -/
inductive Reload : Registry → Registry → Prop where
  | restart {r : Registry} {settings : Settings} {relay : Option Address} {fresh : Nat → Uuid}
      {ps : List Portal} {b : Backend} :
    r.Reopens settings fresh ps →
    Backend.start settings relay (some (Archive.encode ps)) fresh = .ok b → Reload r b.registry
  | look {r : Registry} (origins dests : Uuid → Portal → Bool) : Reload r (r.look origins dests)

/-- The registry of a server that has just started. -/
def reopened (settings : Settings) (fresh : Nat → Uuid) (ps : List Portal) : Registry :=
  (ps.map Portal.restored).foldl .register { worlds := (settings.hosted fresh).foldl .load {} }

theorem start_encode (hosts : settings.worlds ≠ []) (faithful : ∀ p ∈ ps, p.Faithful) :
    ∃ b, Backend.start settings relay (some (Archive.encode ps)) fresh = .ok b ∧
      b.registry = reopened settings fresh ps := by
  obtain ⟨spawn, hspawn⟩ : ∃ spawn, (settings.hosted fresh).head? = some spawn := by
    rw [← Option.isSome_iff_exists, List.isSome_head?, Settings.hosted]
    simpa using hosts
  suffices hstart : Backend.start settings relay (some (Archive.encode ps)) fresh =
      .ok {
        settings
        relay
        sessions := .empty settings.maxPlayers
        registry := reopened settings fresh ps
        spawnWorld := spawn } from ⟨_, hstart, rfl⟩
  rw [Backend.start, ← Settings.hosted]
  simp only [hspawn, Archive.decode?_encode faithful]
  rfl

section reopened

variable (h : r.Reopens settings fresh ps)

include h

theorem Reopens.ids_nodup : ((settings.hosted fresh).map (·.id)).Nodup := by
  rw [Settings.ids_hosted]
  exact h.distinct

theorem Reopens.loaded (hr : r.Keyed) :
    Loaded { worlds := (settings.hosted fresh).foldl .load {} } (ps.map Portal.restored)
      (reopened settings fresh ps) := by
  refine loaded_registerAll rfl ?_
  rw [Portal.ids_restored, (h.saved.map _).nodup_iff]
  exact hr.nodup_ids

theorem Reopens.get?_reopened (hr : r.Keyed) :
    (reopened settings fresh ps).get? k = (r.get? k).map Portal.restored := by
  have hloaded := h.loaded hr
  cases hp : r.get? k with
  | some p =>
    have hmem : p.restored ∈ ps.map Portal.restored :=
      List.mem_map_of_mem (h.saved.mem_iff.2 (mem_all_iff.2 ⟨k, hp⟩))
    exact hr k p hp ▸ hloaded.get? _ hmem
  | none =>
    rw [Option.map_none, get?, Table.get?_eq_none_iff]
    change k ∉ (reopened settings fresh ps).ids
    rw [hloaded.ids, Portal.ids_restored, (h.saved.map _).mem_iff]
    intro hk
    obtain ⟨p, hmem, rfl⟩ := List.mem_map.1 hk
    rw [hr.get?_of_mem hmem] at hp
    cases hp

variable (hr : r.Homed)

include hr

theorem Reopens.distinct_worlds : (reopened settings fresh ps).worlds.Distinct := by
  rw [(h.loaded hr.keyed).worlds]
  refine Worlds.distinct_loadAll h.ids_nodup ?_
  rw [Settings.names_hosted, h.names.nodup_iff]
  exact hr.worlds.names

theorem Reopens.names_reopened : (reopened settings fresh ps).worlds.names.Perm r.worlds.names := by
  rw [(h.loaded hr.keyed).worlds, Worlds.names, Worlds.values_loadAll h.ids_nodup,
    Settings.names_hosted]
  exact h.names

/-- The new worlds are those of no stored id. -/
theorem Reopens.worldId_ne {w : World} (hw : (reopened settings fresh ps).worlds.Hosts w)
    (hp : p ∈ r.all) :
    p.origin.position.worldId ≠ some w.id ∧ p.dest.position.worldId ≠ some w.id := by
  rw [(h.loaded hr.keyed).worlds, Worlds.Hosts, Worlds.values_loadAll h.ids_nodup] at hw
  have hid : w.id ∈ (settings.hosted fresh).map (·.id) := List.mem_map_of_mem hw
  rw [Settings.ids_hosted] at hid
  obtain ⟨i, hi, he⟩ := List.mem_map.1 hid
  exact he ▸ h.unstored p hp i (List.mem_range.1 hi)

theorem Reopens.homed : (reopened settings fresh ps).Homed := by
  have hall : ∀ q ∈ (reopened settings fresh ps).all, ∃ p ∈ r.all, q = p.restored := by
    intro q hq
    rw [(h.loaded hr.keyed).all] at hq
    obtain ⟨p, hp, rfl⟩ := List.mem_map.1 hq
    exact ⟨p, h.saved.mem_iff.1 hp, rfl⟩
  have hworlds := h.distinct_worlds hr
  refine ⟨⟨?_, ?_⟩, hworlds, ?_, ?_⟩
  · intro k q hq
    rw [h.get?_reopened hr.keyed] at hq
    obtain ⟨p, hp, rfl⟩ := Option.map_eq_some_iff.1 hq
    exact hr.keyed k p hp
  · intro q hq
    obtain ⟨p, -, rfl⟩ := hall q hq
    exact ⟨Anchor.genuine_of_position, Anchor.genuine_of_position⟩
  · intro q hq
    obtain ⟨p, hp, rfl⟩ := hall q hq
    exact Anchor.homed_renewed hworlds fun w hw => (h.worldId_ne hr hw hp).1
  · intro q hq
    obtain ⟨p, hp, rfl⟩ := hall q hq
    exact Anchor.homed_renewed hworlds fun w hw => (h.worldId_ne hr hw hp).2

/-- After a restart every end is where it was. -/
theorem Reopens.carries : r.Carries (reopened settings fresh ps) := by
  have hworlds := h.distinct_worlds hr
  have hnames := h.names_reopened hr
  have hportal : ∀ {id p q}, r.get? id = some p →
      (reopened settings fresh ps).get? id = some q → p ∈ r.all ∧ q = p.restored := by
    intro id p q hp hq
    rw [h.get?_reopened hr.keyed, hp] at hq
    exact ⟨mem_all_iff.2 ⟨id, hp⟩, (Option.some.inj hq).symm⟩
  refine ⟨hnames, fun id => ?_, ?_, ?_⟩
  · rw [h.get?_reopened hr.keyed, Option.map_map]
    rfl
  · intro id p q hp hq
    obtain ⟨hmem, rfl⟩ := hportal hp hq
    exact Anchor.spot?_renewed hworlds (fun w hw => (h.worldId_ne hr hw hmem).1) hnames
      (hr.genuine p hmem).1 (hr.origin p hmem)
  · intro id p q hp hq
    obtain ⟨hmem, rfl⟩ := hportal hp hq
    exact Anchor.spot?_renewed hworlds (fun w hw => (h.worldId_ne hr hw hmem).2) hnames
      (hr.genuine p hmem).2 (hr.dest p hmem)

end reopened

section look

variable {origins dests : Uuid → Portal → Bool}

/-- Looking up ends changes nothing but what they remember. -/
theorem get?_look (r : Registry) (origins dests : Uuid → Portal → Bool) (k : Uuid) :
    ∃ f : Portal → Portal,
    (∀ p, p.Revised r.worlds (f p) ∧ (f p).restored = p.restored) ∧
    (r.look origins dests).get? k = (r.get? k).map f := by
  refine ⟨_, fun p => ?_, Table.get?_mapValues⟩
  dsimp only
  split <;> split
  · exact ⟨(Portal.Retouched.resolveDest.trans .resolveOrigin).toRevised, rfl⟩
  · exact ⟨Portal.Retouched.resolveOrigin.toRevised, rfl⟩
  · exact ⟨Portal.Retouched.resolveDest.toRevised, rfl⟩
  · exact ⟨.refl, rfl⟩

theorem revised_of_look (hp : r.get? k = some p) (hq : (r.look origins dests).get? k = some q) :
    p.Revised r.worlds q := by
  obtain ⟨f, hf, hget⟩ := r.get?_look origins dests k
  rw [hget, hp] at hq
  exact Option.some.inj hq ▸ (hf p).1

theorem carries_look : r.Carries (r.look origins dests) where
  names := .refl _
  portal k := by
    obtain ⟨f, hf, hget⟩ := r.get?_look origins dests k
    rw [hget, Option.map_map]
    exact congrArg (Option.map · (r.get? k)) (funext fun p => (hf p).2)
  origin _ _ _ hp hq := congrArg (Option.map Location.spot) (revised_of_look hp hq).location?_origin
  dest _ _ _ hp hq := congrArg (Option.map Location.spot) (revised_of_look hp hq).location?_dest

theorem Homed.look (h : r.Homed) : (r.look origins dests).Homed := by
  have hall : ∀ q ∈ (r.look origins dests).all, ∃ p ∈ r.all, p.Revised r.worlds q := by
    intro q hq
    obtain ⟨k, hq⟩ := mem_all_iff.1 hq
    obtain ⟨p, hp, -⟩ := carries_look.symm.exists_get? hq
    exact ⟨p, mem_all_iff.2 ⟨k, hp⟩, revised_of_look hp hq⟩
  refine ⟨⟨?_, ?_⟩, h.worlds, ?_, ?_⟩
  · exact (Narrows.of_step step_look).keyed h.keyed
  · intro q hq
    obtain ⟨p, hp, hr⟩ := hall q hq
    exact ⟨(h.genuine p hp).1.asked hr.origin, (h.genuine p hp).2.asked hr.dest⟩
  · intro q hq
    obtain ⟨p, hp, hr⟩ := hall q hq
    exact (h.origin p hp).asked hr.origin
  · intro q hq
    obtain ⟨p, hp, hr⟩ := hall q hq
    exact (h.dest p hp).asked hr.dest

end look

theorem Carries.faithful (h : r.Carries s) (hr : ∀ p ∈ r.all, p.Faithful) :
    ∀ q ∈ s.all, q.Faithful := by
  intro q hq
  obtain ⟨k, hk⟩ := mem_all_iff.1 hq
  obtain ⟨p, hp, he⟩ := h.symm.exists_get? hk
  have hfaithful : p.restored.Faithful := hr p (mem_all_iff.2 ⟨k, hp⟩)
  exact (he ▸ hfaithful : q.restored.Faithful)

theorem Reload.carries (h : Reload r s) (hr : r.Homed) (faithful : ∀ p ∈ r.all, p.Faithful) :
    s.Homed ∧ r.Carries s := by
  cases h with
  | restart hreopens hstart =>
    obtain ⟨b, hb, hregistry⟩ :=
      start_encode hreopens.hosts fun p hp => faithful p (hreopens.saved.mem_iff.1 hp)
    obtain rfl := Except.ok.inj (hstart.symm.trans hb)
    rw [hregistry]
    exact ⟨hreopens.homed hr, hreopens.carries hr⟩
  | look origins dests => exact ⟨hr.look, carries_look⟩

theorem carries_of_reloads (h : Relation.ReflTransGen Reload r s) (hr : r.Homed)
    (faithful : ∀ p ∈ r.all, p.Faithful) : s.Homed ∧ r.Carries s := by
  induction h with
  | refl => exact ⟨hr, .refl⟩
  | tail _ hstep ih =>
    obtain ⟨hhomed, hcarries⟩ := ih
    obtain ⟨hhomed', hcarries'⟩ := hstep.carries hhomed (hcarries.faithful faithful)
    exact ⟨hhomed', hcarries.trans hcarries'⟩

/-- However often a server is restarted with the file that it left behind, the next restart does not
fail, and its portals are where they were when they were at home, linked as they were. -/
theorem preserved_across_restarts (homed : r.Homed) (faithful : ∀ p ∈ r.all, p.Faithful)
    (reloads : Relation.ReflTransGen Reload r s) :
    r.Preserved s ∧
    ∀ settings relay fresh ps, s.Reopens settings fresh ps →
      ∃ b, Backend.start settings relay (some (Archive.encode ps)) fresh = .ok b ∧
        r.Preserved b.registry := by
  obtain ⟨hs, hcarries⟩ := carries_of_reloads reloads homed faithful
  refine ⟨hcarries.preserved homed hs, fun settings relay fresh ps hreopens => ?_⟩
  have hfaithful : ∀ p ∈ ps, p.Faithful := fun p hp =>
    hcarries.faithful faithful p (hreopens.saved.mem_iff.1 hp)
  obtain ⟨b, hb, hregistry⟩ := start_encode hreopens.hosts hfaithful
  refine ⟨b, hb, ?_⟩
  rw [hregistry]
  exact (hcarries.trans (hreopens.carries hs)).preserved homed (hreopens.homed hs)

end Registry

namespace Sample

/-- The same worlds in another order. -/
def successor : Settings where
  worlds := ["nether", "world"]

def newIds (i : Nat) : Uuid :=
  ⟨.replicate 16 (.ofNat (100 + i))⟩

/-- The pair after one of the two was asked for both its ends. -/
def looked : Registry :=
  (registryOf pair).look (fun k _ => k = ⟨.replicate 16 6⟩) (fun k _ => k = ⟨.replicate 16 6⟩)

end Sample

open Sample in
theorem pair_restarted :
    (registryOf pair).Homed ∧ (∀ p ∈ (registryOf pair).all, p.Faithful) ∧
    ∃ b : Backend, Relation.ReflTransGen Registry.Reload (registryOf pair) b.registry ∧
      (registryOf pair).Preserved b.registry := by
  have haccounted : (registryOf pair).Accounted :=
    (Registry.Accounted.empty.register rfl).register rfl
  have hhomed : (registryOf pair).Homed :=
    ⟨⟨haccounted.keyed, by decide +kernel⟩, ⟨by decide +kernel, by decide +kernel⟩,
      by decide +kernel, by decide +kernel⟩
  have hfaithful : ∀ p ∈ (registryOf pair).all, p.Faithful := by decide +kernel
  have hlooked : Relation.ReflTransGen Registry.Reload (registryOf pair) looked :=
    .single (.look _ _)
  have hreopens : looked.Reopens successor newIds looked.all.reverse :=
    ⟨looked.all.reverse_perm, by decide, by decide +kernel, by decide +kernel, by decide +kernel⟩
  obtain ⟨-, hstart⟩ := Registry.preserved_across_restarts hhomed hfaithful hlooked
  obtain ⟨b, hb, hpreserved⟩ := hstart successor none newIds _ hreopens
  exact ⟨hhomed, hfaithful, b, hlooked.tail (.restart hreopens hb), hpreserved⟩

end PortalNet
