import PortalNet.Proofs.Command
import PortalNet.Proofs.Portal.Archive
import PortalNet.Proofs.Registry.Carried
import PortalNet.Proofs.Selection.Linking

/-! # Links that lead both ways

Nothing ties the two portals of a two-way link together but that each starts where the other leads.
As long as no other portal starts at either place, each is found as the other direction of the
other, and to remove one of them with its other direction undoes the link.
-/

namespace PortalNet

namespace Portal

/-- Made by a player and at rest, as the portals of a link are at first. -/
structure Pristine (p : Portal) : Prop where
  isCustom : p.isCustom = true
  activeTicks : p.activeTicks = none
  viewTicks : p.viewTicks = none

theorem Pristine.shutDown {p : Portal} {regions : Regions} (h : p.Pristine) :
    p.shutDown regions = (p, regions) := by
  have hview : p.viewDeactivate = p := by rw [viewDeactivate, ← h.viewTicks]
  rw [Portal.shutDown, hview]
  simp [isActivated, h.activeTicks]

end Portal

namespace Registry

/-- `t` is `r` with two more portals. -/
structure Gains (r : Registry) (p q : Portal) (t : Registry) : Prop where
  first : t.get? p.id = some p
  second : t.get? q.id = some q
  others : ∀ k, k ≠ p.id → k ≠ q.id → t.get? k = r.get? k
  worlds : t.worlds = r.worlds
  regions : t.regions = r.regions

variable {r t : Registry} {p q : Portal} {l : Location}

theorem register_register (hp : r.get? p.id = none) (hq : r.get? q.id = none) (hne : p.id ≠ q.id) :
    (r.register q).register p =
      { r with portals := (r.portals.insert q.id q).insert p.id p } := by
  have hnew : (r.register q).get? p.id = none := by
    rw [register_of_get?_eq_none hq]
    exact Table.get?_insert.trans (by rw [if_neg hne.symm]; exact hp)
  rw [register_of_get?_eq_none hnew, register_of_get?_eq_none hq]

theorem gains_register (hp : r.get? p.id = none) (hq : r.get? q.id = none) (hne : p.id ≠ q.id) :
    r.Gains p q ((r.register q).register p) := by
  have hget : ∀ k, ((r.portals.insert q.id q).insert p.id p).get? k =
      if p.id = k then some p else if q.id = k then some q else r.get? k := by
    intro k
    rw [Table.get?_insert, Table.get?_insert]
    rfl
  rw [register_register hp hq hne]
  constructor
  · exact (hget _).trans (if_pos rfl)
  · exact (hget _).trans ((if_neg hne).trans (if_pos rfl))
  · exact fun k hkp hkq => (hget k).trans ((if_neg hkp.symm).trans (if_neg hkq.symm))
  · rfl
  · rfl

/-- The only portal that starts where this one leads is the one that leads back. -/
theorem paired?_eq_some (hq : q ∈ r.all) (hne : q.id ≠ p.id) (hl : r.leads p q = true)
    (honly : ∀ o ∈ r.all, o.id ≠ p.id → r.leads p o = true → o = q) : r.paired? p = some q := by
  obtain ⟨k, hk⟩ := mem_all_iff.1 hq
  obtain ⟨o, ho⟩ := Option.isSome_iff_exists.1 (paired?_isSome_iff.2 ⟨k, q, hk, hne, hl⟩)
  rw [ho]
  rw [paired?_eq] at ho
  obtain ⟨l, hl, ho⟩ := Option.bind_eq_some_iff.1 ho
  obtain ⟨hid, hstarts⟩ : o.id ≠ p.id ∧ r.startsAt l o = true := by simpa using List.find?_some ho
  have hleads : r.leads p o = true := by rwa [leads, hl, Option.any_some]
  exact congrArg some (honly o (List.mem_of_find?_eq_some ho) hid hleads)

theorem removeOne_of_pristine (hp : r.get? p.id = some p) (h : p.Pristine) :
    r.removeOne p.id = (some p, { r with portals := r.portals.erase p.id }) := by
  simp [removeOne, take, hp, h.shutDown, Portal.isAutoSpawned, h.isCustom]

/-- A new portal is removed from where it alone starts. -/
theorem removeAt_register (hq : r.get? q.id = none) (h : q.Pristine)
    (hstarts : r.startsAt l q = true) (hnone : ∀ o ∈ r.all, r.startsAt l o = false) :
    ((r.register q).removeAt l).2 = r.resolveOrigins := by
  have hids : ((r.register q).all.filter ((r.register q).startsAt l)).map (·.id) = [q.id] := by
    have hall : (r.register q).all = r.all ++ [q] := by
      rw [register_of_get?_eq_none hq, all, Table.values, Table.entries_insert hq, List.map_append]
      rfl
    have hnil : r.all.filter (r.startsAt l) = [] :=
      List.filter_eq_nil_iff.2 fun o ho => by simp [hnone o ho]
    change ((r.register q).all.filter (r.startsAt l)).map (·.id) = _
    rw [hall, List.filter_append, hnil, List.filter_cons_of_pos hstarts]
    rfl
  have hget : (r.register q).resolveOrigins.get? q.id = some (q.resolveOrigin r.worlds) := by
    rw [register_of_get?_eq_none hq]
    exact Table.get?_mapValues.trans (by rw [Table.get?_insert_self]; rfl)
  have herase : (((r.portals.insert q.id q).mapValues fun _ o => o.resolveOrigin r.worlds).erase
      q.id) = r.portals.mapValues fun _ o => o.resolveOrigin r.worlds := by
    rw [Table.erase_mapValues, Table.erase_insert hq]
  have hresolved : (q.resolveOrigin r.worlds).Pristine := ⟨h.isCustom, h.activeTicks, h.viewTicks⟩
  have hone := removeOne_of_pristine (p := q.resolveOrigin r.worlds) hget hresolved
  change ((r.register q).resolveOrigins.removeEach _).2 = _
  rw [hids]
  change ((r.register q).resolveOrigins.removeOne (q.resolveOrigin r.worlds).id).2 = _
  rw [hone, register_of_get?_eq_none hq]
  exact congrArg (fun portals => { r with portals }) herase

/-- Two portals that are about to be registered, each of which leads to the other and to no portal
that there is. -/
structure Twins (r : Registry) (p q : Portal) : Prop where
  first_new : r.get? p.id = none
  second_new : r.get? q.id = none
  distinct : p.id ≠ q.id
  first_pristine : p.Pristine
  second_pristine : q.Pristine
  forth : r.leads p q = true
  back : r.leads q p = true
  alone : ∀ o ∈ r.all, r.leads p o = false ∧ r.leads q o = false

namespace Twins

theorem mem_all (h : r.Twins p q) {o : Portal} (ho : o ∈ ((r.register q).register p).all) :
    o = p ∨ o = q ∨ o ∈ r.all := by
  rw [register_register h.first_new h.second_new h.distinct] at ho
  have hold : ∀ o ∈ (r.portals.insert q.id q).values, o = q ∨ o ∈ r.all :=
    fun _ => mem_all_insert
  obtain ⟨k, hk⟩ := Table.mem_values_iff.1 ho
  rw [Table.get?_insert] at hk
  split at hk
  · exact .inl (Option.some.inj hk).symm
  · exact .inr (hold o (Table.mem_values_iff.2 ⟨k, hk⟩))

theorem leads_eq (h : r.Twins p q) {a b : Portal} :
    ((r.register q).register p).leads a b = r.leads a b := by
  rw [register_register h.first_new h.second_new h.distinct]
  rfl

theorem paired_first (h : r.Twins p q) : ((r.register q).register p).paired? p = some q := by
  have hgains := gains_register h.first_new h.second_new h.distinct
  refine paired?_eq_some (mem_all_iff.2 ⟨_, hgains.second⟩) h.distinct.symm
    (h.leads_eq.trans h.forth) ?_
  intro o ho hid hl
  rw [h.leads_eq] at hl
  rcases h.mem_all ho with rfl | rfl | ho
  · exact absurd rfl hid
  · rfl
  · rw [(h.alone o ho).1] at hl
    cases hl

theorem paired_second (h : r.Twins p q) : ((r.register q).register p).paired? q = some p := by
  have hgains := gains_register h.first_new h.second_new h.distinct
  refine paired?_eq_some (mem_all_iff.2 ⟨_, hgains.first⟩) h.distinct (h.leads_eq.trans h.back) ?_
  intro o ho hid hl
  rw [h.leads_eq] at hl
  rcases h.mem_all ho with rfl | rfl | ho
  · rfl
  · exact absurd rfl hid
  · rw [(h.alone o ho).2] at hl
    cases hl

/-- The one that is asked for takes the other along. -/
theorem remove_both (hq : r.get? q.id = none) (hp : p.Pristine) (hqp : q.Pristine)
    (hl : r.leads p q = true) (hnone : ∀ o ∈ r.all, r.leads p o = false)
    (hget : t.get? p.id = some p) (ht : { t with portals := t.portals.erase p.id } = r.register q) :
    t.remove p.id true = (some p, r.resolveOrigins) := by
  have hcustom : p.isAutoSpawned = false := by rw [Portal.isAutoSpawned, hp.isCustom]; rfl
  unfold leads at hl hnone
  cases htarget : r.target? p with
  | none => simp [htarget] at hl
  | some l =>
    simp only [htarget, Option.any_some] at hl hnone
    have htarget' : (r.register q).target? p = some l := htarget
    have hother : (r.register q).removeOther p = r.resolveOrigins := by
      rw [removeOther, htarget']
      exact removeAt_register hq hqp hl hnone
    rw [remove_of_get? hget, removeOne_of_pristine hget hp, hp.shutDown]
    dsimp only
    rw [ht, hcustom, hother]
    rfl

theorem remove_first (h : r.Twins p q) :
    ((r.register q).register p).remove p.id true = (some p, r.resolveOrigins) := by
  have hgains := gains_register h.first_new h.second_new h.distinct
  refine remove_both h.second_new h.first_pristine h.second_pristine h.forth
    (fun o ho => (h.alone o ho).1) hgains.first ?_
  have hnew : (r.portals.insert q.id q).get? p.id = none :=
    Table.get?_insert.trans ((if_neg h.distinct.symm).trans h.first_new)
  rw [register_register h.first_new h.second_new h.distinct, register_of_get?_eq_none h.second_new,
    Table.erase_insert hnew]

theorem remove_second (h : r.Twins p q) :
    ((r.register q).register p).remove q.id true = (some q, r.resolveOrigins) := by
  have hgains := gains_register h.first_new h.second_new h.distinct
  refine remove_both h.first_new h.second_pristine h.first_pristine h.back
    (fun o ho => (h.alone o ho).2) hgains.second ?_
  rw [register_register h.first_new h.second_new h.distinct, register_of_get?_eq_none h.first_new,
    Table.erase_insert_of_ne h.distinct, Table.erase_insert h.second_new]

end Twins

end Registry

namespace Selection

variable {s : Selection} {b : Bounds} {ws : Worlds}

/-- A window in a loaded world has a place there, if it can be found in words. -/
theorem exists_location (hb : s.bounds = .ok b) (hsums : b.SumsFit)
    (hw : (ws.byId? b.world.id).isSome) :
    ∃ (p : Position) (l : Location), s.position = .ok p ∧ p.isExternal = false ∧
      p.locate? ws = some l ∧ l.Same l := by
  obtain ⟨w, hw⟩ := Option.isSome_iff_exists.1 hw
  have hp := (position_of_bounds hb).trans (if_pos hsums)
  have hcenter : (b.heart : Vec3 Double).Same b.heart := by
    have hhalf := b.isHalf_heart
    simp only [List.forall_mem_cons] at hhalf
    exact ⟨Floating.same_self hhalf.1.isFinite, Floating.same_self hhalf.2.1.isFinite,
      Floating.same_self hhalf.2.2.1.isFinite⟩
  refine ⟨_, ⟨w, b.heart⟩, hp, rfl, ?_, rfl, hcenter⟩
  simp [Position.locate?, Position.resolve?, Position.ofLocation, Position.isExternal,
    Worlds.resolve?, hw]

end Selection

namespace Registry

variable {r : Registry} {s d : Selection} {b c : Bounds} {options : LinkOptions}
  {fresh : Nat → Uuid} {near far : Position} {id : Uuid} {size destSize : Size Double}
  {l : Location}

theorem pristine_linkedPortal : (linkedPortal options id near far size).Pristine :=
  ⟨rfl, rfl, rfl⟩

/-- A portal that is linked to a place leads to whatever is linked from there. -/
theorem leads_linkedPortal {id' : Uuid} {end' : Position} (hlocal : far.isExternal = false)
    (hl : far.locate? r.worlds = some l) (hsame : l.Same l) :
    r.leads (linkedPortal options id near far size) (linkedPortal options id' far end' size) =
      true := by
  have hlocation : ((far : Anchor)).location? r.worlds = some l := by
    rw [Anchor.location?_eq, hl]
    rfl
  have htarget : r.target? (linkedPortal options id near far size) = some l := by
    rw [target?, Portal.isCrossServer]
    exact (if_neg (by simpa [linkedPortal] using hlocal)).trans hlocation
  rw [leads, htarget, Option.any_some, startsAt]
  simp only [linkedPortal, hlocation]
  exact decide_eq_true hsame

theorem link_twoWay (hs : s.size = .ok size) (hd : d.size = .ok destSize)
    (hsize : size.Same destSize) (htwo : options.twoWay = true) (hnear : s.position = .ok near)
    (hfar : (if options.invert then d.invert else d).position = .ok far) :
    r.link s d options fresh = (.ok [fresh 0, fresh 1],
      (r.register (linkedPortal options (fresh 1) far near size)).register
        (linkedPortal options (fresh 0) near far size)) := by
  have hends : linkEnds s d options = .ok (size, near, far) := by
    rw [linkEnds_of_sizes hs hd, if_pos hsize, hnear, hfar]
    rfl
  rw [link, hends]
  simp only [htwo, if_true]
  rfl

/-- A two-way link between two windows of one size in loaded worlds, which can be measured in words,
adds two portals with their ends exchanged, and answers with the ids of the one that leads there and
the one that leads back. If no earlier portal starts where one of them leads, then each is found as
the other direction of the other, also if both lead to where they start, and to remove one of them
with its other direction takes back the link: but for the places that portals remember, the registry
is what it was. -/
theorem two_way_link (hs : s.bounds = .ok b) (hd : d.bounds = .ok c) (hbfits : b.Fits)
    (hcfits : c.Fits) (hsize : (b.blocks : Size Double).Same c.blocks)
    (hb : (r.worlds.byId? b.world.id).isSome) (hc : (r.worlds.byId? c.world.id).isSome)
    (htwo : options.twoWay = true) (hne : fresh 0 ≠ fresh 1) (hthere : r.get? (fresh 0) = none)
    (hback : r.get? (fresh 1) = none) :
    ∃ near far, s.position = .ok near ∧
      (if options.invert then d.invert else d).position = .ok far ∧
      s.size = .ok (b.blocks : Size Double) ∧ d.size = .ok (c.blocks : Size Double) ∧
      let there := linkedPortal options (fresh 0) near far b.blocks
      let back := linkedPortal options (fresh 1) far near b.blocks
      ∃ t, r.link s d options fresh = (.ok [there.id, back.id], t) ∧ r.Gains there back t ∧
        ((∀ q ∈ r.all, r.leads there q = false ∧ r.leads back q = false) →
          t.paired? there = some back ∧ t.paired? back = some there ∧
          ∀ p ∈ [there, back], (t.remove p.id true).1 = some p ∧
            r.Consulted (t.remove p.id true).2) := by
  have hturned : (if options.invert then d.invert else d).bounds = .ok c := by
    split <;> exact hd
  obtain ⟨near, l, hnear, hnlocal, hl, hlsame⟩ := Selection.exists_location hs hbfits.2 hb
  obtain ⟨far, m, hfar, hflocal, hm, hmsame⟩ := Selection.exists_location hturned hcfits.2 hc
  have hbsize : s.size = .ok (b.blocks : Size Double) :=
    (Selection.size_of_bounds hs).trans (if_pos hbfits.1)
  have hcsize : d.size = .ok (c.blocks : Size Double) :=
    (Selection.size_of_bounds hd).trans (if_pos hcfits.1)
  have hlink : r.link s d options fresh = _ := link_twoWay hbsize hcsize hsize htwo hnear hfar
  have hgains : r.Gains (linkedPortal options (fresh 0) near far b.blocks)
      (linkedPortal options (fresh 1) far near b.blocks) _ := gains_register hthere hback hne
  refine ⟨near, far, hnear, hfar, hbsize, hcsize, _, hlink, hgains, ?_⟩
  intro hnone
  have htwins : r.Twins (linkedPortal options (fresh 0) near far b.blocks)
      (linkedPortal options (fresh 1) far near b.blocks) :=
    { first_new := hthere
      second_new := hback
      distinct := hne
      first_pristine := pristine_linkedPortal
      second_pristine := pristine_linkedPortal
      forth := leads_linkedPortal hflocal hm hmsame
      back := leads_linkedPortal hnlocal hl hlsame
      alone := hnone }
  refine ⟨htwins.paired_first, htwins.paired_second, ?_⟩
  rw [List.forall_mem_cons, List.forall_mem_singleton, htwins.remove_first, htwins.remove_second]
  exact ⟨⟨rfl, .resolveOrigins⟩, ⟨rfl, .resolveOrigins⟩⟩

end Registry

open Sample in
/-- A window that is linked to itself is a pair too. -/
theorem window_linked_to_itself :
    let s := Selection.ofCorners nether ⟨0, 0, 0⟩ ⟨1, 2, 0⟩
    let options : LinkOptions := { twoWay := true, invert := true }
    let ids : Nat → Uuid := fun i => ⟨.replicate 16 (.ofNat i)⟩
    ∃ p q t, Registry.link { worlds } s s options ids = (.ok [p.id, q.id], t) ∧
      t.paired? p = some q ∧ t.paired? q = some p ∧
      Registry.Consulted { worlds } (t.remove p.id true).2 := by
  intro s options ids
  have hbounds : s.bounds = .ok ⟨nether, ⟨0, 0, 0⟩, ⟨1, 2, 0⟩⟩ := rfl
  have htwo : options.twoWay = true := rfl
  obtain ⟨near, far, -, -, -, -, t, hlink, -, htwins⟩ :=
    Registry.two_way_link (r := { worlds }) hbounds hbounds (by decide) (by decide) (by decide)
      rfl rfl htwo (show ids 0 ≠ ids 1 by decide) rfl rfl
  obtain ⟨hp, hq, hremove⟩ := htwins fun q hq => absurd hq List.not_mem_nil
  obtain ⟨-, hconsulted⟩ := hremove _ List.mem_cons_self
  exact ⟨_, _, t, hlink, hp, hq, hconsulted⟩

open Sample in
/-- A window so far up that its middle is not found in words, in a loaded world. -/
theorem far_window_unpaired :
    let s := Selection.ofCorners nether ⟨0, 1073741824, 0⟩ ⟨1, 1073741826, 0⟩
    let ids : Nat → Uuid := fun i => ⟨.replicate 16 (.ofNat i)⟩
    (∃ b, s.bounds = .ok b ∧ (worlds.byId? b.world.id).isSome) ∧
      (∃ size : Size Double, s.size = .ok size ∧ size.Same size) ∧
      (Registry.link { worlds } s s { twoWay := true } ids).1 = .error .overflow :=
  ⟨⟨_, rfl, rfl⟩, ⟨_, rfl, by decide⟩, rfl⟩

end PortalNet
