import PortalNet.Proofs.Registry.Nearest
import PortalNet.Proofs.Registry.Order

/-! # How far removals reach

A portal that is removed with its other direction takes along the portals that start exactly where
it leads, and those take none along. All other ways to remove portals take just the portals that
were asked for. Blocks go with lit portals only.
-/

namespace PortalNet

namespace Registry

variable {r : Registry} {ids : List Uuid} {id : Uuid} {p : Portal} {l : Location} {name : String}
  {otherDirection : Bool}

/-- The ids of the portals that go when a portal is removed. -/
def going (r : Registry) (p : Portal) (otherDirection : Bool) : Set Uuid :=
  if otherDirection then {p.id} ∪ r.led p else {p.id}

/-- The blocks that are cleared then. -/
def clearing (r : Registry) (p : Portal) (otherDirection : Bool) : Set (Uuid × Block) :=
  if otherDirection then r.marked (r.going p true) ∪ {x | x ∈ p.farMark? r.worlds}
  else r.marked {p.id}

def bearing (r : Registry) (name : String) : Set Uuid :=
  {k | ∃ p, r.get? k = some p ∧ p.name = some name}

def chosen (r : Registry) (l : Location) : Set Uuid :=
  {k | ∃ p, r.closest? l reach = some p ∧ k = p.id}

theorem remove_exact (hr : r.Keyed) (hp : p ∈ r.all) :
    (r.remove p.id otherDirection).1 = some (p.shutDown r.regions).1 ∧
      r.Cut (r.going p otherDirection) (r.clearing p otherDirection)
        (otherDirection && (r.target? p).isSome) (r.remove p.id otherDirection).2 := by
  have hget : r.get? p.id = some p := hr.get?_of_mem hp
  cases otherDirection with
  | false =>
    rw [remove_alone]
    exact ⟨congrArg Prod.fst (removeOne_of_get? hget), cut_removeOne⟩
  | true => exact ⟨congrArg Prod.fst (remove_of_get? hget), cut_remove hr hget⟩

/-- A list of registered portals is answered as it was asked for. -/
theorem removeEach_ids (hr : r.Keyed) (hids : ∀ id ∈ ids, (r.get? id).isSome) (hnodup : ids.Nodup) :
    (r.removeEach ids).1.map (·.id) = ids := by
  induction ids generalizing r with
  | nil => rfl
  | cons id ids ih =>
    obtain ⟨hid, hids⟩ := List.forall_mem_cons.1 hids
    obtain ⟨hnew, hnodup⟩ := List.nodup_cons.1 hnodup
    obtain ⟨p, hp⟩ := Option.isSome_iff_exists.1 hid
    have hone : r.Cut {id} (r.marked {id}) false (r.removeOne id).2 := cut_removeOne
    have hrest : ∀ k ∈ ids, ((r.removeOne id).2.get? k).isSome := by
      intro k hk
      have hne : k ∉ ({id} : Set Uuid) := by
        rintro rfl
        exact hnew hk
      rw [hone.kept k hne, Option.isSome_map]
      exact hids k hk
    have hfirst : (r.removeOne id).1 = some (p.shutDown r.regions).1 :=
      congrArg Prod.fst (removeOne_of_get? hp)
    have hkey : (p.shutDown r.regions).1.id = id :=
      (@Portal.Revised.shutDown r.worlds p r.regions).id.trans (hr id p hp)
    change ((r.removeOne id).1.toList ++ ((r.removeOne id).2.removeEach ids).1).map (·.id) = _
    rw [hfirst, List.map_append, ih (hone.narrows.keyed hr) hrest hnodup]
    simp [hkey]

theorem mem_ids_filter_iff (hr : r.Keyed) {which : Portal → Bool} {k : Uuid} :
    k ∈ (r.all.filter which).map (·.id) ↔ ∃ p, r.get? k = some p ∧ which p = true := by
  rw [List.mem_map]
  constructor
  · rintro ⟨p, hp, rfl⟩
    obtain ⟨hp, hw⟩ := List.mem_filter.1 hp
    exact ⟨p, hr.get?_of_mem hp, hw⟩
  · rintro ⟨p, hp, hw⟩
    exact ⟨p, List.mem_filter.2 ⟨mem_all_iff.2 ⟨k, hp⟩, hw⟩, hr k p hp⟩

theorem removeAt_exact (hr : r.Keyed) :
    (r.removeAt l).1.map (·.id) = (r.all.filter (r.startsAt l)).map (·.id) ∧
      r.Cut (r.starting l) (r.marked (r.starting l)) true (r.removeAt l).2 := by
  refine ⟨removeEach_ids (cut_resolveOrigins.narrows.keyed hr) ?_ ?_, cut_removeAt hr⟩
  · intro k hk
    obtain ⟨p, hp, -⟩ := (mem_ids_filter_iff hr).1 hk
    rw [cut_resolveOrigins.kept k (Set.notMem_empty k), hp]
    rfl
  · exact hr.nodup_ids.sublist (List.filter_sublist.map _)

theorem removeNamed_exact (hr : r.Keyed) :
    (r.removeNamed name).1 =
        (if r.named name = [] then throw (.noPortalNamed name) else return (r.named name).length) ∧
      r.Cut (r.bearing name) (r.marked (r.bearing name)) false (r.removeNamed name).2 := by
  have hids : {k | k ∈ (r.named name).map (·.id)} = r.bearing name := by
    ext k
    rw [Set.mem_ofPred_eq, named, mem_ids_filter_iff hr]
    simp [bearing]
  have heach : r.Cut (r.bearing name) (r.marked (r.bearing name)) false
      (r.removeEach ((r.named name).map (·.id))).2 :=
    hids ▸ cut_removeEach
  simp only [removeNamed, List.isEmpty_iff, List.map_eq_nil_iff]
  split
  · next hnone =>
    rw [hnone] at heach
    exact ⟨rfl, heach⟩
  · rw [List.length_map]
    exact ⟨rfl, heach⟩

theorem removeNearest_exact (hr : r.Keyed) :
    (r.removeNearest l false).1.map (·.id) =
        ((r.closest? l reach).map (·.id)).elim (throw (.noPortalWithin reach)) pure ∧
      r.Cut (r.chosen l) (r.marked (r.chosen l)) true (r.removeNearest l false).2 := by
  have hresolve : r.Cut ∅ ∅ true r.resolveOrigins := cut_resolveOrigins
  unfold removeNearest
  cases h : r.closest? l reach with
  | none =>
    have hchosen : r.chosen l = ∅ := by simp [chosen, h]
    refine ⟨rfl, ?_⟩
    rw [hchosen]
    simpa [marked] using hresolve
  | some p =>
    have hchosen : r.chosen l = {p.id} := by simp [chosen, h]
    obtain ⟨d, ⟨hp, -, -⟩, -⟩ := closest?_spec h
    have hget : r.resolveOrigins.get? p.id = some (p.resolveOrigin r.worlds) := by
      rw [hresolve.kept _ (Set.notMem_empty _), hr.get?_of_mem hp]
      rfl
    have hone : r.resolveOrigins.Cut {p.id} (r.resolveOrigins.marked {p.id}) false
        (r.resolveOrigins.removeOne p.id).2 := cut_removeOne
    have hcut := hresolve.trans hone
    rw [hresolve.marked_of_empty, Set.empty_union, Set.empty_union, Bool.or_false] at hcut
    have hid : ((p.resolveOrigin r.worlds).shutDown r.regions).1.id = p.id :=
      (@Portal.Revised.shutDown r.worlds (p.resolveOrigin r.worlds) r.regions).id
    dsimp only
    rw [remove_alone, hchosen, removeOne_of_get? hget]
    exact ⟨congrArg Except.ok hid, hcut⟩

/-- Each way to remove portals answers with what it took, and takes just that: the portals that are
asked for and, with the other direction, those that start exactly where they lead. Just the blocks
of the lit ones among them become air. Of what stays, portals may have been asked where they
start. -/
theorem removals_exact (hr : r.Keyed) :
    (∀ p ∈ r.all, ∀ otherDirection,
      (r.remove p.id otherDirection).1 = some (p.shutDown r.regions).1 ∧
      r.Cut (r.going p otherDirection) (r.clearing p otherDirection)
        (otherDirection && (r.target? p).isSome) (r.remove p.id otherDirection).2) ∧
    (∀ l, (r.removeAt l).1.map (·.id) = (r.all.filter (r.startsAt l)).map (·.id) ∧
      r.Cut (r.starting l) (r.marked (r.starting l)) true (r.removeAt l).2) ∧
    (∀ name, (r.removeNamed name).1 =
        (if r.named name = [] then throw (.noPortalNamed name) else return (r.named name).length) ∧
      r.Cut (r.bearing name) (r.marked (r.bearing name)) false (r.removeNamed name).2) ∧
    (∀ l, (r.removeNearest l false).1.map (·.id) =
        ((r.closest? l reach).map (·.id)).elim (throw (.noPortalWithin reach)) pure ∧
      r.Cut (r.chosen l) (r.marked (r.chosen l)) true (r.removeNearest l false).2) :=
  ⟨fun _ hp _ => remove_exact hr hp, fun _ => removeAt_exact hr, fun _ => removeNamed_exact hr,
    fun _ => removeNearest_exact hr⟩

end Registry

open Sample in
/-- A lit portal takes along the two that start where it leads, and the portal beside it stays. -/
theorem lit_portal_removed_from_crowd :
    let r := registryOf (pair ++ crowd)
    let p := passing 6 here there false
    let s := (r.remove p.id true).2
    r.Keyed ∧ p ∈ r.all ∧ (r.remove p.id true).1 = some p ∧
      s.get? (passing 7 there here false).id = none ∧ s.get? (passing 9 there here true).id = none ∧
      s.get? (passing 8 here there true).id =
        some ((passing 8 here there true).resolveOrigin r.worlds) ∧
      s.worlds.materialAt nether.id there.block = .air := by
  intro r p s
  have hkeyed : r.Keyed :=
    ((((Registry.Accounted.empty.register rfl).register rfl).register rfl).register rfl).keyed
  have hp : p ∈ r.all := by decide +kernel
  have htwin : r.get? (passing 7 there here false).id = some (passing 7 there here false) ∧
      r.leads p (passing 7 there here false) = true := by
    decide +kernel
  have hbeyond : r.get? (passing 9 there here true).id = some (passing 9 there here true) ∧
      r.leads p (passing 9 there here true) = true := by
    decide +kernel
  have hbeside : r.get? (passing 8 here there true).id = some (passing 8 here there true) ∧
      r.leads p (passing 8 here there true) = false := by
    decide +kernel
  have hstays : (passing 8 here there true).id ∉ r.going p true := by
    rintro (hid | ⟨q, hq, hleads⟩)
    · exact absurd hid (by decide)
    · rw [Option.some.inj (hbeside.1.symm.trans hq), hleads] at hbeside
      cases hbeside.2
  obtain ⟨hanswer, hcut⟩ := (Registry.removals_exact hkeyed).1 p hp true
  refine ⟨hkeyed, hp, hanswer, hcut.gone _ (.inr ⟨_, htwin⟩), hcut.gone _ (.inr ⟨_, hbeyond⟩), ?_,
    hcut.air (nether.id, there.block) (.inr rfl)⟩
  rw [hcut.kept _ hstays, hbeside.1]
  rfl

end PortalNet
