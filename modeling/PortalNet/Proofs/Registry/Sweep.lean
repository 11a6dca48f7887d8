import PortalNet.Proofs.Registry.Holding
import PortalNet.Proofs.Registry.Removal

/-! # What a tick sweeps away

The broken portals remove themselves in turn, each with the portals that start where it leads. One
that an earlier one took along does nothing more, so that what stays can depend on the order of the
portals.
-/

namespace PortalNet

namespace Registry

def broken (r : Registry) : List Portal :=
  r.all.filter (!·.isValid r.worlds)

/-- The portals of a list that remove themselves in turn, after some that did: those that are not
taken along by then. -/
def acting (r : Registry) (acted : List Portal) : List Portal → List Portal
  | [] => []
  | p :: ps =>
    if acted.any (r.leads · p) then r.acting acted ps else p :: r.acting (acted ++ [p]) ps

/-- The ids that go when some portals remove themselves. -/
def goes (r : Registry) (ps : List Portal) : Set Uuid :=
  {k | ∃ p ∈ ps, k ∈ {p.id} ∪ r.led p}

/-- The blocks that are cleared then. -/
def clears (r : Registry) (ps : List Portal) : Set (Uuid × Block) :=
  r.marked (r.goes ps) ∪ {x | ∃ p ∈ ps, x ∈ p.dest.place? r.worlds}

/-- Whether the other portals are asked then where they start. -/
def asks (r : Registry) (ps : List Portal) : Bool :=
  ps.any fun p => (r.target? p).isSome

/-- The registry after the clocks of its portals went on. -/
def ticked (r : Registry) : Registry :=
  { r with portals := r.portals.mapValues fun _ => updatePortal r.worlds }

/-- `s` is what a tick leaves when exactly these portals remove themselves. -/
def Swept (r : Registry) (ps : List Portal) (s : Registry) : Prop :=
  r.ticked.Cut (r.goes ps) (r.clears ps) (r.asks ps) s

variable {r s : Registry} {ps acted : List Portal} {p q a : Portal} {k : Uuid}

section acting

theorem mem_of_acting (h : p ∈ r.acting acted ps) : p ∈ ps := by
  induction ps generalizing acted with
  | nil => exact h
  | cons q ps ih =>
    simp only [acting] at h
    split at h
    · exact List.mem_cons_of_mem _ (ih h)
    · rcases List.mem_cons.1 h with rfl | h
      · exact List.mem_cons_self
      · exact List.mem_cons_of_mem _ (ih h)

/-- Whoever does not act is taken along by one that acts. -/
theorem taken_of_not_acting (hp : p ∈ ps) (h : p ∉ r.acting acted ps) :
    ∃ a ∈ acted ++ r.acting acted ps, r.leads a p = true := by
  induction ps generalizing acted with
  | nil => cases hp
  | cons q ps ih =>
    simp only [acting] at h ⊢
    split at h
    · next hq =>
      rw [if_pos hq]
      rcases List.mem_cons.1 hp with rfl | hp
      · obtain ⟨a, ha, hl⟩ := List.any_eq_true.1 hq
        exact ⟨a, List.mem_append_left _ ha, hl⟩
      · exact ih hp h
    · next hq =>
      rw [if_neg hq]
      obtain ⟨hne, h⟩ := not_or.1 (mt List.mem_cons.2 h)
      obtain ⟨a, ha, hl⟩ := ih ((List.mem_cons.1 hp).resolve_left hne) h
      refine ⟨a, ?_, hl⟩
      rwa [List.append_assoc] at ha

theorem target?_of_leads (h : r.leads a p = true) : (r.target? a).isSome = true := by
  unfold leads at h
  cases ht : r.target? a with
  | none => simp [ht] at h
  | some l => rfl

theorem asks_acting : r.asks (r.acting [] ps) = r.asks ps := by
  rw [Bool.eq_iff_iff, asks, asks, List.any_eq_true, List.any_eq_true]
  constructor
  · rintro ⟨p, hp, ht⟩
    exact ⟨p, mem_of_acting hp, ht⟩
  · rintro ⟨p, hp, ht⟩
    by_cases ha : p ∈ r.acting [] ps
    · exact ⟨p, ha, ht⟩
    · obtain ⟨a, ha, hl⟩ := taken_of_not_acting hp ha
      exact ⟨a, ha, target?_of_leads hl⟩

end acting

section sweep

theorem goes_append : r.goes (acted ++ [p]) = r.goes acted ∪ ({p.id} ∪ r.led p) := by
  ext k
  simp only [goes, Set.mem_union, Set.mem_ofPred_eq, List.mem_append, List.mem_singleton]
  constructor
  · rintro ⟨q, hq | rfl, hk⟩
    · exact .inl ⟨q, hq, hk⟩
    · exact .inr hk
  · rintro (⟨q, hq, hk⟩ | hk)
    · exact ⟨q, .inl hq, hk⟩
    · exact ⟨p, .inr rfl, hk⟩

theorem remove_of_none {otherDirection : Bool} (h : r.get? k = none) :
    r.remove k otherDirection = (none, r) := by
  simp only [remove, removeOne, take, h]

/-- One more portal removes itself. -/
theorem Cut.remove (hr : r.Keyed) (h : r.Cut (r.goes acted) (r.clears acted) (r.asks acted) s)
    (hk : p.id ∉ r.goes acted) (hq : r.get? p.id = some q) (hpq : p.Revised r.worlds q)
    (ha : p.isAutoSpawned = true) :
    r.Cut (r.goes (acted ++ [p])) (r.clears (acted ++ [p])) (r.asks (acted ++ [p]))
      (s.remove p.id true).2 := by
  obtain ⟨o, ho, hqo⟩ := h.get?_of_not_mem hk hq
  have hpo : p.Revised r.worlds o := hpq.trans hqo
  have hremove := cut_remove (h.narrows.keyed hr) ho
  have hfar : o.farMark? s.worlds = p.dest.place? r.worlds := by
    rw [Portal.farMark?_congr h.loaded, hpo.farMark?, Portal.farMark?, if_pos ha]
  have hgoes : r.goes acted ∪ ({p.id} ∪ s.led o) = r.goes (acted ++ [p]) := by
    rw [goes_append, Set.union_left_comm, h.union_led hpo, Set.union_left_comm]
  have hclears : r.clears acted ∪
      (s.marked ({p.id} ∪ s.led o) ∪ {x | x ∈ o.farMark? s.worlds}) =
        r.clears (acted ++ [p]) := by
    rw [clears, Set.union_union_union_comm, h.marked_union, hgoes, hfar, clears]
    congr 1
    ext x
    simp [or_and_right, exists_or]
  have hasks : (r.asks acted || (s.target? o).isSome) = r.asks (acted ++ [p]) := by
    rw [target?_eq h.loaded hpo, asks, asks, List.any_append, List.any_cons, List.any_nil,
      Bool.or_false]
  rw [← hgoes, ← hclears, ← hasks]
  exact h.trans hremove

theorem mem_goes_iff (hq : r.get? k = some q) :
    k ∈ r.goes ps ↔ ∃ a ∈ ps, k = a.id ∨ r.leads a q = true := by
  simp [goes, led, hq]

theorem remove_fst (hp : r.get? k = some p) : (r.remove k true).1.map (·.id) = some p.id := by
  have hrevised : p.Revised r.worlds (p.shutDown r.regions).1 := .shutDown
  rw [remove_of_get? hp]
  exact congrArg some hrevised.id

/-- The invariant of the sweep: what was removed so far is what goes with those that acted. -/
theorem Cut.removeBroken (hr : r.Keyed) (h : r.Cut (r.goes acted) (r.clears acted) (r.asks acted) s)
    (hps : ∀ p ∈ ps, p.isAutoSpawned = true ∧ ∃ q, r.get? p.id = some q ∧ p.Revised r.worlds q)
    (hnew : ∀ p ∈ ps, ∀ a ∈ acted, p.id ≠ a.id) (hnodup : (ps.map (·.id)).Nodup) :
    let all := acted ++ r.acting acted ps
    (s.removeBroken (ps.map (·.id))).1 = (r.acting acted ps).map (·.id) ∧
      r.Cut (r.goes all) (r.clears all) (r.asks all) (s.removeBroken (ps.map (·.id))).2 := by
  induction ps generalizing acted s with
  | nil =>
    rw [acting, List.append_nil]
    exact ⟨rfl, h⟩
  | cons p ps ih =>
    obtain ⟨⟨ha, q, hq, hpq⟩, hps⟩ := List.forall_mem_cons.1 hps
    obtain ⟨hp, hnew⟩ := List.forall_mem_cons.1 hnew
    rw [List.map_cons, List.nodup_cons] at hnodup
    have hleads : ∀ b, r.leads b q = r.leads b p := fun b => leads_eq rfl .refl hpq
    have hmem : p.id ∈ r.goes acted ↔ acted.any (r.leads · p) = true := by
      rw [mem_goes_iff hq, List.any_eq_true]
      constructor
      · rintro ⟨b, hb, hid | hl⟩
        · exact absurd hid (hp b hb)
        · exact ⟨b, hb, hleads b ▸ hl⟩
      · rintro ⟨b, hb, hl⟩
        exact ⟨b, hb, .inr (hleads b ▸ hl)⟩
    rw [List.map_cons, Registry.removeBroken, acting]
    split
    · next htaken =>
      rw [remove_of_none (h.gone _ (hmem.2 htaken))]
      exact ih h hps hnew hnodup.2
    · next hacts =>
      have hk : p.id ∉ r.goes acted := mt hmem.1 hacts
      obtain ⟨o, ho, hqo⟩ := h.get?_of_not_mem hk hq
      have hpo : p.Revised r.worlds o := hpq.trans hqo
      have hnew' : ∀ b ∈ ps, ∀ a ∈ acted ++ [p], b.id ≠ a.id := by
        intro b hb a hmem
        rcases List.mem_append.1 hmem with hmem | hmem
        · exact hnew b hb a hmem
        · rw [List.mem_singleton.1 hmem]
          rintro hid
          exact hnodup.1 (hid ▸ List.mem_map_of_mem hb)
      obtain ⟨hids, hcut⟩ := ih (h.remove hr hk hq hpq ha) hps hnew' hnodup.2
      rw [List.append_assoc] at hcut
      refine ⟨?_, hcut⟩
      change ((s.remove p.id true).1.map (·.id)).toList ++
        ((s.remove p.id true).2.removeBroken (ps.map (·.id))).1 = _
      rw [remove_fst ho, hids, hpo.id]
      rfl

end sweep

section ticked

theorem get?_ticked : r.ticked.get? k = (r.get? k).map (updatePortal r.worlds) :=
  Table.get?_mapValues

theorem leads_updatePortal : r.leads a (updatePortal r.worlds p) = r.leads a p :=
  leads_eq rfl .refl Portal.Retouched.updatePortal.toRevised

theorem acting_ticked : r.ticked.acting acted ps = r.acting acted ps := by
  induction ps generalizing acted with
  | nil => rfl
  | cons p ps ih =>
    simp only [acting, ih]
    rfl

theorem led_ticked : r.ticked.led p = r.led p := by
  ext k
  simp only [led, Set.mem_ofPred_eq, get?_ticked]
  cases r.get? k with
  | none => simp
  | some q =>
    have hq : r.ticked.leads p (updatePortal r.worlds q) = r.leads p q := leads_updatePortal
    simp [hq]

theorem goes_ticked : r.ticked.goes ps = r.goes ps := by
  simp only [goes, led_ticked]

theorem marked_ticked {ids : Set Uuid} : r.ticked.marked ids = r.marked ids := by
  have hmark : ∀ q : Portal, (updatePortal r.worlds q).mark? r.worlds = q.mark? r.worlds :=
    fun q => Portal.Retouched.updatePortal.toRevised.mark?
  ext x
  simp only [marked, Set.mem_ofPred_eq, get?_ticked, Option.map_eq_some_iff]
  constructor
  · rintro ⟨k, hk, _, ⟨q, hq, rfl⟩, hx⟩
    exact ⟨k, hk, q, hq, hmark q ▸ hx⟩
  · rintro ⟨k, hk, q, hq, hx⟩
    exact ⟨k, hk, _, ⟨q, hq, rfl⟩, (hmark q).symm ▸ hx⟩

theorem clears_ticked : r.ticked.clears ps = r.clears ps := by
  rw [clears, goes_ticked, marked_ticked]
  rfl

theorem Keyed.nodup_ids (hr : r.Keyed) : (r.all.map (·.id)).Nodup := by
  have hkeys : r.all.map (·.id) = r.portals.keys := by
    rw [all, Table.values, List.map_map]
    exact List.map_congr_left fun e he => hr e.1 e.2 (Table.get?_eq_some_iff.2 he)
  rw [hkeys]
  exact r.portals.nodup

theorem Keyed.get?_of_mem (hr : r.Keyed) (hp : p ∈ r.all) : r.get? p.id = some p := by
  obtain ⟨k, hk⟩ := Table.mem_values_iff.1 hp
  have hid : p.id = k := hr k p hk
  exact hid ▸ hk

theorem isAutoSpawned_of_broken (hp : p ∈ r.broken) : p.isAutoSpawned = true := by
  have h := (List.mem_filter.1 hp).2
  rw [Portal.isValid, Bool.not_or, Bool.and_eq_true] at h
  exact h.1

/-- A tick removes the broken portals that act, with the portals that go with them, and answers the
ids of those that acted. -/
theorem swept_update (hr : r.Keyed) :
    r.update.1 = (r.acting [] r.broken).map (·.id) ∧
      r.Swept (r.acting [] r.broken) r.update.2 := by
  have hkeyed : r.ticked.Keyed := by
    intro k q hq
    rw [get?_ticked] at hq
    obtain ⟨p, hp, rfl⟩ := Option.map_eq_some_iff.1 hq
    exact Portal.Retouched.updatePortal.id.trans (hr k p hp)
  have hnil : r.ticked.Cut (r.ticked.goes []) (r.ticked.clears []) (r.ticked.asks []) r.ticked := by
    simpa [goes, clears, asks, marked] using Cut.refl (r := r.ticked)
  have hbroken : ∀ p ∈ r.broken, p.isAutoSpawned = true ∧
      ∃ q, r.ticked.get? p.id = some q ∧ p.Revised r.ticked.worlds q := by
    intro p hp
    have hget := hr.get?_of_mem (List.mem_filter.1 hp).1
    refine ⟨isAutoSpawned_of_broken hp, updatePortal r.worlds p, ?_,
      Portal.Retouched.updatePortal.toRevised⟩
    rw [get?_ticked, hget]
    rfl
  have hnodup : (r.broken.map (·.id)).Nodup :=
    hr.nodup_ids.sublist (List.filter_sublist.map _)
  obtain ⟨hids, hcut⟩ := hnil.removeBroken hkeyed hbroken (fun _ _ _ ha => by cases ha) hnodup
  rw [List.nil_append, acting_ticked, goes_ticked, clears_ticked] at hcut
  rw [acting_ticked] at hids
  exact ⟨hids, hcut⟩

end ticked

end Registry

end PortalNet
