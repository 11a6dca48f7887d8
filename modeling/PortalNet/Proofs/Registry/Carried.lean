import PortalNet.Proofs.Portal.Record
import PortalNet.Proofs.Registry.Homed
import PortalNet.Proofs.Registry.Nearest
import PortalNet.Proofs.Registry.Sweep

/-! # Registries that answer alike

Two registries whose portals are at home answer alike, whatever the ids of their worlds are, if they
have the same portals at the same points of worlds of the same names.
-/

namespace PortalNet

namespace Registry

/-- The second registry has the same portals with their ends at the same spots. -/
structure Carries (r s : Registry) : Prop where
  names : s.worlds.names.Perm r.worlds.names
  portal : ∀ id, (s.get? id).map Portal.restored = (r.get? id).map Portal.restored
  origin : ∀ id p q, r.get? id = some p → s.get? id = some q →
    q.origin.spot? s.worlds = p.origin.spot? r.worlds
  dest : ∀ id p q, r.get? id = some p → s.get? id = some q →
    q.dest.spot? s.worlds = p.dest.spot? r.worlds

/-- Both searches find a portal or neither does. The portals that they find are equally near, and
are one and the same if no other portal is as near as the first. -/
def NearestAgree (r s : Registry) (l l' : Location) (limit : Double) : Prop :=
  (s.closest? l' limit).isSome = (r.closest? l limit).isSome ∧
  ∀ p q, r.closest? l limit = some p → s.closest? l' limit = some q →
    s.distance? l' q = r.distance? l p ∧
    ((∀ o ∈ r.all, r.distance? l o = r.distance? l p → o = p) → q.id = p.id)

/-- The portals are the same ones at the same spots of worlds that are hosted, the same ones lead to
each other, one that leads back is found for the same ones, and the same one is found nearby. -/
structure Preserved (r s : Registry) : Prop where
  homed : s.Homed
  carries : r.Carries s
  leads : ∀ i j p p' q q', r.get? i = some p → s.get? i = some p' →
    r.get? j = some q → s.get? j = some q' → s.leads p' q' = r.leads p q
  paired : ∀ i p p', r.get? i = some p → s.get? i = some p' →
    (s.paired? p').isSome = (r.paired? p).isSome
  nearest : ∀ l l' limit, r.worlds.Hosts l.world → s.worlds.Hosts l'.world → l'.spot = l.spot →
    r.NearestAgree s l l' limit

variable {r s t : Registry} {i j : Uuid} {p q p' q' : Portal} {l l' : Location} {limit d : Double}

theorem Keyed.id_eq (hr : r.Keyed) (hs : s.Keyed) (hp : r.get? i = some p)
    (hp' : s.get? i = some p') : p'.id = p.id :=
  (hs i p' hp').trans (hr i p hp).symm

section paired

theorem paired?_eq : r.paired? p =
    (r.target? p).bind fun l => r.all.find? fun q => q.id ≠ p.id ∧ r.startsAt l q := by
  unfold paired? target?
  cases p.isCrossServer <;> rfl

theorem paired?_isSome_iff :
    (r.paired? p).isSome ↔ ∃ j q, r.get? j = some q ∧ q.id ≠ p.id ∧ r.leads p q = true := by
  rw [paired?_eq]
  unfold leads
  cases r.target? p with
  | none => simp
  | some l =>
    rw [Option.bind_some, List.find?_isSome]
    constructor
    · rintro ⟨q, hq, h⟩
      obtain ⟨j, hj⟩ := mem_all_iff.1 hq
      exact ⟨j, q, hj, of_decide_eq_true h⟩
    · rintro ⟨j, q, hj, h⟩
      exact ⟨q, mem_all_iff.2 ⟨j, hj⟩, decide_eq_true h⟩

end paired

namespace Carries

theorem refl : r.Carries r where
  names := .refl _
  portal _ := rfl
  origin _ p q hp hq := by
    rw [Option.some.inj (hp.symm.trans hq)]
  dest _ p q hp hq := by
    rw [Option.some.inj (hp.symm.trans hq)]

theorem symm (h : r.Carries s) : s.Carries r where
  names := h.names.symm
  portal id := (h.portal id).symm
  origin id p q hp hq := (h.origin id q p hq hp).symm
  dest id p q hp hq := (h.dest id q p hq hp).symm

theorem exists_get? (h : r.Carries s) (hp : r.get? i = some p) :
    ∃ q, s.get? i = some q ∧ q.restored = p.restored := by
  have hportal := h.portal i
  rw [hp, Option.map_some] at hportal
  exact Option.map_eq_some_iff.1 hportal

theorem trans (h : r.Carries s) (h' : s.Carries t) : r.Carries t where
  names := h'.names.trans h.names
  portal id := (h'.portal id).trans (h.portal id)
  origin id p q hp hq := by
    obtain ⟨o, ho, -⟩ := h.exists_get? hp
    exact (h'.origin id o q ho hq).trans (h.origin id p o hp ho)
  dest id p q hp hq := by
    obtain ⟨o, ho, -⟩ := h.exists_get? hp
    exact (h'.dest id o q ho hq).trans (h.dest id p o hp ho)

section homed

variable (h : r.Carries s) (hr : r.Homed) (hs : s.Homed)

include h hr hs

theorem leads (hp : r.get? i = some p) (hp' : s.get? i = some p') (hq : r.get? j = some q)
    (hq' : s.get? j = some q') : s.leads p' q' = r.leads p q := by
  rw [hs.leads_eq (mem_all_iff.2 ⟨i, hp'⟩) (mem_all_iff.2 ⟨j, hq'⟩),
    hr.leads_eq (mem_all_iff.2 ⟨i, hp⟩) (mem_all_iff.2 ⟨j, hq⟩),
    h.dest i p p' hp hp', h.origin j q q' hq hq']

theorem paired_of_paired (hp : r.get? i = some p) (hp' : s.get? i = some p')
    (hpair : (r.paired? p).isSome) : (s.paired? p').isSome := by
  obtain ⟨j, q, hq, hne, hl⟩ := paired?_isSome_iff.1 hpair
  obtain ⟨q', hq', -⟩ := h.exists_get? hq
  rw [paired?_isSome_iff]
  refine ⟨j, q', hq', ?_, (h.leads hr hs hp hp' hq hq').trans hl⟩
  rwa [hr.keyed.id_eq hs.keyed hq hq', hr.keyed.id_eq hs.keyed hp hp']

section place

variable (hl : r.worlds.Hosts l.world) (hl' : s.worlds.Hosts l'.world) (hspot : l'.spot = l.spot)

include hl hl' hspot

theorem distance? (hp : r.get? i = some p) (hp' : s.get? i = some p') :
    s.distance? l' p' = r.distance? l p := by
  rw [hs.distance?_eq (mem_all_iff.2 ⟨i, hp'⟩) hl', hr.distance?_eq (mem_all_iff.2 ⟨i, hp⟩) hl,
    h.origin i p p' hp hp', hspot]

/-- What is in reach there is in reach here. -/
theorem exists_reached (hp : r.Reached l limit p d) :
    ∃ q, s.get? p.id = some q ∧ s.Reached l' limit q d := by
  obtain ⟨hmem, hd, hle⟩ := hp
  have hget := hr.keyed.get?_of_mem hmem
  obtain ⟨q, hq, -⟩ := h.exists_get? hget
  exact ⟨q, hq, mem_all_iff.2 ⟨_, hq⟩, (h.distance? hr hs hl hl' hspot hget hq).trans hd, hle⟩

theorem found_of_found (hfound : (r.closest? l limit).isSome) :
    (s.closest? l' limit).isSome := by
  obtain ⟨p, hp⟩ := Option.isSome_iff_exists.1 hfound
  obtain ⟨d, hreached, -⟩ := closest?_spec hp
  obtain ⟨q, -, hq⟩ := h.exists_reached hr hs hl hl' hspot hreached
  exact Option.isSome_iff_exists.2 (exists_closest? hq)

theorem nearestAgree : r.NearestAgree s l l' limit := by
  refine ⟨Bool.eq_iff_iff.2 ⟨h.symm.found_of_found hs hr hl' hl hspot.symm,
    h.found_of_found hr hs hl hl' hspot⟩, fun p q hp hq => ?_⟩
  obtain ⟨d, hpd, hpmin⟩ := closest?_spec hp
  obtain ⟨d', hqd, hqmin⟩ := closest?_spec hq
  obtain ⟨p', -, hp'⟩ := h.exists_reached hr hs hl hl' hspot hpd
  obtain ⟨q', hq', hqd'⟩ := h.symm.exists_reached hs hr hl' hl hspot.symm hqd
  -- each of the two distances is at most the other, and then they are the same word
  obtain rfl : d = d' :=
    Floating.rank_inj (Int.le_antisymm (hpmin _ _ hqd') (hqmin _ _ hp'))
  refine ⟨hqd.2.1.trans hpd.2.1.symm, fun hunique => ?_⟩
  obtain rfl : q' = p := hunique q' hqd'.1 (hqd'.2.1.trans hpd.2.1.symm)
  exact (hr.keyed q.id q' hq').symm

end place

/-- Registries with the same portals at the same spots answer alike. -/
theorem preserved : r.Preserved s where
  homed := hs
  carries := h
  leads _ _ _ _ _ _ hp hp' hq hq' := h.leads hr hs hp hp' hq hq'
  paired _ _ _ hp hp' := Bool.eq_iff_iff.2
    ⟨h.symm.paired_of_paired hs hr hp' hp, h.paired_of_paired hr hs hp hp'⟩
  nearest _ _ _ hl hl' hspot := h.nearestAgree hr hs hl hl' hspot

end homed

end Carries

end Registry

end PortalNet
