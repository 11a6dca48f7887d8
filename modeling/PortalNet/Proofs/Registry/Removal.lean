import Mathlib.Data.Set.Insert
import PortalNet.Proofs.Registry.Steps

/-! # What removals take away

A removal takes some portals out and clears some blocks; all else stays, but that the portals that
stay may have been asked where they start. What several removals take away adds up.
-/

namespace PortalNet

/-- The block at an anchor, if it can be looked at. -/
def Anchor.place? (a : Anchor) (ws : Worlds) : Option (Uuid × Block) :=
  match a.block ws with
  | .ok place => some (place.world.id, place.block)
  | .error _ => none

namespace Portal

/-- The block that goes with the portal when it is removed. -/
def mark? (p : Portal) (ws : Worlds) : Option (Uuid × Block) :=
  if p.isAutoSpawned then p.origin.place? ws else none

/-- The block that goes too when the portal is removed with its other direction. -/
def farMark? (p : Portal) (ws : Worlds) : Option (Uuid × Block) :=
  if p.isAutoSpawned then p.dest.place? ws else none

def askedIf (ws : Worlds) (asked : Bool) (p : Portal) : Portal :=
  if asked then p.resolveOrigin ws else p

end Portal

namespace Registry

/-- Where the portals are that can go with this one. -/
def target? (r : Registry) (p : Portal) : Option Location :=
  if p.isCrossServer then none else p.dest.location? r.worlds

/-- Whether `q` starts exactly where `p` leads. -/
def leads (r : Registry) (p q : Portal) : Bool :=
  (r.target? p).any (r.startsAt · q)

/-- The registry without the portals that go with `p`. -/
def removeOther (r : Registry) (p : Portal) : Registry :=
  match r.target? p with
  | some l => (r.removeAt l).2
  | none => r

def starting (r : Registry) (l : Location) : Set Uuid :=
  {k | ∃ p, r.get? k = some p ∧ r.startsAt l p = true}

def led (r : Registry) (p : Portal) : Set Uuid :=
  {k | ∃ q, r.get? k = some q ∧ r.leads p q = true}

/-- The blocks that go with some portals. -/
def marked (r : Registry) (ids : Set Uuid) : Set (Uuid × Block) :=
  {x | ∃ k ∈ ids, ∃ p, r.get? k = some p ∧ x ∈ p.mark? r.worlds}

/-- `s` is `r` without some portals and with some blocks cleared. -/
structure Cut (r : Registry) (ids : Set Uuid) (places : Set (Uuid × Block)) (asked : Bool)
    (s : Registry) : Prop where
  loaded : s.worlds.loaded = r.worlds.loaded
  gone : ∀ k ∈ ids, s.get? k = none
  kept : ∀ k, k ∉ ids → s.get? k = (r.get? k).map (Portal.askedIf r.worlds asked)
  air : ∀ x ∈ places, s.worlds.materialAt x.1 x.2 = .air
  same : ∀ x, x ∉ places → s.worlds.materialAt x.1 x.2 = r.worlds.materialAt x.1 x.2

end Registry

section revised

variable {vs ws : Worlds} {a : Anchor} {p q p' q' : Portal} {asked : Bool} {r s : Registry}
  {l : Location}

theorem Anchor.place?_congr (h : vs.loaded = ws.loaded) : a.place? vs = a.place? ws := by
  rw [place?, place?, block_congr h]

theorem Anchor.place?_resolved : (a.resolved ws).place? ws = a.place? ws := by
  rw [place?, place?, block_resolved]

namespace Portal

theorem revised_askedIf : p.Revised ws (p.askedIf ws asked) := by
  unfold askedIf
  split
  · exact Retouched.resolveOrigin.toRevised
  · exact .refl

theorem askedIf_askedIf {again : Bool} (h : vs.loaded = ws.loaded) :
    (p.askedIf ws asked).askedIf vs again = p.askedIf ws (asked || again) := by
  have hcongr : ∀ b : Anchor, b.resolved vs = b.resolved ws := fun _ => Anchor.resolved_congr h
  cases asked <;> cases again <;> simp [askedIf, resolveOrigin, hcongr]

namespace Revised

theorem isAutoSpawned (h : p.Revised ws q) : q.isAutoSpawned = p.isAutoSpawned := by
  rw [Portal.isAutoSpawned, Portal.isAutoSpawned, h.isCustom]

theorem isCrossServer (h : p.Revised ws q) : q.isCrossServer = p.isCrossServer := by
  unfold Portal.isCrossServer
  rcases h.dest with hd | hd <;> rw [hd]
  rfl

theorem location?_origin (h : p.Revised ws q) : q.origin.location? ws = p.origin.location? ws := by
  rcases h.origin with ho | ho <;> rw [ho]
  exact Anchor.location?_resolved ..

theorem location?_dest (h : p.Revised ws q) : q.dest.location? ws = p.dest.location? ws := by
  rcases h.dest with hd | hd <;> rw [hd]
  exact Anchor.location?_resolved ..

theorem place?_dest (h : p.Revised ws q) : q.dest.place? ws = p.dest.place? ws := by
  rcases h.dest with hd | hd <;> rw [hd]
  exact Anchor.place?_resolved

theorem place?_origin (h : p.Revised ws q) : q.origin.place? ws = p.origin.place? ws := by
  rcases h.origin with ho | ho <;> rw [ho]
  exact Anchor.place?_resolved

theorem mark? (h : p.Revised ws q) : q.mark? ws = p.mark? ws := by
  rw [Portal.mark?, Portal.mark?, h.isAutoSpawned, h.place?_origin]

theorem farMark? (h : p.Revised ws q) : q.farMark? ws = p.farMark? ws := by
  rw [Portal.farMark?, Portal.farMark?, h.isAutoSpawned, h.place?_dest]

end Revised

theorem mark?_congr (h : vs.loaded = ws.loaded) : p.mark? vs = p.mark? ws := by
  rw [Portal.mark?, Portal.mark?, Anchor.place?_congr h]

theorem farMark?_congr (h : vs.loaded = ws.loaded) : p.farMark? vs = p.farMark? ws := by
  rw [Portal.farMark?, Portal.farMark?, Anchor.place?_congr h]

end Portal

namespace Registry

theorem target?_eq (hw : s.worlds.loaded = r.worlds.loaded) (hp : p.Revised r.worlds p') :
    s.target? p' = r.target? p := by
  rw [target?, target?, hp.isCrossServer, Anchor.location?_congr hw, hp.location?_dest]

theorem startsAt_eq (hw : s.worlds.loaded = r.worlds.loaded) (hq : q.Revised r.worlds q') :
    s.startsAt l q' = r.startsAt l q := by
  rw [startsAt, startsAt, Anchor.location?_congr hw, hq.location?_origin]

theorem leads_eq (hw : s.worlds.loaded = r.worlds.loaded) (hp : p.Revised r.worlds p')
    (hq : q.Revised r.worlds q') : s.leads p' q' = r.leads p q := by
  rw [leads, leads, target?_eq hw hp]
  cases r.target? p with
  | none => rfl
  | some l => exact startsAt_eq hw hq

theorem led_of_target? (h : r.target? p = some l) : r.led p = r.starting l := by
  simp only [led, starting, leads, h, Option.any_some]

theorem led_of_none (h : r.target? p = none) : r.led p = ∅ := by
  simp [led, leads, h]

end Registry

end revised

namespace Registry

variable {r s t : Registry} {ids js : Set Uuid} {places more : Set (Uuid × Block)}
  {asked again : Bool} {id k : Uuid} {p q : Portal} {a : Anchor} {l : Location}

namespace Cut

theorem refl : r.Cut ∅ ∅ false r where
  loaded := rfl
  gone := fun _ h => h.elim
  kept := by
    intro k _
    cases r.get? k <;> rfl
  air := fun _ h => h.elim
  same := fun _ _ => rfl

theorem trans (h : r.Cut ids places asked s) (h' : s.Cut js more again t) :
    r.Cut (ids ∪ js) (places ∪ more) (asked || again) t where
  loaded := h'.loaded.trans h.loaded
  gone := by
    intro k hk
    by_cases hj : k ∈ js
    · exact h'.gone k hj
    · rw [h'.kept k hj, h.gone k (hk.resolve_right hj)]
      rfl
  kept := by
    intro k hk
    obtain ⟨hi, hj⟩ := not_or.1 hk
    rw [h'.kept k hj, h.kept k hi, Option.map_map]
    congr 1
    funext p
    exact Portal.askedIf_askedIf h.loaded
  air := by
    intro x hx
    by_cases hm : x ∈ more
    · exact h'.air x hm
    · rw [h'.same x hm, h.air x (hx.resolve_right hm)]
  same := by
    intro x hx
    obtain ⟨hp, hm⟩ := not_or.1 hx
    rw [h'.same x hm, h.same x hp]

theorem narrows (h : r.Cut ids places asked s) : r.Narrows s := by
  refine ⟨h.loaded, ?_⟩
  intro k q hq
  by_cases hk : k ∈ ids
  · rw [h.gone k hk] at hq
    cases hq
  · rw [h.kept k hk] at hq
    obtain ⟨p, hp, rfl⟩ := Option.map_eq_some_iff.1 hq
    exact ⟨p, hp, Portal.revised_askedIf⟩

theorem get?_of_not_mem (h : r.Cut ids places asked s) (hk : k ∉ ids) (hp : r.get? k = some p) :
    ∃ q, s.get? k = some q ∧ p.Revised r.worlds q := by
  rw [h.kept k hk, hp]
  exact ⟨_, rfl, Portal.revised_askedIf⟩

/-- What is asked of the portals that are left can be asked of those that there were. -/
theorem union_setOf (h : r.Cut ids places asked s) {φ ψ : Portal → Prop}
    (hφ : ∀ p q, p.Revised r.worlds q → (ψ q ↔ φ p)) :
    ids ∪ {k | ∃ q, s.get? k = some q ∧ ψ q} = ids ∪ {k | ∃ p, r.get? k = some p ∧ φ p} := by
  ext k
  by_cases hk : k ∈ ids
  · simp [hk]
  · simp only [Set.mem_union, hk, false_or, Set.mem_ofPred_eq]
    constructor
    · rintro ⟨q, hq, hψ⟩
      obtain ⟨p, hp, hr⟩ := h.narrows.portal k q hq
      exact ⟨p, hp, (hφ p q hr).1 hψ⟩
    · rintro ⟨p, hp, hp'⟩
      obtain ⟨q, hq, hr⟩ := h.get?_of_not_mem hk hp
      exact ⟨q, hq, (hφ p q hr).2 hp'⟩

theorem union_led (h : r.Cut ids places asked s) (hq : p.Revised r.worlds q) :
    ids ∪ s.led q = ids ∪ r.led p :=
  h.union_setOf fun _ _ hr => by rw [leads_eq h.loaded hq hr]

theorem marked_union (h : r.Cut ids places asked s) :
    r.marked ids ∪ s.marked js = r.marked (ids ∪ js) := by
  have hmark : ∀ p q : Portal, p.Revised r.worlds q → q.mark? s.worlds = p.mark? r.worlds := by
    intro p q hr
    rw [Portal.mark?_congr h.loaded, hr.mark?]
  ext x
  constructor
  · rintro (⟨k, hk, p, hp, hx⟩ | ⟨k, hk, q, hq, hx⟩)
    · exact ⟨k, .inl hk, p, hp, hx⟩
    · obtain ⟨p, hp, hr⟩ := h.narrows.portal k q hq
      exact ⟨k, .inr hk, p, hp, hmark p q hr ▸ hx⟩
  · rintro ⟨k, hk, p, hp, hx⟩
    by_cases hi : k ∈ ids
    · exact .inl ⟨k, hi, p, hp, hx⟩
    · obtain ⟨q, hq, hr⟩ := h.get?_of_not_mem hi hp
      exact .inr ⟨k, hk.resolve_left hi, q, hq, hmark p q hr ▸ hx⟩

theorem marked_of_empty (h : r.Cut ∅ places asked s) : s.marked js = r.marked js := by
  have hm : r.marked ∅ ∪ s.marked js = r.marked (∅ ∪ js) := h.marked_union
  rw [Set.empty_union] at hm
  rw [← hm]
  simp [marked]

end Cut

theorem cut_resolveOrigins : r.Cut ∅ ∅ true r.resolveOrigins where
  loaded := rfl
  gone := fun _ h => h.elim
  kept := by
    intro k _
    exact Table.get?_mapValues
  air := fun _ h => h.elim
  same := fun _ _ => rfl

theorem cut_take : r.Cut {id} ∅ false (r.take id).2 := by
  have hget : ∀ k, (r.take id).2.get? k = if k = id then none else r.get? k := by
    intro k
    unfold take
    split
    · next hp =>
      split
      · next hk => exact hk ▸ hp
      · rfl
    · exact Table.get?_erase
  have hworlds : (r.take id).2.worlds = r.worlds := by
    unfold take
    split <;> rfl
  constructor
  · rw [hworlds]
  · rintro k rfl
    rw [hget, if_pos rfl]
  · intro k hk
    have hne : k ≠ id := hk
    rw [hget, if_neg hne]
    cases r.get? k <;> rfl
  · exact fun _ h => h.elim
  · intro x _
    rw [hworlds]

theorem cut_clearBlock : r.Cut ∅ {x | x ∈ a.place? r.worlds} false (r.clearBlock a) := by
  have hempty : r.Cut ∅ ∅ false r := .refl
  unfold clearBlock Anchor.place?
  cases hb : a.block r.worlds with
  | error err => simpa using hempty
  | ok place =>
    refine ⟨rfl, hempty.gone, hempty.kept, ?_, ?_⟩
    · rintro x ⟨⟩
      rw [Worlds.materialAt_setMaterial, if_pos ⟨rfl, rfl⟩]
    · rintro ⟨w, b⟩ hx
      rw [Worlds.materialAt_setMaterial, if_neg]
      rintro ⟨rfl, rfl⟩
      exact hx rfl

theorem removeOne_of_get? (hp : r.get? id = some p) :
    r.removeOne id = (some (p.shutDown r.regions).1, (r.removeOne id).2) := by
  unfold removeOne take
  rw [hp]

theorem marked_singleton (hp : r.get? id = some p) :
    r.marked {id} = {x | x ∈ p.mark? r.worlds} := by
  ext x
  simp [marked, hp]

theorem cut_removeOne : r.Cut {id} (r.marked {id}) false (r.removeOne id).2 := by
  have htake : r.Cut {id} ∅ false (r.take id).2 := cut_take
  cases hp : r.get? id with
  | none =>
    have hmarked : r.marked {id} = ∅ := by
      ext x
      simp [marked, hp]
    have hsame : (r.removeOne id).2 = (r.take id).2 := by
      simp only [removeOne, take, hp]
    rwa [hmarked, hsame]
  | some p =>
    have hr : p.Revised r.worlds (p.shutDown r.regions).1 := .shutDown
    have hone : (r.removeOne id).2 =
        if p.isAutoSpawned then (r.take id).2.clearBlock (p.shutDown r.regions).1.origin
        else (r.take id).2 := by
      simp only [removeOne, take, hp, hr.isAutoSpawned]
    rw [hone, marked_singleton hp, Portal.mark?]
    split
    · have hplace : (p.shutDown r.regions).1.origin.place? (r.take id).2.worlds =
          p.origin.place? r.worlds := by
        rw [Anchor.place?_congr htake.loaded, hr.place?_origin]
      simpa [hplace] using htake.trans (cut_clearBlock (a := (p.shutDown r.regions).1.origin))
    · simpa using htake

theorem cut_removeEach {ids : List Uuid} :
    r.Cut {k | k ∈ ids} (r.marked {k | k ∈ ids}) false (r.removeEach ids).2 := by
  induction ids generalizing r with
  | nil =>
    have h : r.Cut ∅ ∅ false r := .refl
    simpa [marked, removeEach] using h
  | cons id ids ih =>
    have h := cut_removeOne.trans (ih (r := (r.removeOne id).2))
    rw [cut_removeOne.marked_union] at h
    have hset : {k | k ∈ id :: ids} = {id} ∪ {k | k ∈ ids} := by
      ext k
      simp
    rw [hset]
    exact h

theorem cut_removeAt (hr : r.Keyed) :
    r.Cut (r.starting l) (r.marked (r.starting l)) true (r.removeAt l).2 := by
  have hids : {k | k ∈ (r.all.filter (r.startsAt l)).map (·.id)} = r.starting l := by
    ext k
    simp only [Set.mem_ofPred_eq, List.mem_map, List.mem_filter, starting]
    constructor
    · rintro ⟨p, ⟨hp, hl⟩, rfl⟩
      obtain ⟨k, hk⟩ := Table.mem_values_iff.1 hp
      have hid : p.id = k := hr k p hk
      exact ⟨p, hid ▸ hk, hl⟩
    · rintro ⟨p, hp, hl⟩
      exact ⟨p, ⟨Table.mem_values_iff.2 ⟨k, hp⟩, hl⟩, hr k p hp⟩
  have heach : r.resolveOrigins.Cut (r.starting l) (r.resolveOrigins.marked (r.starting l)) false
      (r.removeAt l).2 :=
    hids ▸ cut_removeEach
  have h := cut_resolveOrigins.trans heach
  rw [cut_resolveOrigins.marked_of_empty] at h
  simpa using h

theorem cut_removeOther (hr : r.Keyed) :
    r.Cut (r.led p) (r.marked (r.led p)) (r.target? p).isSome (r.removeOther p) := by
  unfold removeOther
  cases h : r.target? p with
  | some l =>
    rw [led_of_target? h]
    exact cut_removeAt hr
  | none =>
    rw [led_of_none h]
    simpa [marked] using Cut.refl (r := r)

theorem clearBlock_of_external (h : a.position.isExternal = true) : r.clearBlock a = r := by
  rw [clearBlock, Anchor.block, if_pos h]
  rfl

theorem remove_of_get? (hp : r.get? id = some p) :
    r.remove id true =
      let q := (p.shutDown r.regions).1
      let s := (r.removeOne id).2.removeOther q
      (some q, if p.isAutoSpawned then s.clearBlock q.dest else s) := by
  have hq : p.Revised r.worlds (p.shutDown r.regions).1 := .shutDown
  unfold remove
  rw [removeOne_of_get? hp]
  simp only [Bool.true_and, hq.isAutoSpawned]
  cases hc : (p.shutDown r.regions).1.isCrossServer with
  | true => simp [removeOther, target?, hc, clearBlock_of_external hc]
  | false =>
    cases hl : (p.shutDown r.regions).1.dest.location? (r.removeOne id).2.worlds with
    | none => simp [removeOther, target?, hc, hl]
    | some l => simp [removeOther, target?, hc, hl]

theorem cut_remove (hr : r.Keyed) (hp : r.get? id = some p) :
    r.Cut ({id} ∪ r.led p) (r.marked ({id} ∪ r.led p) ∪ {x | x ∈ p.farMark? r.worlds})
      (r.target? p).isSome (r.remove id true).2 := by
  have hq : p.Revised r.worlds (p.shutDown r.regions).1 := .shutDown
  have hone : r.Cut {id} (r.marked {id}) false (r.removeOne id).2 := cut_removeOne
  have htwo := hone.trans (cut_removeOther (p := (p.shutDown r.regions).1) (hone.narrows.keyed hr))
  rw [hone.marked_union, hone.union_led hq, target?_eq hone.loaded hq, Bool.false_or] at htwo
  rw [remove_of_get? hp, Portal.farMark?]
  dsimp only
  split
  · have hthree := htwo.trans (cut_clearBlock (a := (p.shutDown r.regions).1.dest))
    rwa [Anchor.place?_congr htwo.loaded, hq.place?_dest, Set.union_empty, Bool.or_false] at hthree
  · simpa using htwo

/-- A removal without the other direction takes one portal. -/
theorem remove_alone : r.remove id false = r.removeOne id := by
  unfold remove
  split
  · next h => exact h.symm
  · next h => exact h.symm

end Registry

end PortalNet
