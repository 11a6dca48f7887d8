import Mathlib.Logic.Relation
import PortalNet.Activation
import PortalNet.Proofs.Anchor

/-! # Steps of the registry

Whatever is done to a registered portal comes down to a few steps, none of which adds a portal or
loads a world. A property that each of them keeps is kept by every operation.
-/

namespace PortalNet

/-- Which portal it is and where it leads stays; its ends may have been asked for. -/
structure Portal.Revised (ws : Worlds) (p q : Portal) : Prop where
  id : q.id = p.id
  origin : q.origin = p.origin ∨ q.origin = p.origin.resolved ws
  dest : q.dest = p.dest ∨ q.dest = p.dest.resolved ws
  size : q.size = p.size
  isCustom : q.isCustom = p.isCustom
  relocatesPlayers : q.relocatesPlayers = p.relocatesPlayers

/-- The portal may change further, but what it holds and whether it is activated stays. -/
structure Portal.Retouched (ws : Worlds) (p q : Portal) : Prop extends Revised ws p q where
  held : q.held = p.held
  active : q.isActivated = p.isActivated

namespace Portal

variable {ws : Worlds} {p q o : Portal} {regions : Regions}

namespace Revised

theorem refl : p.Revised ws p :=
  ⟨rfl, .inl rfl, .inl rfl, rfl, rfl, rfl⟩

theorem trans_anchor {a b c : Anchor} (h : b = a ∨ b = a.resolved ws)
    (h' : c = b ∨ c = b.resolved ws) : c = a ∨ c = a.resolved ws := by
  rcases h with rfl | rfl <;> rcases h' with rfl | rfl <;> simp

theorem trans (h : p.Revised ws q) (h' : q.Revised ws o) : p.Revised ws o where
  id := h'.id.trans h.id
  origin := trans_anchor h.origin h'.origin
  dest := trans_anchor h.dest h'.dest
  size := h'.size.trans h.size
  isCustom := h'.isCustom.trans h.isCustom
  relocatesPlayers := h'.relocatesPlayers.trans h.relocatesPlayers

theorem congr {vs : Worlds} (h : p.Revised vs q) (hw : vs.loaded = ws.loaded) :
    p.Revised ws q where
  id := h.id
  origin := Anchor.resolved_congr hw ▸ h.origin
  dest := Anchor.resolved_congr hw ▸ h.dest
  size := h.size
  isCustom := h.isCustom
  relocatesPlayers := h.relocatesPlayers

theorem activate : p.Revised ws (p.activate ws regions).1 := by
  simp only [Portal.activate]
  repeat' split
  · exact ⟨rfl, .inl rfl, .inl rfl, rfl, rfl, rfl⟩
  · exact ⟨rfl, .inl rfl, .inr rfl, rfl, rfl, rfl⟩
  · exact ⟨rfl, .inl rfl, .inl rfl, rfl, rfl, rfl⟩

theorem deactivate : p.Revised ws (p.deactivate regions).1 :=
  ⟨rfl, .inl rfl, .inl rfl, rfl, rfl, rfl⟩

theorem shutDown : p.Revised ws (p.shutDown regions).1 := by
  simp only [Portal.shutDown]
  split
  · exact ⟨rfl, .inl rfl, .inl rfl, rfl, rfl, rfl⟩
  · exact ⟨rfl, .inl rfl, .inl rfl, rfl, rfl, rfl⟩

end Revised

namespace Retouched

theorem refl : p.Retouched ws p :=
  ⟨.refl, rfl, rfl⟩

theorem trans (h : p.Retouched ws q) (h' : q.Retouched ws o) : p.Retouched ws o :=
  ⟨h.toRevised.trans h'.toRevised, h'.held.trans h.held, h'.active.trans h.active⟩

theorem resolveOrigin : p.Retouched ws (p.resolveOrigin ws) :=
  ⟨⟨rfl, .inr rfl, .inl rfl, rfl, rfl, rfl⟩, rfl, rfl⟩

theorem resolveDest : p.Retouched ws (p.resolveDest ws) :=
  ⟨⟨rfl, .inl rfl, .inr rfl, rfl, rfl, rfl⟩, rfl, rfl⟩

theorem inspected : p.Retouched ws (p.inspected ws) := by
  unfold Portal.inspected
  split
  · exact refl
  · split
    · exact resolveOrigin.trans resolveDest
    · exact resolveOrigin

theorem update : p.Retouched ws (p.update ws) := by
  have h : p.Retouched ws (p.inspected ws) := inspected
  unfold Portal.update
  split
  · refine ⟨⟨h.id, h.origin, h.dest, h.size, h.isCustom, h.relocatesPlayers⟩, h.held, ?_⟩
    rw [← h.active]
    exact Option.isSome_map
  · exact h

theorem viewActivate : p.Retouched ws p.viewActivate :=
  ⟨⟨rfl, .inl rfl, .inl rfl, rfl, rfl, rfl⟩, rfl, rfl⟩

theorem viewDeactivate : p.Retouched ws p.viewDeactivate :=
  ⟨⟨rfl, .inl rfl, .inl rfl, rfl, rfl, rfl⟩, rfl, rfl⟩

theorem viewUpdate : p.Retouched ws p.viewUpdate := by
  unfold Portal.viewUpdate
  repeat' split
  all_goals exact ⟨⟨rfl, .inl rfl, .inl rfl, rfl, rfl, rfl⟩, rfl, rfl⟩

theorem updatePortal : p.Retouched ws (Registry.updatePortal ws p) := by
  unfold Registry.updatePortal
  split
  · exact update.trans viewUpdate
  · exact update

theorem rename {name : Option String} : p.Retouched ws (p.rename name).2 := by
  unfold Portal.rename
  split
  · exact .refl
  · exact ⟨⟨rfl, .inl rfl, .inl rfl, rfl, rfl, rfl⟩, rfl, rfl⟩

theorem allows {allow : Bool} : p.Retouched ws { p with allowsNonPlayers := allow } :=
  ⟨⟨rfl, .inl rfl, .inl rfl, rfl, rfl, rfl⟩, rfl, rfl⟩

end Retouched

end Portal

namespace Registry

inductive Step (r : Registry) : Registry → Prop where
  | retouch (f : Uuid → Portal → Portal) :
      (∀ k p, r.get? k = some p → p.Retouched r.worlds (f k p)) →
      Step r { r with portals := r.portals.mapValues f }
  | activate (id : Uuid) : Step r (r.activate id)
  | deactivate (id : Uuid) : Step r (r.deactivate id)
  | take (id : Uuid) : Step r (r.take id).2
  | rebuild (ws : Worlds) : ws.loaded = r.worlds.loaded → Step r { r with worlds := ws }

abbrev Steps : Registry → Registry → Prop :=
  Relation.ReflTransGen Step

variable {r s : Registry} {k id : Uuid} {p q : Portal}

section steps

theorem step_insert (hp : r.get? id = some p) (h : p.Retouched r.worlds q) :
    r.Step { r with portals := r.portals.insert id q } := by
  rw [Table.insert_eq_modify hp]
  refine .retouch _ fun k o ho => ?_
  split
  · next hk =>
    obtain rfl : p = o := Option.some.inj (hp.symm.trans (hk ▸ ho))
    exact h
  · exact .refl

theorem step_modify {f : Portal → Portal} (h : ∀ p : Portal, p.Retouched r.worlds (f p)) :
    r.Step { r with portals := r.portals.modify id f } := by
  refine .retouch _ fun k p _ => ?_
  split
  · exact h p
  · exact .refl

theorem step_resolveOrigins {which : Portal → Bool} : r.Step (r.resolveOrigins which) := by
  refine .retouch _ fun k p _ => ?_
  split
  · exact .resolveOrigin
  · exact .refl

theorem step_viewActivate : r.Step (r.viewActivate id) := by
  refine step_modify fun p => ?_
  split
  · exact .refl
  · exact .viewActivate

theorem step_viewDeactivate : r.Step (r.viewDeactivate id) :=
  step_modify fun _ => .viewDeactivate

theorem steps_clearBlock {a : Anchor} : r.Steps (r.clearBlock a) := by
  unfold clearBlock
  split
  · exact .single (.rebuild _ rfl)
  · exact .refl

theorem steps_clearBlock_if {a : Anchor} {c : Prop} [Decidable c] (h : r.Steps s) :
    r.Steps (if c then s.clearBlock a else s) := by
  split
  · exact h.trans steps_clearBlock
  · exact h

theorem steps_removeOne : r.Steps (r.removeOne id).2 := by
  have h : r.Steps (r.take id).2 := .single (.take id)
  unfold removeOne
  split
  · next he => rwa [he] at h
  · next he =>
    rw [he] at h
    exact steps_clearBlock_if h

theorem steps_removeEach {ids : List Uuid} : r.Steps (r.removeEach ids).2 := by
  induction ids generalizing r with
  | nil => exact .refl
  | cons id ids ih => exact steps_removeOne.trans ih

theorem steps_removeAt {l : Location} : r.Steps (r.removeAt l).2 :=
  .head step_resolveOrigins steps_removeEach

theorem steps_remove {otherDirection : Bool} : r.Steps (r.remove id otherDirection).2 := by
  have h : r.Steps (r.removeOne id).2 := steps_removeOne
  unfold remove
  split
  · next he => rwa [he] at h
  · next p r' he =>
    rw [he] at h
    split
    · cases p.dest.location? r'.worlds with
      | some l => exact steps_clearBlock_if (h.trans steps_removeAt)
      | none => exact steps_clearBlock_if h
    · exact h

theorem steps_removeNearest {l : Location} {otherDirection : Bool} :
    r.Steps (r.removeNearest l otherDirection).2 := by
  unfold removeNearest
  split
  · exact .single step_resolveOrigins
  · next p _ =>
    have h : r.Steps (r.resolveOrigins.remove p.id otherDirection).2 :=
      .head step_resolveOrigins steps_remove
    split
    · next he => rwa [he] at h
    · next he => rwa [he] at h

theorem steps_removeNamed {name : String} : r.Steps (r.removeNamed name).2 := by
  simp only [removeNamed]
  split
  · exact .refl
  · exact steps_removeEach

theorem steps_setAllowsNonPlayers {allow : Bool} : r.Steps (r.setAllowsNonPlayers id allow).2 := by
  unfold setAllowsNonPlayers
  split
  · exact .refl
  · next p hp => exact .single (step_insert hp .allows)

theorem steps_switch {was wanted : Bool} {on off stay : Registry × ActivationChanges}
    (hon : r.Steps on.1) (hoff : r.Steps off.1) (hstay : r.Steps stay.1) :
    r.Steps (match was, wanted with
      | false, true => on
      | true, false => off
      | _, _ => stay).1 := by
  split
  · exact hon
  · exact hoff
  · exact hstay

theorem steps_observePortal {range : ActivationRange} {observers : List Observer}
    {c : ActivationChanges} : r.Steps (observePortal range observers (r, c) id).1 := by
  simp only [observePortal]
  split
  · exact .refl
  · next p hp =>
    have hr : r.Steps { r with portals := r.portals.insert id (p.resolveOrigin r.worlds) } :=
      .single (step_insert hp .resolveOrigin)
    have hactivate := hr.tail (.activate id)
    have hdeactivate := hr.tail (.deactivate id)
    apply steps_switch
    · exact (steps_switch hactivate hdeactivate hr).tail step_viewActivate
    · exact (steps_switch hactivate hdeactivate hr).tail step_viewDeactivate
    · exact steps_switch hactivate hdeactivate hr

theorem steps_observe {range : ActivationRange} {observers : List Observer} :
    r.Steps (r.observe range observers).1 := by
  have hfold : ∀ (ids : List Uuid) (state : Registry × ActivationChanges), r.Steps state.1 →
      r.Steps (ids.foldl (observePortal range observers) state).1 := by
    intro ids
    induction ids with
    | nil => exact fun _ h => h
    | cons id ids ih => exact fun _ h => ih _ (h.trans steps_observePortal)
  exact hfold _ _ .refl

theorem steps_removeBroken {ids : List Uuid} : r.Steps (r.removeBroken ids).2 := by
  induction ids generalizing r with
  | nil => exact .refl
  | cons id ids ih => exact steps_remove.trans ih

theorem steps_update : r.Steps r.update.2 :=
  .head (.retouch _ fun _ _ _ => .updatePortal) steps_removeBroken

end steps

/-- Portals are found under their own ids. -/
def Keyed (r : Registry) : Prop :=
  ∀ k p, r.get? k = some p → p.id = k

/-- Every portal of `s` is one of `r`, perhaps revised. -/
structure Narrows (r s : Registry) : Prop where
  loaded : s.worlds.loaded = r.worlds.loaded
  portal : ∀ k q, s.get? k = some q → ∃ p, r.get? k = some p ∧ p.Revised r.worlds q

namespace Narrows

variable {t : Registry} {regions : Regions}

theorem refl : r.Narrows r :=
  ⟨rfl, fun _ p hp => ⟨p, hp, .refl⟩⟩

theorem trans (h : r.Narrows s) (h' : s.Narrows t) : r.Narrows t := by
  refine ⟨h'.loaded.trans h.loaded, ?_⟩
  intro k o ho
  obtain ⟨q, hq, hqo⟩ := h'.portal k o ho
  obtain ⟨p, hp, hpq⟩ := h.portal k q hq
  exact ⟨p, hp, hpq.trans (hqo.congr h.loaded)⟩

theorem insert (hp : r.get? id = some p) (h : p.Revised r.worlds q) :
    r.Narrows { r with portals := r.portals.insert id q, regions } := by
  refine ⟨rfl, ?_⟩
  intro k o ho
  have ho : (r.portals.insert id q).get? k = some o := ho
  rw [Table.get?_insert] at ho
  split at ho
  · next hk =>
    cases ho
    exact ⟨p, hk ▸ hp, h⟩
  · exact ⟨o, ho, .refl⟩

theorem activate : r.Narrows (r.activate id) := by
  unfold Registry.activate
  split
  · exact refl
  · split
    · exact refl
    · exact insert ‹_› .activate

theorem deactivate : r.Narrows (r.deactivate id) := by
  unfold Registry.deactivate
  split
  · exact refl
  · next p hp =>
    split
    · exact insert hp (@Portal.Revised.deactivate r.worlds p r.regions)
    · exact refl

theorem take : r.Narrows (r.take id).2 := by
  unfold Registry.take
  split
  · exact refl
  · refine ⟨rfl, ?_⟩
    intro k o ho
    have ho : (r.portals.erase id).get? k = some o := ho
    rw [Table.get?_erase] at ho
    split at ho
    · cases ho
    · exact ⟨o, ho, .refl⟩

theorem of_step (h : r.Step s) : r.Narrows s := by
  cases h with
  | retouch f hf =>
    refine ⟨rfl, ?_⟩
    intro k o ho
    have ho : (r.portals.mapValues f).get? k = some o := ho
    rw [Table.get?_mapValues] at ho
    obtain ⟨p, hp, rfl⟩ := Option.map_eq_some_iff.1 ho
    exact ⟨p, hp, (hf k p hp).toRevised⟩
  | activate id => exact activate
  | deactivate id => exact deactivate
  | take id => exact take
  | rebuild ws hws => exact ⟨hws, fun _ p hp => ⟨p, hp, .refl⟩⟩

theorem of_steps (h : r.Steps s) : r.Narrows s := by
  induction h with
  | refl => exact refl
  | tail _ hstep ih => exact ih.trans (of_step hstep)

theorem keyed (h : r.Narrows s) (hr : r.Keyed) : s.Keyed := by
  intro k q hq
  obtain ⟨p, hp, hpq⟩ := h.portal k q hq
  exact hpq.id.trans (hr k p hp)

end Narrows

end Registry

end PortalNet
