import Mathlib.Data.List.Basic
import Mathlib.Data.List.Induction
import PortalNet.Proofs.Registry.Order

/-! # Passes over the portals

A pass does to every portal what the observers ask for, and to each one the same whatever is done
to the others. So it leaves activated exactly the portals that someone is near enough to, there is
nothing left to do for a second pass, and neither the order of the observers nor that of the portals
matters.
-/

namespace PortalNet

namespace Portal

/-- The portal and the regions after the activation was started or ended, if that was wanted. -/
def switch (p : Portal) (ws : Worlds) (active : Bool) (regions : Regions) : Portal × Regions :=
  match p.isActivated, active with
  | false, true => p.activate ws regions
  | true, false => p.deactivate regions
  | _, _ => (p, regions)

def viewSwitch (p : Portal) (view : Bool) : Portal :=
  match p.isViewActive, view with
  | false, true => p.viewActivate
  | true, false => p.viewDeactivate
  | _, _ => p

/-- What a pass does to a portal. -/
def settle (p : Portal) (ws : Worlds) (active view : Bool) (regions : Regions) : Portal × Regions :=
  let (q, regions) := (p.resolveOrigin ws).switch ws active regions
  (q.viewSwitch view, regions)

variable {p : Portal} {ws : Worlds} {active view : Bool} {g g' : Regions}

theorem switch_cases (p : Portal) (ws : Worlds) (active : Bool) (g : Regions) :
    p.isActivated = active ∧ p.switch ws active g = (p, g) ∨
      p.isActivated = false ∧ active = true ∧ p.switch ws active g = p.activate ws g ∨
      p.isActivated = true ∧ active = false ∧ p.switch ws active g = p.deactivate g := by
  unfold switch
  cases p.isActivated <;> cases active <;> simp

theorem viewSwitch_cases (p : Portal) (view : Bool) :
    p.isViewActive = view ∧ p.viewSwitch view = p ∨
      p.isViewActive = false ∧ view = true ∧ p.viewSwitch view = p.viewActivate ∨
      p.isViewActive = true ∧ view = false ∧ p.viewSwitch view = p.viewDeactivate := by
  unfold viewSwitch
  cases p.isViewActive <;> cases view <;> simp

section activate

theorem activate_fst : (p.activate ws g).1 = (p.activate ws g').1 := by
  cases hp : p.held with
  | some l => simp [activate, hp]
  | none => cases hl : p.dest.location? ws <;> simp [activate, hp, hl]

theorem origin_activate : (p.activate ws g).1.origin = p.origin := by
  simp only [activate]
  repeat' split
  all_goals rfl

theorem isViewActive_activate : (p.activate ws g).1.isViewActive = p.isViewActive := by
  simp only [activate]
  repeat' split
  all_goals rfl

theorem isViewActive_deactivate : (p.deactivate g).1.isViewActive = p.isViewActive := rfl

theorem restored_activate : (p.activate ws g).1.restored = p.restored := by
  simp only [activate]
  repeat' split
  all_goals rfl

end activate

section switch

theorem switch_fst : (p.switch ws active g).1 = (p.switch ws active g').1 := by
  unfold switch
  split
  · exact activate_fst
  · rfl
  · rfl

theorem isActivated_switch : (p.switch ws active g).1.isActivated = active := by
  rcases p.switch_cases ws active g with ⟨ha, h⟩ | ⟨-, rfl, h⟩ | ⟨-, rfl, h⟩
  · rw [h, ha]
  · rw [h, isActivated_activate]
  · rw [h]
    rfl

theorem switch_kept : (p.switch ws active g).1.origin = p.origin ∧
    (p.switch ws active g).1.isViewActive = p.isViewActive ∧
    (p.switch ws active g).1.restored = p.restored := by
  rcases p.switch_cases ws active g with ⟨-, h⟩ | ⟨-, -, h⟩ | ⟨-, -, h⟩
  · rw [h]
    exact ⟨rfl, rfl, rfl⟩
  · rw [h]
    exact ⟨origin_activate, isViewActive_activate, restored_activate⟩
  · rw [h]
    exact ⟨rfl, rfl, rfl⟩

theorem isViewActive_viewSwitch : (p.viewSwitch view).isViewActive = view := by
  rcases p.viewSwitch_cases view with ⟨hv, h⟩ | ⟨-, rfl, h⟩ | ⟨-, rfl, h⟩
  · rw [h, hv]
  · rw [h]
    rfl
  · rw [h]
    rfl

theorem viewSwitch_kept : (p.viewSwitch view).origin = p.origin ∧
    (p.viewSwitch view).isActivated = p.isActivated ∧
    (p.viewSwitch view).held = p.held ∧ (p.viewSwitch view).restored = p.restored := by
  rcases p.viewSwitch_cases view with ⟨-, h⟩ | ⟨-, -, h⟩ | ⟨-, -, h⟩
  all_goals
    rw [h]
    exact ⟨rfl, rfl, rfl, rfl⟩

end switch

section settle

/-- What becomes of a portal does not depend on what others hold. -/
theorem settle_fst : (p.settle ws active view g).1 = (p.settle ws active view g').1 :=
  congrArg (viewSwitch · view) switch_fst

theorem isActivated_settle : (p.settle ws active view g).1.isActivated = active :=
  viewSwitch_kept.2.1.trans isActivated_switch

theorem isViewActive_settle : (p.settle ws active view g).1.isViewActive = view :=
  isViewActive_viewSwitch

theorem origin_settle : (p.settle ws active view g).1.origin = p.origin.resolved ws :=
  viewSwitch_kept.1.trans switch_kept.1

theorem restored_settle : (p.settle ws active view g).1.restored = p.restored :=
  viewSwitch_kept.2.2.2.trans switch_kept.2.2

/-- A portal that is as wanted is only asked where it stands. -/
theorem settle_of_eq (ha : p.isActivated = active) (hv : p.isViewActive = view) :
    p.settle ws active view g = (p.resolveOrigin ws, g) := by
  subst ha hv
  simp only [settle, switch, viewSwitch]
  have ha : (p.resolveOrigin ws).isActivated = p.isActivated := rfl
  have hv : (p.resolveOrigin ws).isViewActive = p.isViewActive := rfl
  cases hactive : p.isActivated <;> cases hview : p.isViewActive <;> simp [ha, hv, hactive, hview]

end settle

end Portal

namespace Regions.Counts

variable {g : Regions} {n : Chunk → Nat} {p : Portal} {ws : Worlds} {active view : Bool}

theorem switch (h : g.Counts fun c => n c + if p.holds c then 1 else 0) :
    (p.switch ws active g).2.Counts fun c =>
      n c + if (p.switch ws active g).1.holds c then 1 else 0 := by
  rcases p.switch_cases ws active g with ⟨-, hs⟩ | ⟨-, -, hs⟩ | ⟨-, -, hs⟩
  · rw [hs]
    exact h
  · rw [hs]
    exact h.activate
  · have hidle : (p.deactivate g).1.held = none := rfl
    simpa only [hs, Portal.holds_of_idle hidle, Bool.false_eq_true, if_false, Nat.add_zero] using
      h.deactivate

theorem settle (h : g.Counts fun c => n c + if p.holds c then 1 else 0) :
    (p.settle ws active view g).2.Counts fun c =>
      n c + if (p.settle ws active view g).1.holds c then 1 else 0 := by
  have hview : ∀ (q : Portal) c, (q.viewSwitch view).holds c = q.holds c := fun q c => by
    rw [Portal.holds, Portal.holds, Portal.viewSwitch_kept.2.2.1]
  simp only [Portal.settle, hview]
  exact h.switch (p := p.resolveOrigin ws)

end Regions.Counts

/-- Somebody is in the world where the portal stands, and near enough to it. -/
def Portal.Near (p : Portal) (ws : Worlds) (observers : List Observer) (limit : Double) : Prop :=
  ∃ l, p.origin.location? ws = some l ∧ ∃ o ∈ observers,
    o.location.world.id = l.world.id ∧ o.location.point.distance l.point ≤ limit

/-- The changes with one more portal, which was in one state and now is in another. -/
def ActivationChanges.note (c : ActivationChanges) (id : Uuid) (was active wasView view : Bool) :
    ActivationChanges where
  activated := c.activated ++ if !was && active then [id] else []
  deactivated := c.deactivated ++ if was && !active then [id] else []
  viewActivated := c.viewActivated ++ if !wasView && view then [id] else []
  viewDeactivated := c.viewDeactivated ++ if wasView && !view then [id] else []

namespace Registry

variable {r s : Registry} {range : ActivationRange} {observers : List Observer} {k id : Uuid}
  {p q : Portal} {g : Regions} {c : ActivationChanges}

section insert

theorem activate_insert (h : q.isActivated = false) :
    activate { r with portals := r.portals.insert id q } id =
      { r with
        portals := r.portals.insert id (q.activate r.worlds r.regions).1
        regions := (q.activate r.worlds r.regions).2 } := by
  have hget : get? { r with portals := r.portals.insert id q } id = some q :=
    Table.get?_insert_self
  simp [activate, hget, h, Table.insert_insert]

theorem deactivate_insert (h : q.isActivated = true) :
    deactivate { r with portals := r.portals.insert id q } id =
      { r with
        portals := r.portals.insert id (q.deactivate r.regions).1
        regions := (q.deactivate r.regions).2 } := by
  have hget : get? { r with portals := r.portals.insert id q } id = some q :=
    Table.get?_insert_self
  simp [deactivate, hget, h, Table.insert_insert]

theorem viewActivate_insert (h : q.isViewActive = false) :
    viewActivate { r with portals := r.portals.insert id q, regions := g } id =
      { r with portals := r.portals.insert id q.viewActivate, regions := g } := by
  simp [viewActivate, Table.modify_insert_self, h]

theorem viewDeactivate_insert :
    viewDeactivate { r with portals := r.portals.insert id q, regions := g } id =
      { r with portals := r.portals.insert id q.viewDeactivate, regions := g } := by
  simp [viewDeactivate, Table.modify_insert_self]

end insert

/-- What a pass does to a portal of the registry. -/
def settle (r : Registry) (range : ActivationRange) (observers : List Observer) (p : Portal)
    (regions : Regions) : Portal × Regions :=
  p.settle r.worlds (r.observed p observers range.activation)
    (r.observed p (observers.filter (·.seesThrough)) range.view) regions

theorem observePortal_of_some (hp : r.get? id = some p) :
    observePortal range observers (r, c) id =
      ({ r with
          portals := r.portals.insert id (r.settle range observers p r.regions).1
          regions := (r.settle range observers p r.regions).2 },
        c.note id p.isActivated (r.observed p observers range.activation) p.isViewActive
          (r.observed p (observers.filter (·.seesThrough)) range.view)) := by
  simp only [observePortal, hp, settle, Portal.settle]
  generalize r.observed p observers range.activation = active
  generalize r.observed p (observers.filter (·.seesThrough)) range.view = view
  generalize hq : p.resolveOrigin r.worlds = q
  have hactive : p.isActivated = q.isActivated := hq ▸ rfl
  have hview : p.isViewActive = q.isViewActive := hq ▸ rfl
  rw [hactive, hview]
  cases ha : q.isActivated <;> cases active <;> cases hv : q.isViewActive <;> cases view
  all_goals
    simp [Portal.switch, Portal.viewSwitch, ActivationChanges.note, ha, hv, activate_insert,
      deactivate_insert, viewActivate_insert, viewDeactivate_insert, Portal.isViewActive_activate,
      Portal.isViewActive_deactivate]

/-- The portals after a pass over some of them. -/
def settlePortals (r : Registry) (range : ActivationRange) (observers : List Observer)
    (ids : List Uuid) : Table Uuid Portal :=
  r.portals.mapValues fun id p => if id ∈ ids then (r.settle range observers p {}).1 else p

def settleRegions (r : Registry) (range : ActivationRange) (observers : List Observer)
    (ids : List Uuid) : Regions :=
  (ids.filterMap r.get?).foldl (fun regions p => (r.settle range observers p regions).2) r.regions

/-- Whether something is the case for a portal from now on. -/
def turns (r : Registry) (was now : Portal → Bool) (id : Uuid) : Bool :=
  (r.get? id).any fun p => !was p && now p

def settleChanges (r : Registry) (range : ActivationRange) (observers : List Observer)
    (ids : List Uuid) : ActivationChanges :=
  let active := fun p => r.observed p observers range.activation
  let view := fun p => r.observed p (observers.filter (·.seesThrough)) range.view
  { activated := ids.filter (r.turns (·.isActivated) active)
    deactivated := ids.filter (r.turns (!·.isActivated) (!active ·))
    viewActivated := ids.filter (r.turns (·.isViewActive) view)
    viewDeactivated := ids.filter (r.turns (!·.isViewActive) (!view ·)) }

section append

variable {ids : List Uuid}

theorem insert_settlePortals (hp : r.get? id = some p) :
    (r.settlePortals range observers ids).insert id (r.settle range observers p g).1 =
      r.settlePortals range observers (ids ++ [id]) := by
  rw [settlePortals, Table.insert_mapValues hp]
  refine Table.mapValues_congr fun k q hq => ?_
  by_cases hk : k = id
  · subst hk
    obtain rfl : p = q := Option.some.inj (hp.symm.trans hq)
    simp only [if_true, List.mem_append, List.mem_singleton, or_true]
    exact Portal.settle_fst
  · simp only [hk, if_false, List.mem_append, List.mem_singleton, or_false]

theorem settleRegions_append (hp : r.get? id = some p) :
    r.settleRegions range observers (ids ++ [id]) =
      (r.settle range observers p (r.settleRegions range observers ids)).2 := by
  simp [settleRegions, hp]

theorem filter_turns_append {was now : Portal → Bool} (hp : r.get? id = some p) :
    (ids ++ [id]).filter (r.turns was now) =
      ids.filter (r.turns was now) ++ if !was p && now p then [id] else [] := by
  have hid : r.turns was now id = (!was p && now p) := by simp [turns, hp]
  rw [List.filter_append, List.filter_singleton, hid]
  cases !was p && now p <;> rfl

theorem note_settleChanges (hp : r.get? id = some p) :
    (r.settleChanges range observers ids).note id p.isActivated
        (r.observed p observers range.activation) p.isViewActive
        (r.observed p (observers.filter (·.seesThrough)) range.view) =
      r.settleChanges range observers (ids ++ [id]) := by
  simp only [settleChanges, ActivationChanges.note, filter_turns_append hp, Bool.not_not]

end append

/-- The portals do not get in the way of each other. -/
theorem foldl_observePortal {ids : List Uuid} (h : ids.Nodup) (hids : ids ⊆ r.ids) :
    ids.foldl (observePortal range observers) (r, {}) =
      ({ r with
          portals := r.settlePortals range observers ids
          regions := r.settleRegions range observers ids },
        r.settleChanges range observers ids) := by
  induction ids using List.reverseRecOn with
  | nil =>
    have hportals : r.settlePortals range observers [] = r.portals :=
      Table.mapValues_eq_self fun _ _ _ => if_neg List.not_mem_nil
    rw [hportals]
    rfl
  | append_singleton ids id ih =>
    obtain ⟨hnew, hnodup⟩ := List.nodup_cons.1 ((List.perm_append_singleton id ids).nodup_iff.1 h)
    obtain ⟨hids, hid⟩ := List.append_subset.1 hids
    obtain ⟨p, hp⟩ := Option.isSome_iff_exists.1
      (Table.mem_keys_iff.1 (hid List.mem_cons_self) : (r.get? id).isSome)
    rw [List.foldl_append, ih hnodup hids, List.foldl_cons, List.foldl_nil]
    generalize hs : ({ r with
      portals := r.settlePortals range observers ids
      regions := r.settleRegions range observers ids } : Registry) = s
    have hget : s.get? id = some p := by
      subst hs
      change (r.portals.mapValues _).get? id = _
      rw [Table.get?_mapValues, show r.portals.get? id = some p from hp, Option.map_some,
        if_neg hnew]
    rw [observePortal_of_some hget, ← note_settleChanges hp, settleRegions_append hp,
      ← insert_settlePortals (g := s.regions) hp]
    subst hs
    rfl

theorem filterMap_ids : r.ids.filterMap r.get? = r.all := by
  have hget : ∀ e ∈ r.portals.entries, r.get? e.1 = some e.2 :=
    fun e he => Table.get?_eq_some_iff.2 he
  rw [ids, Table.keys, List.filterMap_map, all, Table.values, ← List.filterMap_eq_map]
  exact List.filterMap_congr hget

theorem observe_eq : r.observe range observers =
    ({ r with
        portals := r.portals.mapValues fun _ p => (r.settle range observers p {}).1
        regions := r.all.foldl (fun regions p => (r.settle range observers p regions).2)
          r.regions },
      r.settleChanges range observers r.ids) := by
  have hportals : r.settlePortals range observers r.ids =
      r.portals.mapValues fun _ p => (r.settle range observers p {}).1 :=
    Table.mapValues_congr fun k p hp => if_pos (Table.mem_keys_iff.2 (hp ▸ rfl))
  have hregions : r.settleRegions range observers r.ids =
      r.all.foldl (fun regions p => (r.settle range observers p regions).2) r.regions := by
    rw [settleRegions, filterMap_ids]
  have hnodup : r.ids.Nodup := r.portals.nodup
  rw [observe, foldl_observePortal hnodup (List.Subset.refl _), hportals, hregions]

section observed

variable {limit : Double}

theorem observed_iff : r.observed p observers limit = true ↔ p.Near r.worlds observers limit := by
  unfold observed Portal.Near
  cases p.origin.location? r.worlds with
  | none => simp
  | some l =>
    simp only [List.any_eq_true, Option.some.injEq, exists_eq_left', Location.distance?]
    refine exists_congr fun o => and_congr_right fun _ => ?_
    by_cases hw : o.location.world.id = l.world.id <;> simp [hw]

/-- Only which observers there are counts. -/
theorem observed_congr {others : List Observer} (h : ∀ o, o ∈ others ↔ o ∈ observers) :
    r.observed p others limit = r.observed p observers limit := by
  rw [Bool.eq_iff_iff, observed_iff, observed_iff]
  simp only [Portal.Near, h]

theorem observed_settle {others : List Observer} :
    r.observed (r.settle range observers p g).1 others limit = r.observed p others limit := by
  have horigin : (r.settle range observers p g).1.origin = p.origin.resolved r.worlds :=
    Portal.origin_settle
  unfold observed
  rw [horigin, Anchor.location?_resolved]

end observed

section pass

theorem filter_turns_eq_nil {ids : List Uuid} {was now : Portal → Bool}
    (h : ∀ p ∈ r.all, was p = now p) : ids.filter (r.turns was now) = [] := by
  rw [List.filter_eq_nil_iff]
  intro id _
  cases hp : r.get? id with
  | none => simp [turns, hp]
  | some p => simp [turns, hp, h p (Table.mem_values_iff.2 ⟨id, hp⟩)]

theorem get?_observe : (r.observe range observers).1.get? k =
    (r.get? k).map fun p => (r.settle range observers p {}).1 := by
  rw [observe_eq]
  exact Table.get?_mapValues

theorem ids_observe : (r.observe range observers).1.ids = r.ids := by
  rw [observe_eq, ids, ids, Table.keys, Table.keys, Table.mapValues, List.map_map]
  rfl

theorem settle_observe {vs : List Observer} :
    (r.observe range observers).1.settle range vs = r.settle range vs := by
  rw [observe_eq]
  rfl

theorem settle_settle : r.settle range observers (r.settle range observers p {}).1 g =
    ((r.settle range observers p {}).1, g) := by
  generalize hq : (r.settle range observers p {}).1 = q
  have hactive : q.isActivated = r.observed q observers range.activation := by
    subst hq
    exact Portal.isActivated_settle.trans observed_settle.symm
  have hview : q.isViewActive = r.observed q (observers.filter (·.seesThrough)) range.view := by
    subst hq
    exact Portal.isViewActive_settle.trans observed_settle.symm
  have horigin : q.origin.resolved r.worlds = q.origin := by
    subst hq
    rw [settle, Portal.origin_settle, Anchor.resolved_resolved]
  rw [settle, Portal.settle_of_eq hactive hview, Portal.resolveOrigin, horigin]

/-- Nothing is left to do for a second pass. -/
theorem observe_observe : (r.observe range observers).1.observe range observers =
    ((r.observe range observers).1, {}) := by
  generalize hs : (r.observe range observers).1 = s
  have hsettle : ∀ q ∈ s.all, ∀ g, s.settle range observers q g = (q, g) := by
    intro q hq g
    obtain ⟨k, hk⟩ := Table.mem_values_iff.1 hq
    have hk : s.get? k = some q := hk
    rw [← hs, get?_observe] at hk
    obtain ⟨p, -, rfl⟩ := Option.map_eq_some_iff.1 hk
    rw [← hs, settle_observe]
    exact settle_settle
  have hportals : (s.portals.mapValues fun _ p => (s.settle range observers p {}).1) = s.portals :=
    Table.mapValues_eq_self fun k q hq => by rw [hsettle q (Table.mem_values_iff.2 ⟨k, hq⟩)]
  have hregions : s.all.foldl (fun regions p => (s.settle range observers p regions).2) s.regions =
      s.regions :=
    (List.foldl_ext _ (fun regions _ => regions) _ fun g q hq => by rw [hsettle q hq]).trans
      (List.foldl_fixed _)
  have hactive : ∀ q ∈ s.all, q.isActivated = s.observed q observers range.activation :=
    fun q hq => (congrArg (·.1.isActivated) (hsettle q hq {})).symm.trans Portal.isActivated_settle
  have hview : ∀ q ∈ s.all,
      q.isViewActive = s.observed q (observers.filter (·.seesThrough)) range.view :=
    fun q hq =>
      (congrArg (·.1.isViewActive) (hsettle q hq {})).symm.trans Portal.isViewActive_settle
  have hchanges : s.settleChanges range observers s.ids = {} := by
    simp only [settleChanges, ActivationChanges.mk.injEq]
    refine ⟨filter_turns_eq_nil fun q hq => ?_, filter_turns_eq_nil fun q hq => ?_,
      filter_turns_eq_nil fun q hq => ?_, filter_turns_eq_nil fun q hq => ?_⟩
    · exact hactive q hq
    · rw [hactive q hq]
    · exact hview q hq
    · rw [hview q hq]
  rw [observe_eq, hportals, hregions, hchanges]

end pass

/-- The ids, each once, of the portals for which something is the case now and was not before. -/
def Turned (r s : Registry) (state : Portal → Bool) (ids : List Uuid) : Prop :=
  ids.Nodup ∧ ∀ k, k ∈ ids ↔ ∃ p q,
    r.get? k = some p ∧ s.get? k = some q ∧ state p = false ∧ state q = true

theorem turned_observe {state now : Portal → Bool}
    (h : ∀ p, state (r.settle range observers p {}).1 = now p) :
    r.Turned (r.observe range observers).1 state (r.ids.filter (r.turns state now)) := by
  have hnodup : r.ids.Nodup := r.portals.nodup
  refine ⟨hnodup.filter _, fun k => ?_⟩
  rw [List.mem_filter, turns, get?_observe]
  cases hp : r.get? k with
  | none => simp
  | some p =>
    have hk : k ∈ r.ids := Table.mem_keys_iff.2 (show (r.get? k).isSome by rw [hp]; rfl)
    simp [hk, h]

/-- Every hold of a portal is counted, perhaps among others. -/
def Backed (r : Registry) : Prop :=
  ∃ others : Chunk → Nat, r.regions.Counts fun c => others c + r.holding c

section counts

variable {n : Chunk → Nat} {ps : List Portal}

theorem counts_foldl_settle (h : g.Counts fun c => n c + ps.countP (·.holds c)) :
    (ps.foldl (fun g p => (r.settle range observers p g).2) g).Counts fun c =>
      n c + (ps.map fun p => (r.settle range observers p {}).1).countP (·.holds c) := by
  induction ps generalizing g n with
  | nil => exact h
  | cons p ps ih =>
    simp only [List.countP_cons, ← Nat.add_assoc] at h
    have hfst : (r.settle range observers p g).1 = (r.settle range observers p {}).1 :=
      Portal.settle_fst
    have hsettle : (r.settle range observers p g).2.Counts fun c => n c + ps.countP (·.holds c) +
        if (r.settle range observers p g).1.holds c then 1 else 0 := h.settle
    simp only [hfst, Nat.add_right_comm] at hsettle
    simpa only [List.map_cons, List.countP_cons, ← Nat.add_assoc, Nat.add_right_comm,
      List.foldl_cons] using ih hsettle

theorem counts_observe (h : r.regions.Counts fun c => n c + r.holding c) :
    (r.observe range observers).1.regions.Counts fun c =>
      n c + (r.observe range observers).1.holding c := by
  have hholding : ∀ c, (r.observe range observers).1.holding c =
      (r.all.map fun p => (r.settle range observers p {}).1).countP (·.holds c) := by
    intro c
    rw [observe_eq, holding, all, all, Table.values, Table.values, Table.mapValues, List.map_map,
      List.map_map]
    rfl
  simp only [hholding]
  rw [observe_eq]
  exact counts_foldl_settle h

theorem Accounted.backed (h : r.Accounted) : r.Backed :=
  ⟨fun _ => 0, by simpa only [Nat.zero_add] using h.counts⟩

/-- The order of the portals does not matter as long as no hold is missed. -/
theorem Backed.alike_observe (h : r.Backed) {portals : Table Uuid Portal}
    (hp : portals.entries.Perm r.portals.entries) :
    (observe { r with portals } range observers).1.Alike (r.observe range observers).1 ∧
      (observe { r with portals } range observers).1.regions.unmatched =
        (r.observe range observers).1.regions.unmatched := by
  obtain ⟨n, hn⟩ := h
  have hget : ∀ k, (observe { r with portals } range observers).1.get? k =
      (r.observe range observers).1.get? k := by
    intro k
    rw [get?_observe, get?_observe, get?_reorder hp]
    rfl
  have hholding : ∀ c, holding { r with portals } c = r.holding c :=
    fun c => (hp.map Prod.snd).countP_eq _
  have hholding' : ∀ c, (observe { r with portals } range observers).1.holding c =
      (r.observe range observers).1.holding c :=
    fun c => ((Table.perm_entries hget).map Prod.snd).countP_eq _
  have hs : (r.observe range observers).1.regions.Counts fun c =>
      n c + (r.observe range observers).1.holding c := counts_observe hn
  have ht : (observe { r with portals } range observers).1.regions.Counts fun c =>
      n c + (observe { r with portals } range observers).1.holding c :=
    counts_observe (by simpa only [hholding] using hn)
  simp only [hholding'] at ht
  refine ⟨⟨hget, ?_, ?_, fun c => (ht.holders c).trans (hs.holders c).symm⟩,
    ht.unmatched.trans hs.unmatched.symm⟩
  · rw [observe_eq, observe_eq]
  · intro w b
    rw [observe_eq, observe_eq]

end counts

/-- A pass leaves a portal activated exactly if somebody is near enough to its origin, and its view
exactly if somebody is who sees through, and notes what that changed. It leaves all else and nothing
for a second pass, and is the same for observers in any order and any number of times. The order of
the portals does not matter either where no hold is missed, as it never is. -/
theorem observe_exact (r : Registry) (range : ActivationRange) (observers : List Observer) :
    let s := (r.observe range observers).1
    let c := (r.observe range observers).2
    (s.ids = r.ids ∧ s.worlds = r.worlds ∧ ∀ k p, r.get? k = some p → ∃ q, s.get? k = some q ∧
      q.restored = p.restored ∧
      (q.isActivated = true ↔ p.Near r.worlds observers range.activation) ∧
      (q.isViewActive = true ↔ p.Near r.worlds (observers.filter (·.seesThrough)) range.view)) ∧
    (r.Turned s (·.isActivated) c.activated ∧ r.Turned s (!·.isActivated) c.deactivated ∧
      r.Turned s (·.isViewActive) c.viewActivated ∧
      r.Turned s (!·.isViewActive) c.viewDeactivated) ∧
    s.observe range observers = (s, {}) ∧
    (∀ others, (∀ o, o ∈ others ↔ o ∈ observers) →
      r.observe range others = r.observe range observers) ∧
    (∀ ws es, r = run { worlds := ws } es → r.Backed) ∧
    (r.Backed → ∀ portals : Table Uuid Portal, portals.entries.Perm r.portals.entries →
      let t := (observe { r with portals } range observers).1
      t.Alike s ∧ t.regions.unmatched = s.regions.unmatched) := by
  intro s c
  refine ⟨⟨ids_observe, by simp only [s, observe_eq], ?_⟩, ?_, observe_observe, ?_, ?_,
    fun h portals => h.alike_observe⟩
  · intro k p hp
    refine ⟨(r.settle range observers p {}).1, by rw [get?_observe, hp]; rfl,
      Portal.restored_settle, ?_, ?_⟩
    · rw [← observed_iff, settle, Portal.isActivated_settle]
    · rw [← observed_iff, settle, Portal.isViewActive_settle]
  · have hc : c = r.settleChanges range observers r.ids := congrArg Prod.snd observe_eq
    rw [hc]
    refine ⟨turned_observe ?_, turned_observe ?_, turned_observe ?_, turned_observe ?_⟩
    · exact fun p => Portal.isActivated_settle
    · exact fun p => congrArg (!·) Portal.isActivated_settle
    · exact fun p => Portal.isViewActive_settle
    · exact fun p => congrArg (!·) Portal.isViewActive_settle
  · intro others hothers
    have hfilter : ∀ o, o ∈ others.filter (·.seesThrough) ↔
        o ∈ observers.filter (·.seesThrough) := by
      simp only [List.mem_filter, hothers, implies_true]
    have hsettle : ∀ p g, r.settle range others p g = r.settle range observers p g := fun p g => by
      rw [settle, settle, observed_congr hothers, observed_congr hfilter]
    simp only [observe_eq, settleChanges, hsettle, observed_congr hothers, observed_congr hfilter]
  · rintro ws es rfl
    exact (run_induction .empty fun _ _ _ => .of_change : Accounted _).backed

end Registry

namespace Sample

/-- Stands where the first portal of the pair starts and does not look through portals. -/
def bystander : Observer := ⟨here, false⟩

def nearby : ActivationRange := ⟨(20 : Int), (10 : Int)⟩

end Sample

open Sample in
theorem pair_observed_backwards :
    ((registryOf pair).observe nearby [bystander]).2 =
      { activated := [(passing 6 here there false).id] } ∧
    (registryOf pair).Backed ∧
    (registryOf pair).observe nearby [bystander, bystander] =
      (registryOf pair).observe nearby [bystander] ∧
    ((registryOf pair).observe nearby [bystander]).1.observe nearby [bystander] =
      (((registryOf pair).observe nearby [bystander]).1, {}) ∧
    ((registryOf pair.reverse).observe nearby [bystander]).1.Alike
      ((registryOf pair).observe nearby [bystander]).1 := by
  have hbacked : (registryOf pair).Backed := accounted_pair.backed
  obtain ⟨-, -, hagain, hothers, -, horder⟩ :=
    Registry.observe_exact (registryOf pair) nearby [bystander]
  refine ⟨by decide +kernel, hbacked, hothers _ (by simp), hagain, ?_⟩
  exact (horder hbacked (registryOf pair.reverse).portals (by decide +kernel)).1

end PortalNet
