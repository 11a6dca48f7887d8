import PortalNet.Proofs.Portal.Clocks
import PortalNet.Proofs.Registry.Activation
import PortalNet.Proofs.Registry.Cascade
import PortalNet.Proofs.Registry.Renaming
import PortalNet.Registry.Link
import PortalNet.Report

/-! # Clocks along a run

Whatever happens to a registry, each of its portals shows just what it was called for since it came
in. Few events call on a portal at all, and a pass over the portals calls on each of them as if it
did not matter what it is doing. A tick that finds a portal broken is the last one for it.
-/

namespace PortalNet

namespace Portal

variable {p : Portal} {ws : Worlds} {active view : Bool} {g : Regions}

theorem Idle.clocks (h : p.Idle) : p.clocks = .after [] := by
  rw [Portal.clocks, h.activeTicks, h.viewTicks, h.refreshes, h.lastRefresh]
  rfl

/-- A portal that was just linked is at rest. -/
theorem idle_linkedPortal {options : LinkOptions} {id : Uuid} {near far : Position}
    {size : Size Double} : (Registry.linkedPortal options id near far size).Idle :=
  ⟨rfl, rfl, rfl, rfl, rfl⟩

theorem clocks_switch : (p.switch ws active g).1.clocks =
    p.clocks.next (if active then .activate else .deactivate) := by
  rcases p.switch_cases ws active g with ⟨rfl, h⟩ | ⟨ha, rfl, h⟩ | ⟨ha, rfl, h⟩
  · rw [h]
    cases ht : p.activeTicks <;> simp [isActivated, Portal.clocks, Clocks.next, ht]
  · have ht : p.activeTicks = none := by simpa [isActivated] using ha
    rw [h, clocks_activate]
    simp [Portal.clocks, Clocks.next, ht]
  · have ht : p.activeTicks.isSome = true := ha
    rw [h]
    simp [Portal.clocks, Clocks.next, ht, deactivate]

theorem clocks_viewSwitch : (p.viewSwitch view).clocks =
    p.clocks.next (if view then .viewActivate else .viewDeactivate) := by
  rcases p.viewSwitch_cases view with ⟨rfl, h⟩ | ⟨hv, rfl, h⟩ | ⟨-, rfl, h⟩
  · rw [h]
    cases ht : p.viewTicks <;> simp [isViewActive, Portal.clocks, Clocks.next, ht]
  · have ht : p.viewTicks = none := by simpa [isViewActive] using hv
    rw [h]
    simp [Portal.clocks, Clocks.next, ht, viewActivate]
  · rw [h]
    rfl

theorem clocks_settle : (p.settle ws active view g).1.clocks =
    (p.clocks.next (if active then .activate else .deactivate)).next
      (if view then .viewActivate else .viewDeactivate) := by
  rw [settle, clocks_viewSwitch, clocks_switch, clocks_resolveOrigin]

end Portal

namespace Registry

open Portal

/-- What an event calls on a portal for. A pass calls on each portal for what the observers want, be
it so already or not. -/
def calls (r : Registry) (id : Uuid) : Event → List Call
  | .activate k => if k = id then [.activate] else []
  | .deactivate k => if k = id then [.deactivate] else []
  | .viewActivate k => if k = id then [.viewActivate] else []
  | .viewDeactivate k => if k = id then [.viewDeactivate] else []
  | .observe range observers =>
    match r.get? id with
    | none => []
    | some p => [
        if r.observed p observers range.activation then .activate else .deactivate,
        if r.observed p (observers.filter (·.seesThrough)) range.view then .viewActivate
        else .viewDeactivate]
  | .update => [.update ((r.get? id).any (·.isValid r.worlds))]
  | _ => []

/-- Whether a portal comes in under this id. -/
def brings (r : Registry) (id : Uuid) : Event → Bool
  | .register p _ => p.id = id
  | .rename k name fresh =>
    fresh = id && (r.get? k).any fun p => RenameKind.classify p.name name = .replacement
  | _ => false

/-- The calls on a portal in a run since it came in, after those before the run. -/
def history (r : Registry) (id : Uuid) (h : List Call) : List Event → List Call
  | [] => h
  | e :: es => (r.after e).history id (if r.brings id e then [] else h ++ r.calls id e) es

/-- The portals of `s` are portals of `r` whose clocks stood still. -/
def Keeps (r s : Registry) : Prop :=
  ∀ k q, s.get? k = some q → ∃ p, r.get? k = some p ∧ q.clocks = p.clocks

/-- A portal of `s` is one of `r` that heeded some calls, and no tick found it broken. -/
def Heeds (r : Registry) (id : Uuid) (cs : List Call) (s : Registry) : Prop :=
  ∀ q, s.get? id = some q → ∃ p, r.get? id = some p ∧
    q.clocks = cs.foldl Clocks.next p.clocks ∧ .update false ∉ cs

variable {r s t : Registry} {e : Event} {es : List Event} {k id : Uuid} {p q : Portal}
  {l : Location} {name : String} {otherDirection : Bool}

section keeps

theorem Keeps.refl : r.Keeps r :=
  fun _ p hp => ⟨p, hp, rfl⟩

theorem Keeps.trans (h : r.Keeps s) (h' : s.Keeps t) : r.Keeps t := by
  intro k o ho
  obtain ⟨q, hq, hqo⟩ := h' k o ho
  obtain ⟨p, hp, hpq⟩ := h k q hq
  exact ⟨p, hp, hqo.trans hpq⟩

theorem Cut.keeps {ids : Set Uuid} {places : Set (Uuid × Block)} {asked : Bool}
    (h : r.Cut ids places asked s) : r.Keeps s := by
  intro k q hq
  by_cases hk : k ∈ ids
  · rw [h.gone k hk] at hq
    cases hq
  · rw [h.kept k hk] at hq
    obtain ⟨p, hp, rfl⟩ := Option.map_eq_some_iff.1 hq
    refine ⟨p, hp, ?_⟩
    unfold askedIf
    split <;> rfl

theorem keeps_mapValues {f : Uuid → Portal → Portal} (h : ∀ k p, (f k p).clocks = p.clocks) :
    r.Keeps { r with portals := r.portals.mapValues f } := by
  intro k q hq
  have hq : (r.portals.mapValues f).get? k = some q := hq
  rw [Table.get?_mapValues] at hq
  obtain ⟨p, hp, rfl⟩ := Option.map_eq_some_iff.1 hq
  exact ⟨p, hp, h k p⟩

theorem keeps_insert (hp : r.get? k = some p) (hq : q.clocks = p.clocks) :
    r.Keeps { r with portals := r.portals.insert k q } := by
  intro j o ho
  have ho : (r.portals.insert k q).get? j = some o := ho
  rw [Table.get?_insert] at ho
  split at ho
  · next hk =>
    cases ho
    exact ⟨p, hk ▸ hp, hq⟩
  · exact ⟨o, ho, rfl⟩

theorem keeps_remove (hr : r.Keyed) : r.Keeps (r.remove k otherDirection).2 := by
  cases hp : r.get? k with
  | none =>
    rw [remove_of_none hp]
    exact .refl
  | some p =>
    obtain rfl := hr k p hp
    exact (remove_exact hr (mem_all_iff.2 ⟨p.id, hp⟩)).2.keeps

theorem keeps_removeNearest (hr : r.Keyed) : r.Keeps (r.removeNearest l otherDirection).2 := by
  have hresolve : r.Cut ∅ ∅ true r.resolveOrigins := cut_resolveOrigins
  unfold removeNearest
  cases r.closest? l reach with
  | none => exact hresolve.keeps
  | some p =>
    have h : r.Keeps (r.resolveOrigins.remove p.id otherDirection).2 :=
      hresolve.keeps.trans (keeps_remove (hresolve.narrows.keyed hr))
    dsimp only
    split
    · next he => rwa [he] at h
    · next he => rwa [he] at h

theorem keeps_resolvePair : r.Keeps (r.resolvePair p) := by
  have hdest : r.Keeps { r with portals := r.portals.modify p.id (·.resolveDest r.worlds) } := by
    refine keeps_mapValues fun k q => ?_
    split <;> rfl
  simp only [resolvePair]
  split
  · exact .refl
  · split
    · refine hdest.trans (keeps_mapValues fun k q => ?_)
      split <;> rfl
    · exact hdest

theorem keeps_look {origins dests : Uuid → Portal → Bool} : r.Keeps (r.look origins dests) := by
  refine keeps_mapValues fun k p => ?_
  dsimp only
  split <;> split <;> rfl

theorem keeps_setAllowsNonPlayers {allow : Bool} :
    r.Keeps (r.after (.setAllowsNonPlayers k allow)) := by
  rw [after, setAllowsNonPlayers]
  cases hp : r.get? k with
  | none => exact .refl
  | some p => exact keeps_insert hp rfl

end keeps

section heeds

variable {c : Call} {f : Portal → Portal}

theorem Keeps.heeds (h : r.Keeps s) : r.Heeds id [] s := by
  intro q hq
  obtain ⟨p, hp, hclocks⟩ := h id q hq
  exact ⟨p, hp, hclocks, List.not_mem_nil⟩

theorem heeds_of_map (h : s.get? id = (r.get? id).map fun p => if k = id then f p else p)
    (hf : ∀ p, (f p).clocks = p.clocks.next c) (hc : .update false ≠ c) :
    r.Heeds id (if k = id then [c] else []) s := by
  intro q hq
  rw [h] at hq
  obtain ⟨p, hp, rfl⟩ := Option.map_eq_some_iff.1 hq
  refine ⟨p, hp, ?_⟩
  by_cases hk : k = id
  · rw [if_pos hk, if_pos hk]
    exact ⟨hf p, mt List.mem_singleton.1 hc⟩
  · rw [if_neg hk, if_neg hk]
    exact ⟨rfl, List.not_mem_nil⟩

theorem get?_eq_map (h : ∀ p, r.get? k = some p → f p = p) :
    r.get? id = (r.get? id).map fun p => if k = id then f p else p := by
  cases hp : r.get? id with
  | none => rfl
  | some p =>
    by_cases hk : k = id
    · rw [Option.map_some, if_pos hk, h p (hk ▸ hp)]
    · rw [Option.map_some, if_neg hk]

theorem get?_insert_eq_map (hp : r.get? k = some p) :
    (r.portals.insert k (f p)).get? id = (r.get? id).map fun p => if k = id then f p else p := by
  rw [Table.get?_insert]
  by_cases hk : k = id
  · subst hk
    rw [if_pos rfl, hp, Option.map_some, if_pos rfl]
  · simp only [if_neg hk]
    exact Option.map_id'.symm

theorem get?_modify_eq_map :
    (r.portals.modify k f).get? id = (r.get? id).map fun p => if k = id then f p else p := by
  rw [Table.get?_modify]
  by_cases hk : k = id
  · simp only [if_pos hk, if_pos hk.symm]
    rfl
  · simp only [if_neg hk, if_neg (Ne.symm hk)]
    exact Option.map_id'.symm

/-- The activation of one portal, if there is such a portal, is started or ended. -/
theorem get?_switched {active : Bool} (hnone : r.get? k = none → s = r)
    (hsome : ∀ p, r.get? k = some p → if p.isActivated = active then s = r
      else s.portals = r.portals.insert k (p.switch r.worlds active r.regions).1) :
    s.get? id =
      (r.get? id).map fun p => if k = id then (p.switch r.worlds active r.regions).1 else p := by
  cases hp : r.get? k with
  | none =>
    rw [hnone hp]
    exact get?_eq_map fun q hq => by rw [hp] at hq; cases hq
  | some p =>
    have hs := hsome p hp
    split at hs
    · next ha =>
      rw [hs]
      refine get?_eq_map fun q hq => ?_
      obtain rfl : p = q := Option.some.inj (hp.symm.trans hq)
      cases active <;> simp [switch, ha]
    · rw [get?, hs]
      exact get?_insert_eq_map (f := fun p => (p.switch r.worlds active r.regions).1) hp

theorem get?_activate : (r.activate k).get? id =
    (r.get? id).map fun p => if k = id then (p.switch r.worlds true r.regions).1 else p := by
  refine get?_switched (fun hp => by rw [Registry.activate, hp]) fun p hp => ?_
  rw [Registry.activate, hp]
  cases ha : p.isActivated <;> simp [switch, ha]

theorem get?_deactivate : (r.deactivate k).get? id =
    (r.get? id).map fun p => if k = id then (p.switch r.worlds false r.regions).1 else p := by
  refine get?_switched (fun hp => by rw [Registry.deactivate, hp]) fun p hp => ?_
  rw [Registry.deactivate, hp]
  cases ha : p.isActivated <;> simp [switch, ha]

theorem heeds_observe {range : ActivationRange} {observers : List Observer} :
    r.Heeds id (r.calls id (.observe range observers)) (r.observe range observers).1 := by
  intro q hq
  rw [get?_observe] at hq
  obtain ⟨p, hp, rfl⟩ := Option.map_eq_some_iff.1 hq
  refine ⟨p, hp, ?_⟩
  simp only [settle, clocks_settle, calls, hp]
  generalize r.observed p observers range.activation = active
  generalize r.observed p (observers.filter (·.seesThrough)) range.view = view
  exact ⟨rfl, by cases active <;> cases view <;> decide⟩

/-- A tick that finds a portal broken takes it out. -/
theorem isValid_of_update (hr : r.Keyed) (hp : r.get? id = some p)
    (hq : r.update.2.get? id = some q) : p.isValid r.worlds = true := by
  by_contra hbroken
  have hmem : p ∈ r.broken :=
    List.mem_filter.2 ⟨mem_all_iff.2 ⟨id, hp⟩, by simpa using hbroken⟩
  have hgone := (swept_update hr).2.gone p.id (id_mem_goes hr hmem)
  rw [hr id p hp, hq] at hgone
  cases hgone

theorem heeds_update (hr : r.Keyed) : r.Heeds id [.update true] r.update.2 := by
  intro q hq
  obtain ⟨o, ho, hclocks⟩ := (swept_update hr).2.keeps id q hq
  rw [get?_ticked] at ho
  obtain ⟨p, hp, rfl⟩ := Option.map_eq_some_iff.1 ho
  exact ⟨p, hp, hclocks.trans (clocks_updatePortal (isValid_of_update hr hp hq)), by decide⟩

theorem heeds_rename {fresh : Uuid} {name : Option String}
    (hb : r.brings id (.rename k name fresh) = false) :
    r.Heeds id [] (r.after (.rename k name fresh)) := by
  have hsame : r.Heeds id [] r := Keeps.refl.heeds
  cases hp : r.get? k with
  | none =>
    rw [after, rename_of_get?_eq_none hp]
    exact hsame
  | some p =>
    rw [brings, hp, Option.any_some, RenameKind.classify_eq] at hb
    rw [after, rename_of_get? hp]
    by_cases hreserved : RenameKind.Reserved p.name ∨ RenameKind.Reserved name
    · have hne : fresh ≠ id := by simpa [hreserved] using hb
      rw [if_pos hreserved]
      intro q hq
      exact cut_take.keeps.heeds q ((Table.get?_insert.trans (if_neg hne)).symm.trans hq)
    · rw [if_neg hreserved]
      cases p.isAutoSpawned with
      | true => exact hsame
      | false => exact (keeps_insert (q := { p with name }) hp rfl).heeds

/-- The clocks of a portal change by just what an event calls on it for. -/
theorem heeds_after (hr : r.Keyed) (hb : r.brings id e = false) :
    r.Heeds id (r.calls id e) (r.after e) := by
  cases e with
  | register p _ =>
    have hne : p.id ≠ id := by simpa [brings] using hb
    exact fun q hq => Keeps.refl.heeds q ((Table.get?_insert.trans (if_neg hne)).symm.trans hq)
  | remove k otherDirection => exact (keeps_remove hr).heeds
  | removeAt l => exact (cut_removeAt hr).keeps.heeds
  | removeNearest l otherDirection => exact (keeps_removeNearest hr).heeds
  | removeNamed name => exact (removeNamed_exact hr).2.keeps.heeds
  | rename k name fresh => exact heeds_rename hb
  | setAllowsNonPlayers k allow => exact keeps_setAllowsNonPlayers.heeds
  | activate k => exact heeds_of_map get?_activate (fun p => clocks_switch) (by decide)
  | deactivate k => exact heeds_of_map get?_deactivate (fun p => clocks_switch) (by decide)
  | viewActivate k =>
    refine heeds_of_map get?_modify_eq_map (fun p => ?_) (by decide)
    cases hv : p.viewTicks <;>
      simp [isViewActive, Clocks.next, Portal.clocks, Portal.viewActivate, hv]
  | viewDeactivate k => exact heeds_of_map get?_modify_eq_map (fun p => rfl) (by decide)
  | observe range observers => exact heeds_observe
  | update =>
    intro q hq
    obtain ⟨p, hp, hclocks⟩ := heeds_update hr q hq
    refine ⟨p, hp, ?_⟩
    rw [calls, hp, Option.any_some, isValid_of_update hr hp hq]
    exact hclocks
  | look origins dests => exact keeps_look.heeds
  | pair p => exact keeps_resolvePair.heeds
  | host worlds => exact Keeps.heeds fun k p hp => ⟨p, hp, rfl⟩

end heeds

section run

variable {h : List Call}

/-- A portal that comes in has its clocks at rest. -/
theorem idle_of_brings (hb : r.brings id e = true) (hidle : ∀ p ∈ e.registered, p.Idle)
    (hq : (r.after e).get? id = some q) : q.Idle := by
  cases e with
  | register p _ =>
    have hid : p.id = id := by simpa [brings] using hb
    obtain rfl : p = q :=
      Option.some.inj ((Table.get?_insert.trans (if_pos hid)).symm.trans hq)
    exact hidle p List.mem_cons_self
  | rename k name fresh =>
    simp only [brings, Bool.and_eq_true, decide_eq_true_eq, Option.any_eq_true] at hb
    obtain ⟨hid, p, hp, hclass⟩ := hb
    rw [RenameKind.classify_eq] at hclass
    have hreserved : RenameKind.Reserved p.name ∨ RenameKind.Reserved name := by
      by_contra hplain
      rw [if_neg hplain] at hclass
      cases hclass
    rw [after, rename_of_get? hp, if_pos hreserved] at hq
    obtain rfl : p.replacement fresh name = q :=
      Option.some.inj ((Table.get?_insert.trans (if_pos hid)).symm.trans hq)
    exact idle_replacement
  | _ => cases hb

/-- The invariant of a run: a portal shows what it was called for, and it was never found broken. -/
def Shows (r : Registry) (id : Uuid) (h : List Call) : Prop :=
  ∀ p, r.get? id = some p → p.clocks = .after h ∧ .update false ∉ h

theorem Shows.after (hr : r.Keyed) (hs : r.Shows id h) (hidle : ∀ p ∈ e.registered, p.Idle) :
    (r.after e).Shows id (if r.brings id e then [] else h ++ r.calls id e) := by
  intro q hq
  cases hb : r.brings id e with
  | true => exact ⟨(idle_of_brings hb hidle hq).clocks, List.not_mem_nil⟩
  | false =>
    obtain ⟨p, hp, hclocks, hcalls⟩ := heeds_after hr hb q hq
    obtain ⟨hshows, hvalid⟩ := hs p hp
    rw [hclocks, hshows]
    exact ⟨Clocks.after_append.symm, mt List.mem_append.1 (not_or_intro hvalid hcalls)⟩

theorem Shows.run (hr : r.Accounted) (hs : r.Shows id h)
    (hidle : ∀ p ∈ es.flatMap Event.registered, p.Idle) :
    (r.run es).Shows id (r.history id h es) := by
  -- of the accounts only that portals stand under their own ids is needed
  induction es generalizing r h with
  | nil => exact hs
  | cons e es ih =>
    rw [List.flatMap_cons, List.forall_mem_append] at hidle
    exact ih (hr.of_change change_after) (hs.after hr.keyed hidle.1) hidle.2

/-- A tick takes out only broken portals and those that they lead to. -/
theorem exists_broken_of_lost (hr : r.Keyed) (hp : r.get? id = some p)
    (hlost : r.update.2.get? id = none) : ∃ q ∈ r.broken, q = p ∨ r.leads q p = true := by
  obtain ⟨q, hq, hmem⟩ : id ∈ r.goes (r.acting [] r.broken) := by
    by_contra hstays
    rw [(swept_update hr).2.kept id hstays, get?_ticked, hp] at hlost
    cases hlost
  refine ⟨q, mem_of_acting hq, ?_⟩
  rcases hmem with hid | ⟨o, ho, hleads⟩
  · have hget : r.get? id = some q := hid ▸ hr.get?_of_mem (List.mem_filter.1 (mem_of_acting hq)).1
    exact .inl (Option.some.inj (hget.symm.trans hp))
  · obtain rfl : o = p := Option.some.inj (ho.symm.trans hp)
    exact .inr hleads

theorem clockReading_eq_neg_one_iff {ticks : Option Nat} :
    clockReading ticks = -1 ↔ ticks.isSome = false := by
  cases ticks <;> simp [clockReading]

/-- In every run each registered portal shows what it was called for since it came in. The clock of
its activation reads minus one just while it is not activated, and else the number of ticks since
the activation that found it valid. The clock of the view reads minus one just while nobody looks
through, and else the number of ticks since someone started to. The pictures are those of the ticks
since an activation last ended at which the view clock read a multiple of twenty, so `n` ticks in a
row from the start of a view add `n / 20`, rounded up; the last of them gives the last reading. None
of these numbers exceeds the number of ticks, so that they fit where that does. No tick found the
portal broken. No call takes the portal out, and a tick only if it is broken or a broken one leads
to it. -/
theorem clocks_follow_run (ws : Worlds) (es : List Event)
    (hidle : ∀ p ∈ es.flatMap Event.registered, p.Idle)
    (hp : (run { worlds := ws } es).get? id = some p) :
    let r := run { worlds := ws } es
    let h := history { worlds := ws } id [] es
    (clockReading p.activeTicks = -1 ↔ p.isActivated = false) ∧
    p.activeTicks = (Call.since? .activate .deactivate h).map (·.count (.update true)) ∧
    (clockReading p.viewTicks = -1 ↔ p.isViewActive = false) ∧
    p.viewTicks = (Call.since? .viewActivate .viewDeactivate h).map (·.countP Call.isUpdate) ∧
    p.refreshes = (Call.pictures h).length ∧ p.lastRefresh = (Call.pictures h).getLast? ∧
    (∀ before since, h = before ++ .viewActivate :: since → Call.viewTicks? before = none →
      .viewDeactivate ∉ since → .deactivate ∉ since →
      p.refreshes = (Call.pictures before).length + (since.countP Call.isUpdate + 19) / 20) ∧
    p.clocks.Within (h.countP Call.isUpdate) ∧ .update false ∉ h ∧
    (∀ k, ((r.activate k).get? id).isSome ∧ ((r.deactivate k).get? id).isSome ∧
      ((r.viewActivate k).get? id).isSome ∧ ((r.viewDeactivate k).get? id).isSome) ∧
    (r.update.2.get? id = none → ∃ q ∈ r.broken, q = p ∨ r.leads q p = true) := by
  intro r h
  have hstart : Shows { worlds := ws } id [] := by rintro _ ⟨⟩
  obtain ⟨hshows, hvalid⟩ := hstart.run .empty hidle p hp
  have hkeyed : r.Keyed := (accounted_run ws es).keyed
  have hfields := hshows
  simp only [Portal.clocks, Clocks.after, Clocks.mk.injEq] at hfields
  obtain ⟨hactive, hview, hrefreshes, hlast⟩ := hfields
  refine ⟨clockReading_eq_neg_one_iff, hactive, clockReading_eq_neg_one_iff, hview, hrefreshes,
    hlast, ?_, hshows ▸ Clocks.within_after, hvalid, ?_, exists_broken_of_lost hkeyed hp⟩
  · intro before since hsplit hoff hon hend
    have hadd := Clocks.refreshes_after hoff hon hend
    rw [← hsplit] at hadd
    exact hrefreshes.trans hadd
  · intro k
    have hkept : ∀ {s : Registry} {f : Portal → Portal},
        s.get? id = (r.get? id).map f → (s.get? id).isSome = true := by
      intro s f hs
      rw [hs, hp]
      rfl
    exact ⟨hkept get?_activate, hkept get?_deactivate, hkept get?_modify_eq_map,
      hkept get?_modify_eq_map⟩

end run

end Registry

namespace Sample

def archway : Portal :=
  Registry.linkedPortal {} ⟨.replicate 16 5⟩ (.ofLocation here .north) (.ofLocation there .east)
    ⟨(2 : Int), (3 : Int)⟩

/-- Someone looks through all the time, and is near enough in between, when the view clock reads 21
to 23, and in the end. -/
def watched : List Registry.Event :=
  List.flatten [
    [.register archway rfl, .viewActivate archway.id], List.replicate 21 .update,
    [.activate archway.id, .update, .activate archway.id, .update, .deactivate archway.id],
    List.replicate 18 .update,
    [.deactivate archway.id, .viewActivate archway.id, .activate archway.id, .update]]

end Sample

open Sample in
theorem archway_watched :
    (∀ p ∈ watched.flatMap Registry.Event.registered, p.Idle) ∧
    ∃ p, (Registry.run { worlds := worlds.load world } watched).get? archway.id = some p ∧
      p.activeTicks = some 1 ∧ p.viewTicks = some 42 ∧ p.refreshes = 1 ∧
      p.lastRefresh = some 40 := by
  have hidle : ∀ p ∈ watched.flatMap Registry.Event.registered, p.Idle := by
    have hregistered : watched.flatMap Registry.Event.registered = [archway] := by decide +kernel
    rw [hregistered]
    exact List.forall_mem_singleton.2 Portal.idle_linkedPortal
  obtain ⟨p, hp⟩ : ∃ p,
      (Registry.run { worlds := worlds.load world } watched).get? archway.id = some p :=
    Option.isSome_iff_exists.1 (by decide +kernel)
  obtain ⟨-, hactive, -, hview, hrefreshes, hlast, -⟩ :=
    Registry.clocks_follow_run (worlds.load world) watched hidle hp
  refine ⟨hidle, p, hp, ?_, ?_, ?_, ?_⟩
  · rw [hactive]
    decide +kernel
  · rw [hview]
    decide +kernel
  · rw [hrefreshes]
    decide +kernel
  · rw [hlast]
    decide +kernel

end PortalNet
