import Mathlib.Data.List.DropRight
import Mathlib.Data.List.Induction
import Mathlib.Data.List.Infix
import PortalNet.Registry.Basic

/-! # The clocks of a portal

What a portal has to show of its activities is read off the calls that it got: each clock counts the
ticks since the call that switched its activity on, and pictures are kept since an activation last
ended. With one more call this changes just as each operation of a portal changes what it shows.
-/

namespace PortalNet

namespace Portal

/-- What moves the clocks of a portal. A tick finds the portal valid or not. -/
inductive Call where
  | activate
  | deactivate
  | viewActivate
  | viewDeactivate
  | update (valid : Bool)
  deriving DecidableEq

namespace Call

def isUpdate : Call → Bool
  | update _ => true
  | _ => false

/-- The calls since something was switched on, if it is on. To switch on what is on already, or off
what is off, is not to switch. -/
def since? (on off : Call) (h : List Call) : Option (List Call) :=
  ((h.rtakeWhile (· ≠ off)).dropWhile (· ≠ on)).tail?

/-- The ticks since the activation that found the portal valid. -/
def activeTicks? (h : List Call) : Option Nat :=
  (since? activate deactivate h).map (·.count (update true))

/-- The ticks since someone started to look through. -/
def viewTicks? (h : List Call) : Option Nat :=
  (since? viewActivate viewDeactivate h).map (·.countP isUpdate)

/-- Each call with those before it. -/
def moments (h : List Call) : List (List Call × Call) :=
  h.inits.zip h

/-- An activation ends here. -/
def isEnd (m : List Call × Call) : Bool :=
  m.2 = deactivate && (activeTicks? m.1).isSome

/-- What the view clock shows if a picture is taken here. -/
def pictured? (m : List Call × Call) : Option Nat :=
  if m.2.isUpdate then (viewTicks? m.1).filter (20 ∣ ·) else none

/-- What the view clock showed for each picture since the last activation ended. -/
def pictures (h : List Call) : List Nat :=
  ((moments h).rtakeWhile (!isEnd ·)).filterMap pictured?

end Call

/-- What a portal shows of its activities. -/
structure Clocks where
  activeTicks : Option Nat := none
  viewTicks : Option Nat := none
  refreshes : Nat := 0
  lastRefresh : Option Nat := none
  deriving DecidableEq

def clocks (p : Portal) : Clocks :=
  ⟨p.activeTicks, p.viewTicks, p.refreshes, p.lastRefresh⟩

namespace Clocks

open Call

/-- What there is to show after these calls. -/
def after (h : List Call) : Clocks where
  activeTicks := activeTicks? h
  viewTicks := viewTicks? h
  refreshes := (pictures h).length
  lastRefresh := (pictures h).getLast?

/-- What the view clock shows if the next tick takes a picture. -/
def due (k : Clocks) : Option Nat :=
  k.viewTicks.filter (20 ∣ ·)

/-- What one more call makes of the clocks. -/
def next (k : Clocks) : Call → Clocks
  | .activate => { k with activeTicks := k.activeTicks.or (some 0) }
  | .deactivate =>
    if k.activeTicks.isSome then
      { k with activeTicks := none, refreshes := 0, lastRefresh := none }
    else k
  | .viewActivate => { k with viewTicks := k.viewTicks.or (some 0) }
  | .viewDeactivate => { k with viewTicks := none }
  | .update valid => {
      activeTicks := if valid then k.activeTicks.map (· + 1) else k.activeTicks
      viewTicks := k.viewTicks.map (· + 1)
      refreshes := k.refreshes + k.due.toList.length
      lastRefresh := k.due.or k.lastRefresh }

end Clocks

section history

open Call

variable {on off c : Call} {h before since : List Call}

theorem since?_concat : since? on off (h ++ [c]) =
    if c = off then none
    else ((since? on off h).map (· ++ [c])).or (if c = on then some [] else none) := by
  unfold since?
  by_cases hoff : c = off
  · simp [hoff]
  · rw [List.rtakeWhile_concat_pos _ _ _ (by simpa using hoff), List.dropWhile_append, if_neg hoff]
    cases (h.rtakeWhile (· ≠ off)).dropWhile (· ≠ on) with
    | nil => by_cases hon : c = on <;> simp [hon]
    | cons d l => simp

/-- Something is on since a call that found it off, if no call has switched it off from then on. -/
theorem since?_eq_some_iff (hne : on ≠ off) : since? on off h = some since ↔
    ∃ before, h = before ++ on :: since ∧ since? on off before = none ∧ off ∉ since := by
  induction h using List.reverseRecOn generalizing since with
  | nil => simp [since?]
  | append_singleton h c ih =>
    rw [since?_concat]
    constructor
    · intro hs
      split at hs
      · cases hs
      · next hoff =>
        cases hl : since? on off h with
        | some l =>
          obtain rfl : l ++ [c] = since := by simpa [hl] using hs
          obtain ⟨before, rfl, hbefore, hl⟩ := ih.1 hl
          exact ⟨before, by simp, hbefore, by simp [hl, Ne.symm hoff]⟩
        | none =>
          obtain ⟨rfl, rfl⟩ : c = on ∧ [] = since := by simpa [hl] using hs
          exact ⟨h, rfl, hl, List.not_mem_nil⟩
    · rintro ⟨before, heq, hbefore, hsince⟩
      rcases List.eq_nil_or_concat' since with rfl | ⟨l, d, rfl⟩
      · obtain ⟨rfl, hc⟩ := List.append_inj' heq rfl
        obtain rfl := List.singleton_inj.1 hc
        simp [hne, hbefore]
      · rw [← List.cons_append, ← List.append_assoc] at heq
        obtain ⟨rfl, hc⟩ := List.append_inj' heq rfl
        obtain rfl := List.singleton_inj.1 hc
        obtain ⟨hl, hc⟩ : off ∉ l ∧ off ≠ c := by simpa using hsince
        rw [ih.2 ⟨before, rfl, hbefore, hl⟩, if_neg (Ne.symm hc)]
        rfl

theorem moments_concat : moments (h ++ [c]) = moments h ++ [(h, c)] := by
  have hinits : ∀ (l : List Call) a, (l ++ [a]).inits = l.inits ++ [l ++ [a]] := by
    simp [List.inits_append]
  rcases List.eq_nil_or_concat' h with rfl | ⟨l, a, rfl⟩
  · rfl
  · -- the pairing leaves out the last of the beginnings, which is the whole list
    have hlength : l.inits.length = (l ++ [a]).length := by simp
    have hbefore : moments (l ++ [a]) = l.inits.zip (l ++ [a]) := by
      have hzip : (l.inits ++ [l ++ [a]]).zip ((l ++ [a]) ++ []) = _ := List.zip_append hlength
      rw [moments, hinits]
      simpa using hzip
    rw [hbefore, moments, hinits, hinits, List.append_assoc, List.zip_append hlength]
    rfl

theorem pictures_concat : pictures (h ++ [c]) =
    if isEnd (h, c) then [] else pictures h ++ (pictured? (h, c)).toList := by
  rw [pictures, moments_concat, List.rtakeWhile_concat]
  cases isEnd (h, c) with
  | true => rfl
  | false => cases hc : pictured? (h, c) <;> simp [hc, pictures]

theorem activeTicks?_concat :
    activeTicks? (h ++ [c]) = ((Clocks.after h).next c).activeTicks := by
  have hback : (Clocks.after h).activeTicks = activeTicks? h := rfl
  rw [activeTicks?, since?_concat]
  rcases c with _ | _ | _ | _ | (_ | _) <;> cases hs : since? .activate .deactivate h <;>
    simp [Clocks.next, hback, activeTicks?, hs]

theorem viewTicks?_concat : viewTicks? (h ++ [c]) = ((Clocks.after h).next c).viewTicks := by
  have hback : (Clocks.after h).viewTicks = viewTicks? h := rfl
  rw [viewTicks?, since?_concat]
  cases c <;> cases hs : since? .viewActivate .viewDeactivate h <;>
    simp [Clocks.next, hback, viewTicks?, hs, isUpdate, apply_ite]

/-- The clocks go on from what they show. -/
theorem Clocks.after_concat : Clocks.after (h ++ [c]) = (Clocks.after h).next c := by
  rw [Clocks.after, activeTicks?_concat, viewTicks?_concat, pictures_concat]
  cases c with
  | update valid =>
    have hdue : pictured? (h, .update valid) = (Clocks.after h).due := rfl
    rw [hdue, Clocks.next]
    cases (Clocks.after h).due <;> simp [Clocks.after, isEnd]
  | deactivate =>
    cases ha : activeTicks? h <;>
      simp [Clocks.next, Clocks.after, isEnd, pictured?, isUpdate, ha]
  | _ => simp [Clocks.next, Clocks.after, isEnd, pictured?, isUpdate]

theorem Clocks.after_append {cs : List Call} :
    Clocks.after (h ++ cs) = cs.foldl Clocks.next (Clocks.after h) := by
  induction cs generalizing h with
  | nil => rw [List.append_nil, List.foldl_nil]
  | cons c cs ih => rw [List.append_cons, ih, after_concat, List.foldl_cons]

/-- No clock shows more than there were ticks. -/
structure Clocks.Within (k : Clocks) (n : Nat) : Prop where
  activeTicks : ∀ t ∈ k.activeTicks, t ≤ n
  viewTicks : ∀ t ∈ k.viewTicks, t ≤ n
  refreshes : k.refreshes ≤ n
  lastRefresh : ∀ t ∈ k.lastRefresh, t < n

theorem Clocks.Within.next {k : Clocks} {n : Nat} (h : k.Within n) :
    (k.next c).Within (n + if c.isUpdate then 1 else 0) := by
  obtain ⟨hactive, hview, hrefreshes, hlast⟩ := h
  have hstart : ∀ o : Option Nat, (∀ t ∈ o, t ≤ n) → ∀ t ∈ o.or (some 0), t ≤ n := by
    intro o ho t ht
    rcases Option.or_eq_some_iff.1 ht with ht | ⟨-, ht⟩
    · exact ho t ht
    · cases ht
      exact Nat.zero_le _
  have hgoOn : ∀ o : Option Nat, (∀ t ∈ o, t ≤ n) → ∀ t ∈ o.map (· + 1), t ≤ n + 1 := by
    intro o ho t ht
    obtain ⟨u, hu, rfl⟩ := Option.map_eq_some_iff.1 ht
    exact Nat.succ_le_succ (ho u hu)
  cases c with
  | activate => exact ⟨hstart _ hactive, hview, hrefreshes, hlast⟩
  | deactivate =>
    rw [Clocks.next]
    split
    · exact ⟨by rintro _ ⟨⟩, hview, Nat.zero_le _, by rintro _ ⟨⟩⟩
    · exact ⟨hactive, hview, hrefreshes, hlast⟩
  | viewActivate => exact ⟨hactive, hstart _ hview, hrefreshes, hlast⟩
  | viewDeactivate => exact ⟨hactive, by rintro _ ⟨⟩, hrefreshes, hlast⟩
  | update valid =>
    have hdue : ∀ t ∈ k.due, t < n + 1 := fun t ht =>
      Nat.lt_succ_of_le (hview t (Option.mem_filter_iff.1 ht).1)
    have hone : k.due.toList.length ≤ 1 := by cases k.due <;> simp
    refine ⟨?_, hgoOn _ hview, Nat.add_le_add hrefreshes hone, ?_⟩
    · cases valid with
      | true => exact hgoOn _ hactive
      | false => exact fun t ht => Nat.le_succ_of_le (hactive t ht)
    · intro t ht
      rcases Option.or_eq_some_iff.1 ht with ht | ⟨-, ht⟩
      · exact hdue t ht
      · exact Nat.lt_succ_of_lt (hlast t ht)

theorem Clocks.within_after : (Clocks.after h).Within (h.countP isUpdate) := by
  induction h using List.reverseRecOn with
  | nil => constructor <;> simp [Clocks.after, activeTicks?, viewTicks?, since?, pictures, moments]
  | append_singleton h c ih =>
    rw [after_concat, List.countP_append, List.countP_singleton]
    exact ih.next

/-- Whoever looks through from some moment on, while no activation ends, takes a picture at every
twentieth tick. -/
theorem Clocks.refreshes_after (hoff : viewTicks? before = none) (hview : .viewDeactivate ∉ since)
    (hend : .deactivate ∉ since) :
    (Clocks.after (before ++ .viewActivate :: since)).refreshes =
      (Clocks.after before).refreshes + (since.countP isUpdate + 19) / 20 := by
  induction since using List.reverseRecOn with
  | nil => simp [after_concat, Clocks.next]
  | append_singleton since c ih =>
    simp only [List.mem_append, List.mem_singleton, not_or] at hview hend
    have hr := ih hview.1 hend.1
    have ht : (Clocks.after (before ++ .viewActivate :: since)).viewTicks =
        some (since.countP isUpdate) := by
      have hsince := (since?_eq_some_iff (by decide)).2
        ⟨before, rfl, Option.map_eq_none_iff.1 hoff, hview.1⟩
      exact congrArg (Option.map (·.countP isUpdate)) hsince
    rw [← List.cons_append, ← List.append_assoc, after_concat, List.countP_append,
      List.countP_singleton]
    generalize Clocks.after (before ++ .viewActivate :: since) = k at ht hr
    cases c with
    | update valid =>
      -- the next picture is due when the number of ticks before is a multiple of twenty
      generalize since.countP isUpdate = n at ht hr
      have hpictures : (k.due.toList).length = if 20 ∣ n then 1 else 0 := by
        rw [Clocks.due, ht]
        by_cases hn : 20 ∣ n <;> simp [hn]
      have hstep : (if 20 ∣ n then 1 else 0) + (n + 19) / 20 = (n + 1 + 19) / 20 := by
        split <;> omega
      rw [Clocks.next, hpictures, hr, Nat.add_assoc, Nat.add_comm (_ / 20), hstep]
      rfl
    | deactivate => exact absurd rfl hend.2
    | viewDeactivate => exact absurd rfl hview.2
    | _ => simp [Clocks.next, hr, isUpdate]

end history

section operations

variable {p : Portal} {ws : Worlds} {g : Regions}

theorem clocks_resolveOrigin : (p.resolveOrigin ws).clocks = p.clocks := rfl

theorem clocks_inspected : (p.inspected ws).clocks = p.clocks := by
  unfold inspected
  repeat' split
  all_goals rfl

theorem clocks_activate : (p.activate ws g).1.clocks = { p.clocks with activeTicks := some 0 } := by
  simp only [activate]
  repeat' split
  all_goals rfl

theorem clocks_update (h : p.isValid ws = true) :
    (p.update ws).clocks = { p.clocks with activeTicks := p.activeTicks.map (· + 1) } := by
  have hsame : (p.inspected ws).clocks = p.clocks := clocks_inspected
  simp only [clocks, Clocks.mk.injEq] at hsame
  simp [update, clocks, h, hsame]

theorem clocks_viewUpdate : p.viewUpdate.clocks =
    { p.clocks with
      viewTicks := p.viewTicks.map (· + 1)
      refreshes := p.refreshes + p.clocks.due.toList.length
      lastRefresh := p.clocks.due.or p.lastRefresh } := by
  have hdue : p.clocks.due = p.viewTicks.filter (20 ∣ ·) := rfl
  rw [hdue, viewUpdate]
  cases ht : p.viewTicks with
  | none => simp [clocks, ht]
  | some t =>
    by_cases h : t % refreshInterval = 0
    · have hdvd : 20 ∣ t := Nat.dvd_of_mod_eq_zero h
      simp [clocks, h, Option.filter, hdvd]
    · have hdvd : ¬ 20 ∣ t := fun hd => h (Nat.mod_eq_zero_of_dvd hd)
      simp [clocks, h, Option.filter, hdvd]

/-- A tick that finds the portal valid. -/
theorem clocks_updatePortal (h : p.isValid ws = true) :
    (Registry.updatePortal ws p).clocks = p.clocks.next (.update true) := by
  have hupdate : (p.update ws).clocks = _ := clocks_update h
  simp only [clocks, Clocks.mk.injEq] at hupdate
  obtain ⟨hactive, hview, hrefreshes, hlast⟩ := hupdate
  rw [Registry.updatePortal, if_pos h, clocks_viewUpdate]
  simp [Clocks.next, Clocks.due, clocks, hactive, hview, hrefreshes, hlast]

end operations

end Portal

end PortalNet
