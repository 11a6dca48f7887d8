import Mathlib.Data.List.Induction
import PortalNet.Selection

/-! # Picking the ends of a link

A player sets corners over and over, and now and then picks the window between them for an end of a
link. Only a window that is accepted can be picked, and it stays picked as it was at that time,
whatever becomes of the corners.
-/

namespace PortalNet

inductive LinkEnd where
  | origin
  | destination
  deriving DecidableEq

/-- What can happen to what a player has selected. -/
inductive SelectionEvent where
  | corner (first : Bool) (corner : Corner)
  | pick (which : LinkEnd)
  | mirror (selection : ExternalSelection)

namespace SelectionEvent

def corner? (first : Bool) : SelectionEvent → Option Corner
  | corner side c => if side = first then some c else none
  | _ => none

def selection? : SelectionEvent → Option ExternalSelection
  | mirror selection => some selection
  | _ => none

end SelectionEvent

/-- The window can be picked. -/
def Selection.Accepted (s : Selection) : Prop :=
  ∃ b, s.bounds = .ok b

namespace Selections

def end? (l : Selections) : LinkEnd → Option Selection
  | .origin => l.origin
  | .destination => l.destination

def pick (l : Selections) : LinkEnd → Except PortalError Unit × Selections
  | .origin => l.selectOrigin
  | .destination => l.selectDestination

def after (l : Selections) : SelectionEvent → Selections
  | .corner first corner => l.setCorner first corner
  | .pick which => (l.pick which).2
  | .mirror selection => { l with external := some selection }

def run (l : Selections) (es : List SelectionEvent) : Selections :=
  es.foldl after l

/-- The window between the corners that were set last. -/
def corners (es : List SelectionEvent) : Selection where
  a := (es.filterMap (SelectionEvent.corner? true)).getLast?
  b := (es.filterMap (SelectionEvent.corner? false)).getLast?

/-- The window that there was when an end was picked for the last time, not counting the times when
it was not accepted. -/
def LastPick (which : LinkEnd) (es : List SelectionEvent) (d : Selection) : Prop :=
  ∃ before later, es = before ++ .pick which :: later ∧ d = corners before ∧ d.Accepted ∧
    ∀ between rest, later = between ++ .pick which :: rest →
      ¬ (corners (before ++ .pick which :: between)).Accepted

variable {l : Selections} {es : List SelectionEvent} {e : SelectionEvent} {which : LinkEnd}
  {d : Selection}

theorem run_append_singleton : l.run (es ++ [e]) = (l.run es).after e :=
  List.foldl_append ..

theorem pick_of_accepted {b : Bounds} (h : l.current.bounds = .ok b) :
    l.pick which = (.ok (), match which with
      | .origin => { l with origin := l.current }
      | .destination => { l with destination := l.current }) := by
  cases which <;> simp only [pick, selectOrigin, selectDestination, h] <;> rfl

/-- A window that is not accepted is not picked. -/
theorem pick_of_refused {error : PortalError} (h : l.current.bounds = .error error) :
    l.pick which = (.error error, l) := by
  cases which <;> simp only [pick, selectOrigin, selectDestination, h] <;> rfl

/-- What is picked is the window between the corners as they are. -/
theorem end?_after_pick (h : l.current.Accepted) :
    (l.after (.pick which)).end? which = some l.current := by
  obtain ⟨b, hb⟩ := h
  rw [after, pick_of_accepted hb]
  cases which <;> rfl

theorem end?_after (h : ¬ (e = .pick which ∧ l.current.Accepted)) :
    (l.after e).end? which = l.end? which := by
  cases e with
  | corner | mirror => cases which <;> rfl
  | pick other =>
    cases hb : l.current.bounds with
    | error error => rw [after, pick_of_refused hb]
    | ok b =>
      have hne : other ≠ which := by
        rintro rfl
        exact h ⟨rfl, b, hb⟩
      rw [after, pick_of_accepted hb]
      cases other <;> cases which <;> first | rfl | exact absurd rfl hne

theorem current_after_of_pick : (l.after (.pick which)).current = l.current := by
  cases hb : l.current.bounds with
  | error error => rw [after, pick_of_refused hb]
  | ok b =>
    rw [after, pick_of_accepted hb]
    cases which <;> rfl

theorem current_run : (run {} es).current = corners es := by
  induction es using List.reverseRecOn with
  | nil => rfl
  | append_singleton es e ih =>
    rw [run_append_singleton]
    unfold corners at ih ⊢
    simp only [List.filterMap_append, List.getLast?_append]
    cases e with
    | pick which => rw [current_after_of_pick, ih]; rfl
    | mirror selection => exact ih
    | corner first corner => cases first <;> simp [after, setCorner, ih, SelectionEvent.corner?]

theorem external_run :
    (run {} es).external = (es.filterMap SelectionEvent.selection?).getLast? := by
  induction es using List.reverseRecOn with
  | nil => rfl
  | append_singleton es e ih =>
    rw [run_append_singleton, List.filterMap_append, List.getLast?_append, ← ih]
    cases e with
    | corner | mirror => rfl
    | pick which =>
      cases hb : (run {} es).current.bounds with
      | error error => rw [after, pick_of_refused hb]; rfl
      | ok b =>
        rw [after, pick_of_accepted hb]
        cases which <;> rfl

/-- A pick in a longer history is the last event or comes before it. -/
theorem append_singleton_cases {before later : List SelectionEvent} {e' : SelectionEvent}
    (h : es ++ [e] = before ++ e' :: later) :
    before = es ∧ e' = e ∧ later = [] ∨
      ∃ later', later = later' ++ [e] ∧ es = before ++ e' :: later' := by
  rcases List.eq_nil_or_concat later with rfl | ⟨later', x, rfl⟩
  · obtain ⟨rfl, he⟩ := List.append_inj' h rfl
    exact .inl ⟨rfl, (List.singleton_inj.1 he).symm, rfl⟩
  · rw [List.concat_eq_append, ← List.cons_append, ← List.append_assoc] at h
    obtain ⟨rfl, he⟩ := List.append_inj' h rfl
    obtain rfl := List.singleton_inj.1 he
    exact .inr ⟨later', List.concat_eq_append, rfl⟩

/-- A pick that is accepted is the last one. -/
theorem lastPick_of_accepted (h : (corners es).Accepted) :
    LastPick which (es ++ [.pick which]) d ↔ d = corners es := by
  constructor
  · rintro ⟨before, later, hes, rfl, -, hlast⟩
    rcases append_singleton_cases hes with ⟨rfl, -, -⟩ | ⟨later', rfl, rfl⟩
    · rfl
    · exact absurd h (hlast later' [] rfl)
  · rintro rfl
    exact ⟨es, [], rfl, rfl, h, fun between rest hrest => absurd hrest (by simp)⟩

/-- What happens otherwise leaves the last pick the last one. -/
theorem lastPick_append_singleton (h : ¬ (e = .pick which ∧ (corners es).Accepted)) :
    LastPick which (es ++ [e]) d ↔ LastPick which es d := by
  constructor
  · rintro ⟨before, later, hes, rfl, haccepted, hlast⟩
    rcases append_singleton_cases hes with ⟨rfl, he, -⟩ | ⟨later', rfl, rfl⟩
    · exact absurd ⟨he.symm, haccepted⟩ h
    · refine ⟨before, later', rfl, rfl, haccepted, ?_⟩
      rintro between rest rfl
      exact hlast between (rest ++ [e]) (by simp)
  · rintro ⟨before, later, rfl, rfl, haccepted, hlast⟩
    refine ⟨before, later ++ [e], by simp, rfl, haccepted, ?_⟩
    intro between rest hlater
    rcases append_singleton_cases hlater with ⟨rfl, he, -⟩ | ⟨rest', rfl, rfl⟩
    · exact fun ha => h ⟨he.symm, ha⟩
    · exact hlast between rest' rfl

/-- An end is the window that was picked last. -/
theorem end?_run : (run {} es).end? which = some d ↔ LastPick which es d := by
  induction es using List.reverseRecOn with
  | nil =>
    refine iff_of_false (by cases which <;> simp [run, end?]) ?_
    rintro ⟨before, later, hes, -⟩
    exact absurd hes (by simp)
  | append_singleton es e ih =>
    rw [run_append_singleton]
    by_cases h : e = .pick which ∧ (corners es).Accepted
    · obtain ⟨rfl, haccepted⟩ := h
      rw [end?_after_pick (current_run ▸ haccepted), lastPick_of_accepted haccepted, current_run,
        Option.some.injEq, eq_comm]
    · rw [lastPick_append_singleton h, ← ih, end?_after (current_run ▸ h)]

theorem LastPick.accepted (h : LastPick which es d) : d.Accepted := by
  obtain ⟨before, later, -, -, haccepted, -⟩ := h
  exact haccepted

end Selections

end PortalNet
