import PortalNet.Proofs.Backend.Run
import PortalNet.Proofs.Selection.Picking
import PortalNet.Proofs.Geometry.Blocks
import PortalNet.Proofs.Session.Selected

/-! # The choice of a player

What a server answers about the destination of a player is the window that the player picked last,
by commands of their own that were accepted, if it can be measured in words. Corners that they set
since do not show in it, and neither do other players, other servers, or whether the player is
connected at all.
-/

namespace PortalNet

/-- The live sessions keep what their players have selected. -/
def StoreEvent.KeepsSelections : StoreEvent → Prop
  | .edit change => ∀ h x, (change h x).selections = x.selections
  | _ => True

/-- What can happen to a store while players give commands. -/
inductive StoreStep where
  | event (e : StoreEvent) (keeps : e.KeepsSelections)
  | command (handle : Handle) (command : Command) (registry : Registry) (fresh : Nat → Uuid)

/-- What a step comes to. -/
def StoreStep.toEvent : StoreStep → StoreEvent
  | event e _ => e
  | command handle given _ _ => .modify handle (·.obey given)

/-- What a command of the player does to what they have selected. -/
def Session.choice? (x : Session) : Command → Option SelectionEvent
  | .selectCorner first block => some (.corner first ⟨x.avatar.world, block⟩)
  | .selectOrigin => some (.pick .origin)
  | .selectDestination => some (.pick .destination)
  | _ => none

/-- The window between two corners in the form for another server. -/
def Corner.windowFor (a c : Corner) (server : String) : ExternalSelection :=
  let b := Bounds.around a.world a.block c.block
  ⟨.external ⟨b.heart, b.facing⟩ server a.world.name false, b.blocks⟩

namespace Selections

/-- What the player has selected here. -/
def own (l : Selections) : Selections :=
  { l with external := none }

variable {l : Selections} {e : SelectionEvent}

/-- A window that is accepted has its corners, and nobody turned it round. -/
theorem corners_of_accepted {es : List SelectionEvent} (h : (corners es).Accepted) :
    ∃ a c, corners es = { a := some a, b := some c } := by
  obtain ⟨b, hb⟩ := h
  obtain ⟨a, c, ha, hc⟩ := Selection.corners_of_bounds hb
  refine ⟨a, c, ?_⟩
  rw [← ha, ← hc]
  rfl

/-- The destination that was picked last is known to have a window, so it is answered if the window
can be measured in words. -/
theorem externalForm?_of_lastPick {es : List SelectionEvent} {server : String} {a c : Corner}
    (h : LastPick .destination es { a := some a, b := some c }) :
    (run {} es).externalForm? server =
      if (Bounds.around a.world a.block c.block).Fits then .ok (some (a.windowFor c server))
      else .error .overflow := by
  obtain ⟨b, hb⟩ := h.accepted
  obtain ⟨-, -, rfl⟩ := (Selection.bounds_eq_ok_iff rfl rfl).1 hb
  exact externalForm?_of_bounds (end?_run.2 h) hb

theorem LastPick.exists_corners {es : List SelectionEvent} {which : LinkEnd} {d : Selection}
    (h : LastPick which es d) : ∃ a c, d = { a := some a, b := some c } := by
  obtain ⟨before, later, -, rfl, haccepted, -⟩ := h
  exact corners_of_accepted haccepted

theorem externalForm?_eq_none_iff_lastPick {es : List SelectionEvent} {server : String} :
    (run {} es).externalForm? server = .ok none ↔ ∀ d, ¬ LastPick .destination es d := by
  constructor
  · intro hnone d hd
    obtain ⟨a, c, rfl⟩ := hd.exists_corners
    rw [externalForm?_of_lastPick hd] at hnone
    split at hnone <;> cases hnone
  · intro hpick
    cases hd : (run {} es).end? .destination with
    | none => exact externalForm?_of_none hd
    | some d => exact absurd (end?_run.1 hd) (hpick d)

/-- Nothing but the pick of a destination changes what is answered. -/
theorem externalForm?_after {es : List SelectionEvent} {server : String}
    (h : ¬ (e = .pick .destination ∧ (corners es).Accepted)) :
    (run {} (es ++ [e])).externalForm? server = (run {} es).externalForm? server := by
  have hd : (run {} (es ++ [e])).end? .destination = (run {} es).end? .destination := by
    rw [run_append_singleton]
    exact end?_after (current_run ▸ h)
  simp only [end?] at hd
  rw [externalForm?, externalForm?, hd]

theorem own_after (h : e.selection? = none) : (l.after e).own = l.own.after e := by
  cases e with
  | mirror selection => cases h
  | corner first corner => rfl
  | pick which =>
    have hcurrent : l.own.current = l.current := rfl
    cases hb : l.current.bounds with
    | error error =>
      rw [after, after, pick_of_refused hb, pick_of_refused (hcurrent ▸ hb)]
    | ok b =>
      rw [after, after, pick_of_accepted hb, pick_of_accepted (hcurrent ▸ hb)]
      cases which <;> rfl

theorem own_aimed {d : Option ExternalSelection} : (l.aimed d).own = l.own := by
  cases d <;> rfl

end Selections

theorem Session.own_choice (x : Session) (command : Command) :
    (x.obey command).selections.own = x.selections.own.run (x.choice? command).toList := by
  have hown : ∀ e : SelectionEvent, e.selection? = none → x.choice? command = some e →
      (x.obey command).selections = x.selections.after e →
      (x.obey command).selections.own = x.selections.own.run (x.choice? command).toList := by
    intro e hlocal he hobey
    rw [hobey, he, Selections.own_after hlocal]
    rfl
  cases command with
  | selectCorner | selectOrigin | selectDestination => exact hown _ rfl rfl rfl
  | _ => rfl

namespace Store

def advance (s : Store) : StoreStep → Store
  | .event e _ => s.after e
  | .command handle command r fresh => (command.execute s r handle fresh).store

def play (s : Store) (steps : List StoreStep) : Store :=
  steps.foldl advance s

def choiceOf (s : Store) (p : Uuid) : StoreStep → Option SelectionEvent
  | .event _ _ => none
  | .command handle command _ _ =>
    (s.session? handle).bind fun x => if x.player = p then x.choice? command else none

/-- What a player did to what they have selected. -/
def choices (s : Store) (p : Uuid) : List StoreStep → List SelectionEvent
  | [] => []
  | step :: steps => (s.choiceOf p step).toList ++ (s.advance step).choices p steps

/-- The player picks a destination with success. -/
def Redirects (s : Store) (p : Uuid) : StoreStep → Prop
  | .command handle .selectDestination r fresh =>
    (∃ x, s.session? handle = some x ∧ x.player = p) ∧
      ∃ message, (Command.selectDestination.execute s r handle fresh).result = .ok message
  | _ => False

variable {s : Store} {step : StoreStep} {steps later : List StoreStep} {p : Uuid} {server : String}

theorem advance_eq : s.advance step = s.after step.toEvent := by
  cases step with
  | event e keeps => rfl
  | command handle command r fresh =>
    exact (Command.execute_store ..).trans (after_modify (Session.kept_obey command)).symm

theorem play_eq : s.play steps = s.run (steps.map (·.toEvent)) := by
  induction steps generalizing s with
  | nil => rfl
  | cons step steps ih => exact ih.trans (congrArg (run · _) advance_eq)

theorem choices_append :
    s.choices p (steps ++ later) = s.choices p steps ++ (s.play steps).choices p later := by
  induction steps generalizing s with
  | nil => rfl
  | cons step steps ih =>
    rw [List.cons_append, choices, choices, ih, List.append_assoc]
    rfl

theorem Consistent.own_advance (hs : s.Consistent) :
    ((s.advance step).selectionsOf p).own =
      (s.selectionsOf p).own.run (s.choiceOf p step).toList := by
  cases step with
  | event e keeps =>
    have hleaves : s.Leaves p Selections.own e := by
      cases e with
      | mirror m => exact fun _ _ => Selections.own_aimed
      | edit change => exact fun x _ => congrArg Selections.own (keeps x.handle x)
      | _ => trivial
    exact hs.part_after hleaves
  | command handle command r fresh =>
    rw [advance, Command.execute_store, choiceOf]
    cases hx : s.session? handle with
    | none =>
      rw [modify_of_none hx]
      rfl
    | some x =>
      obtain rfl := hs.handle_eq handle x hx
      have hplayer : s.byPlayer? x.player = some x := hs.byPlayer?_eq_some_iff.2 ⟨hx, rfl⟩
      rw [selectionsOf, hs.presence_modify hplayer (Session.kept_obey command), Option.bind_some]
      by_cases hp : x.player = p
      · subst hp
        rw [if_pos rfl, if_pos rfl, selectionsOf_of_some hplayer]
        exact x.own_choice command
      · rw [if_neg hp, if_neg hp]
        rfl

/-- What a player has selected here is what their own commands make of it. -/
theorem Consistent.own_play (hs : s.Consistent) (hn : s.Lasts (steps.map (·.toEvent))) :
    ((s.play steps).selectionsOf p).own = (s.selectionsOf p).own.run (s.choices p steps) := by
  induction steps generalizing s with
  | nil => rfl
  | cons step steps ih =>
    obtain ⟨hs', hn', -⟩ := hs.lasts_cons hn
    rw [← advance_eq] at hs' hn'
    refine (ih hs' hn').trans ?_
    rw [hs.own_advance, choices]
    exact (List.foldl_append ..).symm

theorem Consistent.redirects (hs : s.Consistent)
    (h : s.choiceOf p step = some (.pick .destination))
    (haccepted : (s.selectionsOf p).current.Accepted) : s.Redirects p step := by
  cases step with
  | event => cases h
  | command handle command r fresh =>
    obtain ⟨x, hx, h⟩ := Option.bind_eq_some_iff.1 h
    split at h
    · next hp =>
      cases command with
      | selectDestination =>
        obtain rfl := hs.handle_eq handle x hx
        rw [selectionsOf_of_some (hs.byPlayer?_eq_some_iff.2 ⟨hx, hp⟩)] at haccepted
        obtain ⟨b, hb⟩ := haccepted
        refine ⟨⟨x, hx, hp⟩, "Destination selected", ?_⟩
        simp only [Command.execute, hx, Selections.selectDestination, hb, Command.select]
        rfl
      | _ => cases h
    · cases h

section runs

variable {capacity : Nat} (hn : (empty capacity).Lasts (steps.map (·.toEvent)))

include hn

theorem consistent_play : ((empty capacity).play steps).Consistent := by
  rw [play_eq]
  exact ((Consistent.empty capacity).run _ hn).1

theorem own_play_empty : (((empty capacity).play steps).selectionsOf p).own =
    Selections.run {} ((empty capacity).choices p steps) :=
  (Consistent.empty capacity).own_play hn

theorem destination?_play : ((empty capacity).play steps).destination? p server =
    (Selections.run {} ((empty capacity).choices p steps)).externalForm? server := by
  rw [(consistent_play hn).destination?_eq, ← own_play_empty hn]
  rfl

end runs

/-- Short of an overflow of the handles, what a server answers about the destination of a player
after any run is the window between the corners that the player had set when they last picked a
destination with success, if it can be measured in words, and it is nothing as long as they have
not. So no step but such a pick changes the answer. -/
theorem destination_chosen (capacity : Nat) (steps : List StoreStep)
    (hn : (empty capacity).opened (steps.map (·.toEvent)) < handleLimit) (p : Uuid)
    (server : String) :
    let s := (empty capacity).play steps
    let choices := (empty capacity).choices p steps
    (∀ d, Selections.LastPick .destination choices d → d.Fits →
      ∃ a c, d = { a := some a, b := some c } ∧
        s.destination? p server = .ok (some (a.windowFor c server))) ∧
    (∀ x, s.destination? p server = .ok (some x) → ∃ a c,
      Selections.LastPick .destination choices { a := some a, b := some c } ∧
        x = a.windowFor c server) ∧
    (s.destination? p server = .ok none ↔ ∀ d, ¬ Selections.LastPick .destination choices d) ∧
    ∀ before step, steps = before ++ [step] → ¬ ((empty capacity).play before).Redirects p step →
      s.destination? p server = ((empty capacity).play before).destination? p server := by
  intro s events
  have hn := lasts_empty hn
  have hanswer : s.destination? p server = (Selections.run {} events).externalForm? server :=
    destination?_play hn
  rw [hanswer]
  refine ⟨?_, ?_, Selections.externalForm?_eq_none_iff_lastPick, ?_⟩
  · intro d hd hfits
    obtain ⟨a, c, rfl⟩ := hd.exists_corners
    obtain ⟨b, hb⟩ := hd.accepted
    obtain ⟨-, -, rfl⟩ := (Selection.bounds_eq_ok_iff rfl rfl).1 hb
    exact ⟨a, c, rfl, (Selections.externalForm?_of_lastPick hd).trans (if_pos (hfits _ hb))⟩
  · intro x hx
    obtain ⟨d, hd, -⟩ := Selections.externalForm?_eq_some_iff.1 hx
    have hpick : Selections.LastPick .destination events d := Selections.end?_run.1 hd
    obtain ⟨a, c, rfl⟩ := hpick.exists_corners
    rw [Selections.externalForm?_of_lastPick hpick] at hx
    split at hx
    · exact ⟨a, c, hpick, (Option.some.inj (Except.ok.inj hx)).symm⟩
    · cases hx
  · rintro before step rfl hstep
    have hbefore := lasts_of_append (List.map_append ▸ hn)
    rw [destination?_play hbefore]
    change (Selections.run {} ((empty capacity).choices p (before ++ [step]))).externalForm? _ = _
    rw [choices_append]
    cases hchoice : ((empty capacity).play before).choiceOf p step with
    | none => simp only [choices, hchoice, Option.toList, List.append_nil]
    | some e =>
      simp only [choices, hchoice, Option.toList, List.append_nil]
      refine Selections.externalForm?_after ?_
      rintro ⟨rfl, haccepted⟩
      rw [← Selections.current_run, ← own_play_empty hbefore] at haccepted
      exact hstep ((consistent_play hbefore).redirects hchoice haccepted)

end Store

namespace Sample

def gives (handle : Handle) (command : Command) : StoreStep :=
  .command handle command {} fun _ => player

/-- The player picks a destination, sets a corner that is out of line and picks again, gets a
destination of another server, connects once more and leaves. -/
def wandering : List StoreStep :=
  [.event (.connect player address avatar {} 0) trivial,
    gives 1 (.selectCorner true ⟨0, 64, 5⟩), gives 1 (.selectCorner false ⟨1, 66, 5⟩),
    gives 1 .selectDestination,
    gives 1 (.selectCorner false ⟨8, 66, 8⟩), gives 1 .selectDestination,
    .event (.mirror ⟨player, Corner.windowFor ⟨nether, ⟨0, 0, 0⟩⟩ ⟨nether, ⟨0, 2, 0⟩⟩ "survival"⟩)
      trivial,
    .event (.connect player address avatar {} 7) trivial, .event (.disconnect 2) trivial]

/-- The player sets corners so far up that the middle between them is not found in words. -/
def climbing : List StoreStep :=
  [.event (.connect player address avatar {} 0) trivial,
    gives 1 (.selectCorner true ⟨0, 1073741824, 5⟩),
    gives 1 (.selectCorner false ⟨1, 1073741826, 5⟩)]

end Sample

open Sample in
theorem wanderer_keeps_choice :
    (Store.empty 1).opened (wandering.map (·.toEvent)) < Store.handleLimit ∧
      ((Store.empty 1).play wandering).destination? player "lobby" =
        .ok (some (Corner.windowFor ⟨world, ⟨0, 64, 5⟩⟩ ⟨world, ⟨1, 66, 5⟩⟩ "lobby")) := by
  have hn : (Store.empty 1).opened (wandering.map (·.toEvent)) < Store.handleLimit := by decide
  have hpick : Selections.LastPick .destination ((Store.empty 1).choices player wandering)
      (.ofCorners world ⟨0, 64, 5⟩ ⟨1, 66, 5⟩) := Selections.end?_run.1 rfl
  have hfits : (Selection.ofCorners world ⟨0, 64, 5⟩ ⟨1, 66, 5⟩).Fits := by
    intro b hb
    obtain rfl := Except.ok.inj hb
    decide
  obtain ⟨hanswer, -⟩ := Store.destination_chosen 1 wandering hn player "lobby"
  obtain ⟨a, c, hd, hanswer⟩ := hanswer _ hpick hfits
  obtain ⟨rfl, rfl⟩ : a = ⟨world, ⟨0, 64, 5⟩⟩ ∧ c = ⟨world, ⟨1, 66, 5⟩⟩ := by
    cases hd
    exact ⟨rfl, rfl⟩
  exact ⟨hn, hanswer⟩

open Sample in
/-- The destination is picked with success, and the server fails to answer. -/
theorem far_choice_unanswered :
    let s := (Store.empty 1).play climbing
    s.Redirects player (gives 1 .selectDestination) ∧
      (s.advance (gives 1 .selectDestination)).destination? player "lobby" = .error .overflow :=
  ⟨⟨⟨_, rfl, rfl⟩, "Destination selected", rfl⟩, rfl⟩

end PortalNet
