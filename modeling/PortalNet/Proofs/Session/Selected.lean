import PortalNet.Proofs.Selection.Words
import PortalNet.Proofs.Session.Presence

/-! # What players have selected

The selections of a player outlast their sessions: they are left behind with one and taken up by
the next, with the destination that waits for the player on top. So nothing changes them but the
requests that mirror a destination and the player's own edits.
-/

namespace PortalNet

theorem Selections.externalForm?_aimed {l : Selections} {d : Option ExternalSelection}
    {server : String} : (l.aimed d).externalForm? server = l.externalForm? server := by
  cases d <;> rfl

/-- What another server is to be told of a selection. -/
structure Selection.Told (d : Selection) (server : String) (e : ExternalSelection) : Prop where
  frame : d.frame = .ok e.position.frame
  size : d.size = .ok e.size
  world : ∃ w, d.world? = some w ∧ e.position.worldName = some w.name
  server : e.position.server = some server
  no_id : e.position.worldId = none
  not_last : e.position.lastPlayer = false

namespace Selection

variable {d : Selection} {b : Bounds} {server : String} {e : ExternalSelection}

/-- The window with these bounds, in the form for another server. -/
def abroad (s : Selection) (b : Bounds) (server : String) : ExternalSelection :=
  ⟨.external ⟨b.heart, s.facing b⟩ server b.world.name false, b.blocks⟩

theorem told_iff (hb : d.bounds = .ok b) :
    d.Told server e ↔ b.Fits ∧ e = d.abroad b server := by
  constructor
  · rintro ⟨hframe, hsize, ⟨w, hw, hname⟩, hserver, hid, hlast⟩
    rw [frame_of_bounds hb] at hframe
    rw [size_of_bounds hb] at hsize
    rw [world?_of_bounds hb] at hw
    split at hframe
    · next hsums =>
      split at hsize
      · next hcounts =>
        obtain ⟨⟨id, name, frame, far, last⟩, size⟩ := e
        cases hframe
        cases hsize
        cases hw
        cases hname
        cases hserver
        cases hid
        cases hlast
        exact ⟨⟨hcounts, hsums⟩, rfl⟩
      · cases hsize
    · cases hframe
  · rintro ⟨⟨hcounts, hsums⟩, rfl⟩
    exact ⟨(frame_of_bounds hb).trans (if_pos hsums), (size_of_bounds hb).trans (if_pos hcounts),
      ⟨_, world?_of_bounds hb, rfl⟩, rfl, rfl, rfl⟩

end Selection

namespace Selections

variable {l : Selections} {d : Selection} {b : Bounds} {server : String} {e : ExternalSelection}

theorem externalForm?_of_none (hd : l.destination = none) :
    l.externalForm? server = .ok none := by
  rw [externalForm?, hd]
  rfl

theorem externalForm?_of_refused {refusal : PortalError} (hd : l.destination = some d)
    (hb : d.bounds = .error refusal) : l.externalForm? server = .ok none := by
  rw [externalForm?, hd]
  dsimp only
  rw [Selection.position, Selection.reckon_of_refused hb]
  rfl

theorem externalForm?_of_bounds (hd : l.destination = some d) (hb : d.bounds = .ok b) :
    l.externalForm? server =
      if b.Fits then .ok (some (d.abroad b server)) else .error .overflow := by
  rw [externalForm?, hd]
  dsimp only
  rw [Selection.position_of_bounds hb, Selection.world?_of_bounds hb, Selection.size_of_bounds hb]
  by_cases hfits : b.Fits
  · rw [if_pos hfits, if_pos hfits.1, if_pos hfits.2]
    rfl
  · rw [if_neg hfits]
    by_cases hsums : b.SumsFit
    · have hcounts : ¬ b.CountsFit := fun h => hfits ⟨h, hsums⟩
      rw [if_pos hsums, if_neg hcounts]
      rfl
    · rw [if_neg hsums]
      rfl

theorem externalForm?_eq_some_iff :
    l.externalForm? server = .ok (some e) ↔ ∃ d, l.destination = some d ∧ d.Told server e := by
  cases hd : l.destination with
  | none =>
    rw [externalForm?_of_none hd]
    exact iff_of_false nofun (by simp)
  | some d =>
    simp only [Option.some.injEq, exists_eq_left']
    cases hb : d.bounds with
    | error refusal =>
      rw [externalForm?_of_refused hd hb]
      refine iff_of_false nofun fun h => ?_
      cases (Selection.reckon_of_refused hb _).symm.trans h.frame
    | ok b =>
      rw [externalForm?_of_bounds hd hb, Selection.told_iff hb]
      split
      · next hfits => simp [hfits, eq_comm]
      · next hfits => exact iff_of_false nofun fun h => hfits h.1

/-- There is an answer about a window that can be measured. -/
theorem exists_externalForm? (server : String)
    (h : ∀ d, l.destination = some d → d.Fits) : ∃ found, l.externalForm? server = .ok found := by
  cases hd : l.destination with
  | none => exact ⟨none, externalForm?_of_none hd⟩
  | some d =>
    cases hb : d.bounds with
    | error refusal => exact ⟨none, externalForm?_of_refused hd hb⟩
    | ok b => exact ⟨_, (externalForm?_of_bounds hd hb).trans (if_pos (h d hd b hb))⟩

end Selections

/-- What a player has selected, or starts with when they come back. -/
def Presence.selections : Presence → Selections
  | here _ l => l
  | away left _ d => ((left.map Prod.snd).getD {}).aimed d

section presence

variable {π : Presence}

theorem Presence.selections_join {spawn : Avatar} {ws : Worlds} :
    (π.step (.join spawn ws)).selections = π.selections := by
  cases π <;> rfl

theorem Presence.selections_leave : (π.step .leave).selections = π.selections := by
  cases π <;> rfl

theorem Presence.selections_teleport {r : TeleportRequest} {ws : Worlds} :
    (π.step (.teleport r ws)).selections = π.selections := by
  cases π <;> rfl

theorem Presence.selections_mirror {e : ExternalSelection} :
    (π.step (.mirror e)).selections = π.selections.aimed (some e) := by
  cases π with
  | here a l => rfl
  | away left t d => cases d <;> rfl

end presence

namespace Store

theorem destination?_eq_some_iff {s : Store} {p : Uuid} {server : String} {e : ExternalSelection} :
    s.destination? p server = .ok (some e) ↔ ∃ l d, s.selections? p = some l ∧
      l.destination = some d ∧ d.Told server e := by
  unfold destination?
  cases s.selections? p with
  | none => exact iff_of_false nofun (by simp)
  | some l =>
    simp only [Selections.externalForm?_eq_some_iff, Option.some.injEq, exists_and_left,
      exists_eq_left']

theorem exists_destination? {s : Store} {p : Uuid} (server : String)
    (h : ∀ l d, s.selections? p = some l → l.destination = some d → d.Fits) :
    ∃ found, s.destination? p server = .ok found := by
  unfold destination?
  cases hl : s.selections? p with
  | none => exact ⟨none, rfl⟩
  | some l => exact Selections.exists_externalForm? server fun d => h l d hl

def selectionsOf (s : Store) (p : Uuid) : Selections :=
  (s.presence p).selections

/-- The destination on another server that a player has, or that waits for them. -/
def external? (s : Store) (p : Uuid) : Option ExternalSelection :=
  match s.byPlayer? p with
  | some x => x.selections.external
  | none => s.pendingSelections.get? p

/-- The event leaves a part of what a player has selected as it is. -/
def Leaves {α : Type} (s : Store) (p : Uuid) (part : Selections → α) : StoreEvent → Prop
  | .mirror m => m.player = p → ∀ l, part (l.aimed (some m.selection)) = part l
  | .edit change => ∀ x, s.byPlayer? p = some x →
    part (change x.handle x).selections = part x.selections
  | _ => True

def LeavesAll {α : Type} (s : Store) (p : Uuid) (part : Selections → α) : List StoreEvent → Prop
  | [] => True
  | e :: es => s.Leaves p part e ∧ (s.after e).LeavesAll p part es

section selections

variable {s : Store} {p : Uuid} {x : Session} {α : Type} {part : Selections → α} {e : StoreEvent}
  {es : List StoreEvent} {server : String} {m : MirrorRequest}

theorem selectionsOf_of_some (hx : s.byPlayer? p = some x) : s.selectionsOf p = x.selections := by
  rw [selectionsOf, presence_of_some hx]
  rfl

theorem external?_of_some (hx : s.byPlayer? p = some x) :
    s.external? p = x.selections.external := by
  simp only [external?, hx]

theorem external?_of_none (hx : s.byPlayer? p = none) :
    s.external? p = s.pendingSelections.get? p := by
  simp only [external?, hx]

theorem external_selectionsOf {d : ExternalSelection} (h : s.external? p = some d) :
    (s.selectionsOf p).external = some d := by
  cases hx : s.byPlayer? p with
  | some x => rwa [selectionsOf_of_some hx, ← external?_of_some hx]
  | none =>
    rw [external?_of_none hx] at h
    rw [selectionsOf, presence_of_none hx, h]
    rfl

/-- What a server answers about a player does not depend on whether they are still there. -/
theorem Consistent.destination?_eq (hs : s.Consistent) (p : Uuid) (server : String) :
    s.destination? p server = (s.selectionsOf p).externalForm? server := by
  cases hx : s.byPlayer? p with
  | some x =>
    rw [selectionsOf_of_some hx, destination?, selections?, hx]
    rfl
  | none =>
    obtain ⟨left, hpresence, -, hretained⟩ :=
      hs.presence_away (hs.byPlayer?_eq_none_iff.1 hx)
    rw [selectionsOf, hpresence, Presence.selections, hretained, Selections.externalForm?_aimed,
      destination?, selections?, hx]
    cases s.retained.get? p <;> rfl

theorem Consistent.part_after (hs : s.Consistent) (h : s.Leaves p part e) :
    part ((s.after e).selectionsOf p) = part (s.selectionsOf p) := by
  simp only [selectionsOf, hs.presence_after]
  cases e with
  | connect q addr spawn ws now =>
    rw [heardOf]
    split
    · exact congrArg part Presence.selections_join
    · rfl
  | disconnect k =>
    rw [heardOf]
    cases s.session? k with
    | none => rfl
    | some x =>
      rw [Option.bind_some]
      split
      · exact congrArg part Presence.selections_leave
      · rfl
  | teleport r ws =>
    rw [heardOf]
    split
    · exact congrArg part Presence.selections_teleport
    · rfl
  | mirror m =>
    rw [heardOf]
    split
    · next hp => exact (congrArg part Presence.selections_mirror).trans (h hp _)
    · rfl
  | edit change =>
    rw [heardOf]
    cases hx : s.byPlayer? p with
    | none => rfl
    | some x =>
      rw [presence_of_some hx]
      exact h x hx

theorem Consistent.part_run (hs : s.Consistent) (hn : s.Lasts es) (h : s.LeavesAll p part es) :
    part ((s.run es).selectionsOf p) = part (s.selectionsOf p) := by
  induction es generalizing s with
  | nil => rfl
  | cons e es ih =>
    obtain ⟨hs', hn', -⟩ := hs.lasts_cons hn
    exact (ih hs' hn' h.2).trans (hs.part_after h.1)

/-- A mirrored destination is live at once or waits. -/
theorem Consistent.external?_mirror (hs : s.Consistent) :
    (s.mirror m).2.external? m.player = some m.selection := by
  cases hx : s.byPlayer? m.player with
  | some x =>
    have hpresence := hs.presence_mirror (m := m) (p := m.player)
    rw [if_pos rfl, presence_of_some hx] at hpresence
    obtain ⟨y, hy, -, hl⟩ := byPlayer?_of_here hpresence
    rw [external?_of_some hy, hl]
    rfl
  | none =>
    have hpark : (s.parkSelection m).byPlayer? m.player = none := hx
    rw [mirror_of_none hx, external?_of_none hpark]
    exact Table.get?_insert_self

end selections

end Store

end PortalNet
