import PortalNet.Proofs.Session.Consistency

/-! # Players one by one

A machine for one player, who is here or away. It hears of nothing but the events of that player,
and what a store holds for the player is what the machine has come to: requests wait for the player
to be let in, the latest of each kind, and whoever comes back goes on where they left.
-/

namespace PortalNet

inductive PlayerEvent where
  | join (spawn : Avatar) (worlds : Worlds)
  | leave
  | teleport (request : TeleportRequest) (worlds : Worlds)
  | mirror (selection : ExternalSelection)
  | edit (avatar : Avatar) (selections : Selections)

namespace PlayerEvent

def isJoin : PlayerEvent → Bool
  | join .. => true
  | _ => false

def request? : PlayerEvent → Option TeleportRequest
  | teleport r _ => some r
  | _ => none

def selection? : PlayerEvent → Option ExternalSelection
  | mirror e => some e
  | _ => none

end PlayerEvent

/-- What the tables of a store hold for one player. -/
structure Held where
  live : Option (Avatar × Selections) := none
  teleport : Option TeleportRequest := none
  destination : Option ExternalSelection := none
  selections : Option Selections := none
  place : Option Avatar := none
  deriving DecidableEq

inductive Presence where
  | here (avatar : Avatar) (selections : Selections)
  /-- Where the player left and with which selections, and what waits for them. -/
  | away (left : Option (Avatar × Selections)) (teleport : Option TeleportRequest)
      (destination : Option ExternalSelection)

namespace Presence

def start : Presence :=
  away none none none

def holding : Presence → Held
  | here a s => { live := some (a, s) }
  | away left t d =>
    { teleport := t, destination := d, selections := left.map Prod.snd, place := left.map Prod.fst }

def step : Presence → PlayerEvent → Presence
  | here a s, .join .. => here a s
  | here a s, .leave => away (some (a, s)) none none
  | here a s, .teleport r ws => here (a.teleported r ws) s
  | here a s, .mirror e => here a (s.aimed (some e))
  | here _ _, .edit a s => here a s
  | away left t d, .join spawn ws =>
    here (((left.map Prod.fst).getD spawn).moved t ws) (((left.map Prod.snd).getD {}).aimed d)
  | away left _ d, .teleport r _ => away left (some r) d
  | away left t _, .mirror e => away left t (some e)
  | away left t d, .leave | away left t d, .edit .. => away left t d

def run (π : Presence) (es : List PlayerEvent) : Presence :=
  es.foldl step π

variable {π : Presence} {es fs : List PlayerEvent} {left : Option (Avatar × Selections)}
  {t : Option TeleportRequest} {d : Option ExternalSelection}

theorem run_cons {e : PlayerEvent} : π.run (e :: es) = (π.step e).run es := rfl

theorem run_append : π.run (es ++ fs) = (π.run es).run fs :=
  List.foldl_append ..

theorem getLast?_cons_or {α : Type} {a : α} {b : Option α} (l : List α) :
    (a :: l).getLast?.or b = l.getLast?.or (some a) := by
  rw [List.getLast?_cons]
  cases l.getLast? <;> rfl

/-- A session that is replaced goes on in the new one. -/
theorem step_leave_join {spawn : Avatar} {ws : Worlds} :
    (π.step .leave).step (.join spawn ws) = π.step (.join spawn ws) := by
  cases π <;> rfl

/-- Of the requests that come for someone who is away the latest of each kind waits. -/
theorem run_away (h : ∀ e ∈ es, e.isJoin = false) :
    (away left t d).run es =
      away left ((es.filterMap PlayerEvent.request?).getLast?.or t)
        ((es.filterMap PlayerEvent.selection?).getLast?.or d) := by
  induction es generalizing t d with
  | nil => rfl
  | cons e es ih =>
    have hrun : ∀ t d, (away left t d).run es = _ := fun t d =>
      ih fun e he => h e (List.mem_cons_of_mem _ he)
    rw [run_cons]
    cases e with
    | join => exact absurd (h _ List.mem_cons_self) (by simp [PlayerEvent.isJoin])
    | leave | edit => exact hrun t d
    | teleport r ws => exact (hrun _ _).trans (congrArg (away left · _) (getLast?_cons_or _).symm)
    | mirror e => exact (hrun _ _).trans (congrArg (away left _) (getLast?_cons_or _).symm)

end Presence

namespace Store

def held (s : Store) (p : Uuid) : Held where
  live := (s.byPlayer? p).map fun x => (x.avatar, x.selections)
  teleport := s.pendingTeleports.get? p
  destination := s.pendingSelections.get? p
  selections := s.retained.get? p
  place := s.lastPlaces.get? p

/-- What a player hears of an event. Whether a full server refuses them is not theirs to say. -/
def heardOf (s : Store) (p : Uuid) : StoreEvent → Option PlayerEvent
  | .connect q addr spawn ws now =>
    if q = p ∧ s.opens (.connect q addr spawn ws now) then some (.join spawn ws) else none
  | .disconnect h => (s.session? h).bind fun x => if x.player = p then some .leave else none
  | .teleport r ws => if r.player = p then some (.teleport r ws) else none
  | .mirror m => if m.player = p then some (.mirror m.selection) else none
  | .edit change => (s.byPlayer? p).map fun x =>
    .edit (change x.handle x).avatar (change x.handle x).selections

def heard (s : Store) (p : Uuid) : List StoreEvent → List PlayerEvent
  | [] => []
  | e :: es => (s.heardOf p e).toList ++ (s.after e).heard p es

/-- The machine of a player, read off the tables. -/
def presence (s : Store) (p : Uuid) : Presence :=
  match s.byPlayer? p with
  | some x => .here x.avatar x.selections
  | none =>
    .away ((s.lastPlaces.get? p).bind fun a => (s.retained.get? p).map fun l => (a, l))
      (s.pendingTeleports.get? p) (s.pendingSelections.get? p)

section tables

variable {s t : Store} {x : Session} {p : Uuid} {f : Handle → Session → Session}

theorem presence_of_some (hx : s.byPlayer? p = some x) :
    s.presence p = .here x.avatar x.selections := by
  simp only [presence, hx]

theorem presence_of_none (hx : s.byPlayer? p = none) :
    s.presence p =
      .away ((s.lastPlaces.get? p).bind fun a => (s.retained.get? p).map fun l => (a, l))
        (s.pendingTeleports.get? p) (s.pendingSelections.get? p) := by
  simp only [presence, hx]

theorem presence_congr (hx : t.byPlayer? p = s.byPlayer? p)
    (ht : t.pendingTeleports.get? p = s.pendingTeleports.get? p)
    (hd : t.pendingSelections.get? p = s.pendingSelections.get? p)
    (hl : t.retained.get? p = s.retained.get? p)
    (ha : t.lastPlaces.get? p = s.lastPlaces.get? p) : t.presence p = s.presence p := by
  simp only [presence, hx, ht, hd, hl, ha]

theorem Consistent.held_eq (hs : s.Consistent) (p : Uuid) : s.held p = (s.presence p).holding := by
  cases hx : s.byPlayer? p with
  | some x =>
    obtain ⟨hx', rfl⟩ := hs.byPlayer?_eq_some_iff.1 hx
    have hp := hs.handleOf? hx'
    simp only [held, hx, presence_of_some hx, Presence.holding, hs.no_teleport _ _ hp,
      hs.no_selection _ _ hp, hs.no_retained _ _ hp, hs.no_place _ _ hp, Option.map_some]
  | none =>
    have hk := hs.keys_iff p
    rw [Table.mem_keys_iff, Table.mem_keys_iff] at hk
    simp only [held, hx, presence_of_none hx, Presence.holding, Option.map_none]
    cases hl : s.retained.get? p <;> cases ha : s.lastPlaces.get? p <;> simp_all

theorem Consistent.byPlayer?_close (hs : s.Consistent) (hx : s.session? x.handle = some x) :
    (s.close x).byPlayer? p = if p = x.player then none else s.byPlayer? p := by
  unfold byPlayer?
  rw [handleOf?_close]
  split
  · rfl
  · next hne =>
    cases hp : s.handleOf? p with
    | none => rfl
    | some h =>
      obtain ⟨y, hy, rfl, rfl⟩ := (hs.handleOf?_iff _ _).1 hp
      have hh : y.handle ≠ x.handle := fun hh =>
        hne (congrArg Session.player (session?_inj hx hy hh))
      exact session?_close.trans (if_neg hh)

theorem Consistent.byPlayer?_accept (hs : s.Consistent) (hx : s.session? x.handle = none) :
    (s.accept x).byPlayer? p = if x.player = p then some x else s.byPlayer? p := by
  unfold byPlayer?
  rw [handleOf?_accept]
  split
  · exact session?_accept.trans (if_pos rfl)
  · cases hp : s.handleOf? p with
    | none => rfl
    | some h =>
      obtain ⟨y, hy, rfl, rfl⟩ := (hs.handleOf?_iff _ _).1 hp
      have hh : x.handle ≠ y.handle := by
        intro hh
        rw [← hh, hx] at hy
        cases hy
      exact session?_accept.trans (if_neg hh)

theorem Consistent.byPlayer?_revise (hs : s.Consistent) :
    (s.revise f).byPlayer? p = (s.byPlayer? p).map fun x => x.become (f x.handle x) := by
  change (s.handleOf? p).bind (s.revise f).session? = ((s.handleOf? p).bind s.session?).map _
  cases hp : s.handleOf? p with
  | none => rfl
  | some h =>
    obtain ⟨y, hy, rfl, -⟩ := (hs.handleOf?_iff _ _).1 hp
    change (s.revise f).session? y.handle = (s.session? y.handle).map _
    rw [session?_revise, hy]
    rfl

theorem Consistent.presence_close (hs : s.Consistent) (hx : s.session? x.handle = some x) :
    (s.close x).presence p =
      if p = x.player then .away (some (x.avatar, x.selections)) none none else s.presence p := by
  have hb := hs.byPlayer?_close hx (p := p)
  split
  · next hp =>
    subst hp
    have hp := hs.handleOf? hx
    rw [presence_of_none (hb.trans (if_pos rfl))]
    simp only [Store.close, Table.get?_insert_self, hs.no_teleport _ _ hp, hs.no_selection _ _ hp]
    rfl
  · next hp =>
    have hne : ¬ x.player = p := fun h => hp h.symm
    exact presence_congr (hb.trans (if_neg hp)) rfl rfl (Table.get?_insert.trans (if_neg hne))
      (Table.get?_insert.trans (if_neg hne))

theorem Consistent.presence_accept (hs : s.Consistent) (hx : s.session? x.handle = none) :
    (s.accept x).presence p =
      if x.player = p then .here x.avatar x.selections else s.presence p := by
  have hb := hs.byPlayer?_accept hx (p := p)
  split
  · next hp => exact presence_of_some (hb.trans (if_pos hp))
  · next hp =>
    have hne : ¬ p = x.player := fun h => hp h.symm
    exact presence_congr (hb.trans (if_neg hp)) (Table.get?_erase.trans (if_neg hne))
      (Table.get?_erase.trans (if_neg hne)) (Table.get?_erase.trans (if_neg hne))
      (Table.get?_erase.trans (if_neg hne))

theorem Consistent.presence_revise (hs : s.Consistent) :
    (s.revise f).presence p =
      match s.byPlayer? p with
      | some x => .here (f x.handle x).avatar (f x.handle x).selections
      | none => s.presence p := by
  have hb := hs.byPlayer?_revise (f := f) (p := p)
  cases hx : s.byPlayer? p with
  | some x =>
    rw [hx] at hb
    exact (presence_of_some hb).trans rfl
  | none => exact presence_congr (hb.trans (by rw [hx]; rfl)) rfl rfl rfl rfl

/-- A change of one session is a change for its player. -/
theorem Consistent.presence_modify (hs : s.Consistent) {q : Uuid} {g : Session → Session}
    (hx : s.byPlayer? q = some x) (hg : Session.Kept g) :
    (s.modify x.handle g).presence p =
      if q = p then .here (g x).avatar (g x).selections else s.presence p := by
  obtain ⟨hx', rfl⟩ := hs.byPlayer?_eq_some_iff.1 hx
  rw [modify_eq_revise hg, hs.presence_revise]
  cases hy : s.byPlayer? p with
  | none =>
    have hp : x.player ≠ p := by
      rintro rfl
      cases hx.symm.trans hy
    rw [if_neg hp]
  | some y =>
    obtain ⟨hy', rfl⟩ := hs.byPlayer?_eq_some_iff.1 hy
    by_cases hp : x.player = y.player
    · obtain rfl : x = y := Option.some.inj (hx.symm.trans (hp ▸ hy))
      simp only [if_true]
    · have hh : y.handle ≠ x.handle := fun hh =>
        hp (congrArg Session.player (session?_inj hx' hy' hh)).symm
      simp only [if_neg hh, if_neg hp, presence_of_some hy]

end tables

section steps

variable {s : Store} {p q : Uuid} {addr : Address} {spawn : Avatar} {ws : Worlds} {now : Nat}

theorem Consistent.presence_away (hs : s.Consistent) (hp : s.handleOf? p = none) :
    ∃ left, s.presence p = .away left (s.pendingTeleports.get? p) (s.pendingSelections.get? p) ∧
      left.map Prod.fst = s.lastPlaces.get? p ∧ left.map Prod.snd = s.retained.get? p := by
  have hk := hs.keys_iff p
  rw [Table.mem_keys_iff, Table.mem_keys_iff] at hk
  refine ⟨_, presence_of_none (hs.byPlayer?_eq_none_iff.2 hp), ?_⟩
  cases hl : s.retained.get? p <;> cases ha : s.lastPlaces.get? p <;> simp_all

theorem Consistent.step_join (hs : s.Consistent) (hp : s.handleOf? p = none) :
    (s.presence p).step (.join spawn ws) =
      .here (s.opening p addr spawn ws now).avatar (s.opening p addr spawn ws now).selections := by
  obtain ⟨left, h, hfst, hsnd⟩ := hs.presence_away hp
  rw [h, opening_eq, ← hfst, ← hsnd]
  rfl

theorem Consistent.presence_leave (hs : s.Consistent) :
    (s.leave q).presence p = if q = p then (s.presence p).step .leave else s.presence p := by
  rcases hs.leave_cases q with ⟨hq, h⟩ | ⟨x, hx, rfl, h, -⟩
  · rw [h]
    split
    · next hp =>
      subst hp
      rw [presence_of_none (hs.byPlayer?_eq_none_iff.2 hq)]
      rfl
    · rfl
  · rw [h, hs.presence_close hx]
    by_cases hp : x.player = p
    · rw [if_pos hp, if_pos hp.symm, presence_of_some (hs.byPlayer?_eq_some_iff.2 ⟨hx, hp⟩)]
      rfl
    · rw [if_neg hp, if_neg (Ne.symm hp)]

theorem Consistent.presence_disconnect (hs : s.Consistent) {h : Handle}
    (hp : s.handleOf? p = some h) :
    (s.disconnect h).2.presence p = (s.presence p).step .leave := by
  rw [disconnect_eq_leave hp, hs.presence_leave, if_pos rfl]

theorem Consistent.presence_connect (hs : s.Consistent) {a : Arrival}
    (h : s.connect q addr spawn ws now =
      (some a, (s.leave q).accept ((s.leave q).opening q addr spawn ws now))) :
    (s.connect q addr spawn ws now).2.presence p =
      if q = p then (s.presence p).step (.join spawn ws) else s.presence p := by
  have hl := hs.leave q
  have hp : ((s.leave q).opening q addr spawn ws now).player = q := by rw [opening_eq]
  rw [h, hl.presence_accept (by rw [opening_eq]; exact hl.session?_next), hp]
  split
  · next hp =>
    subst hp
    rw [← Presence.step_leave_join, ← hl.step_join (hs.handleOf?_leave q), hs.presence_leave,
      if_pos rfl]
  · next hp => rw [hs.presence_leave, if_neg hp]

theorem Consistent.presence_teleport (hs : s.Consistent) {r : TeleportRequest} :
    (s.teleport r ws).2.presence p =
      if r.player = p then (s.presence p).step (.teleport r ws) else s.presence p := by
  cases hx : s.byPlayer? r.player with
  | some x =>
    rw [teleport_of_some hx, hs.presence_modify hx Session.kept_teleport]
    split
    · next hp =>
      subst hp
      rw [presence_of_some hx]
      rfl
    · rfl
  | none =>
    have hpark : (s.parkTeleport r).byPlayer? r.player = none := hx
    rw [teleport_of_none hx]
    split
    · next hp =>
      subst hp
      rw [presence_of_none hx, presence_of_none hpark, Presence.step]
      exact congrArg (Presence.away _ · _) Table.get?_insert_self
    · next hp => exact presence_congr rfl (Table.get?_insert.trans (if_neg hp)) rfl rfl rfl

/-- Of many requests a player hears their own. -/
theorem Consistent.run_teleports (hs : s.Consistent) (ws : Worlds) (rs : List TeleportRequest) :
    (s.run (rs.map (.teleport · ws))).Consistent ∧
      (s.run (rs.map (.teleport · ws))).presence p =
        (s.presence p).run ((rs.filter (·.player = p)).map (.teleport · ws)) := by
  induction rs generalizing s with
  | nil => exact ⟨hs, rfl⟩
  | cons r rs ih =>
    obtain ⟨hrun, hpresence⟩ := ih (hs.after (e := .teleport r ws) rfl)
    refine ⟨hrun, ?_⟩
    rw [List.map_cons, run_cons, hpresence, Store.after, hs.presence_teleport, List.filter_cons]
    by_cases hp : r.player = p
    · rw [if_pos hp, if_pos (decide_eq_true hp)]
      rfl
    · rw [if_neg hp, if_neg (by simpa using hp)]

theorem Consistent.presence_mirror (hs : s.Consistent) {m : MirrorRequest} :
    (s.mirror m).2.presence p =
      if m.player = p then (s.presence p).step (.mirror m.selection) else s.presence p := by
  cases hx : s.byPlayer? m.player with
  | some x =>
    rw [mirror_of_some hx, hs.presence_modify hx Session.kept_receiveSelection]
    split
    · next hp =>
      subst hp
      rw [presence_of_some hx]
      rfl
    · rfl
  | none =>
    have hpark : (s.parkSelection m).byPlayer? m.player = none := hx
    rw [mirror_of_none hx]
    split
    · next hp =>
      subst hp
      rw [presence_of_none hx, presence_of_none hpark, Presence.step]
      exact congrArg (Presence.away _ _) Table.get?_insert_self
    · next hp => exact presence_congr rfl rfl (Table.get?_insert.trans (if_neg hp)) rfl rfl

/-- A player's machine takes the step that the player hears of, if any. -/
theorem Consistent.presence_after (hs : s.Consistent) (e : StoreEvent) (p : Uuid) :
    (s.after e).presence p = (s.presence p).run (s.heardOf p e).toList := by
  cases e with
  | connect q addr spawn ws now =>
    rcases hs.connect_cases q addr spawn ws now with ⟨-, -, h⟩ | ⟨-, a, -, h⟩
    · simp only [Store.after, heardOf, opens, h, Option.isSome_none, Bool.false_eq_true, and_false,
        if_false]
      rfl
    · have hopens : s.opens (.connect q addr spawn ws now) := by rw [opens, h]; rfl
      refine (hs.presence_connect h).trans ?_
      simp only [heardOf, hopens, and_true]
      split <;> rfl
  | disconnect k =>
    simp only [Store.after, heardOf]
    cases hx : s.session? k with
    | none =>
      rw [disconnect_of_none hx]
      rfl
    | some x =>
      obtain rfl := hs.handle_eq k x hx
      rw [hs.disconnect_eq hx, Option.bind_some]
      rw [← hs.leave_eq hx, hs.presence_leave]
      split <;> rfl
  | teleport r ws =>
    rw [Store.after, hs.presence_teleport, heardOf]
    split <;> rfl
  | mirror m =>
    rw [Store.after, hs.presence_mirror, heardOf]
    split <;> rfl
  | edit f =>
    simp only [Store.after, heardOf, hs.presence_revise]
    cases hx : s.byPlayer? p with
    | none => rfl
    | some x =>
      rw [presence_of_some hx]
      rfl

theorem byPlayer?_of_here {a : Avatar} {l : Selections} (h : s.presence p = .here a l) :
    ∃ x, s.byPlayer? p = some x ∧ x.avatar = a ∧ x.selections = l := by
  cases hx : s.byPlayer? p with
  | none =>
    rw [presence_of_none hx] at h
    cases h
  | some x =>
    rw [presence_of_some hx] at h
    cases h
    exact ⟨x, rfl, rfl, rfl⟩

theorem byPlayer?_of_presence {left : Option (Avatar × Selections)} {t : Option TeleportRequest}
    {d : Option ExternalSelection} (h : s.presence p = .away left t d) : s.byPlayer? p = none := by
  cases hx : s.byPlayer? p with
  | none => rfl
  | some x =>
    rw [presence_of_some hx] at h
    cases h

/-- Nobody gets in but by joining. -/
theorem Consistent.handleOf?_after (hs : s.Consistent) (e : StoreEvent)
    (hs' : (s.after e).Consistent) (hp : s.handleOf? p = none)
    (hj : ∀ i ∈ (s.heardOf p e).toList, i.isJoin = false) : (s.after e).handleOf? p = none := by
  obtain ⟨left, h, -⟩ := hs.presence_away hp
  have he := hs.presence_after e p
  rw [h, Presence.run_away hj] at he
  exact hs'.byPlayer?_eq_none_iff.1 (byPlayer?_of_presence he)

/-- The event is about another player. -/
def Spares (s : Store) (p : Uuid) : StoreEvent → Prop
  | .connect q .. => q ≠ p
  | .disconnect h => ∀ x, s.session? h = some x → x.player ≠ p
  | .teleport r _ => r.player ≠ p
  | .mirror m => m.player ≠ p
  | .edit change => ∀ x, s.byPlayer? p = some x → change x.handle x = x

theorem Consistent.presence_of_spares {e : StoreEvent} (hs : s.Consistent) (h : s.Spares p e) :
    (s.after e).presence p = s.presence p := by
  rw [hs.presence_after]
  cases e with
  | connect q addr spawn ws now =>
    rw [heardOf, if_neg fun hq => h hq.1]
    rfl
  | disconnect k =>
    rw [heardOf]
    cases hx : s.session? k with
    | none => rfl
    | some x =>
      rw [Option.bind_some, if_neg (h x hx)]
      rfl
  | teleport r ws =>
    rw [heardOf, if_neg h]
    rfl
  | mirror m =>
    rw [heardOf, if_neg h]
    rfl
  | edit f =>
    rw [heardOf]
    cases hx : s.byPlayer? p with
    | none => rfl
    | some x =>
      rw [Option.map_some, h x hx, presence_of_some hx]
      rfl

end steps

section runs

variable {s : Store} {p : Uuid}

theorem heard_append {es fs : List StoreEvent} :
    s.heard p (es ++ fs) = s.heard p es ++ (s.run es).heard p fs := by
  induction es generalizing s with
  | nil => rfl
  | cons e es ih => rw [List.cons_append, heard, heard, ih, List.append_assoc, run_cons]

theorem Consistent.presence_run (hs : s.Consistent) (es : List StoreEvent) (hn : s.Lasts es)
    (p : Uuid) : (s.run es).presence p = (s.presence p).run (s.heard p es) := by
  induction es generalizing s with
  | nil => rfl
  | cons e es ih =>
    obtain ⟨hs', hn', -⟩ := hs.lasts_cons hn
    rw [run_cons, ih hs' hn', hs.presence_after, heard, Presence.run_append]

/-- Short of an overflow of the handles, what a store holds for a player after any run is what the
machine of the player comes to, and no event of another player touches it. Whoever is let in starts
from their last place or else at the spawn, where the latest of the requests that came before takes
effect once and for all. -/
theorem run_empty_held (capacity : Nat) (es : List StoreEvent)
    (hn : (empty capacity).opened es < handleLimit) (p : Uuid) :
    ((empty capacity).run es).held p =
      (Presence.start.run ((empty capacity).heard p es)).holding ∧
    (∀ before e, es = before ++ [e] → ((empty capacity).run before).Spares p e →
      ((empty capacity).run es).held p = ((empty capacity).run before).held p) ∧
    ∀ before between addr spawn ws now,
      es = before ++ between ++ [.connect p addr spawn ws now] →
      let s := (empty capacity).run before
      let since := s.heard p between
      s.handleOf? p = none → (∀ e ∈ since, e.isJoin = false) →
      ((empty capacity).run (before ++ between)).opens (.connect p addr spawn ws now) →
      ((empty capacity).run es).held p = {
        live := some
          (((s.lastPlaces.get? p).getD spawn).moved
            ((since.filterMap PlayerEvent.request?).getLast?.or (s.pendingTeleports.get? p)) ws,
          ((s.retained.get? p).getD {}).aimed
            ((since.filterMap PlayerEvent.selection?).getLast?.or
              (s.pendingSelections.get? p))) } := by
  have hempty := Consistent.empty capacity
  have hn := lasts_empty hn
  obtain ⟨hs, -, -⟩ := hempty.run es hn
  refine ⟨?_, ?_, ?_⟩
  · rw [hs.held_eq, hempty.presence_run es hn]
    rfl
  · rintro before e rfl hspares
    obtain ⟨hb, -⟩ := hempty.lasts_append hn
    rw [hs.held_eq, hb.held_eq, run_append]
    exact congrArg _ (hb.presence_of_spares hspares)
  · rintro before between addr spawn ws now rfl s since haway hjoin hopens
    obtain ⟨hb, -⟩ := hempty.lasts_append (List.append_assoc .. ▸ hn)
    obtain ⟨left, h, hfst, hsnd⟩ := hb.presence_away haway
    have hlast : ((empty capacity).run (before ++ between)).heard p
        [.connect p addr spawn ws now] = [.join spawn ws] := by
      rw [heard, heardOf, if_pos ⟨rfl, hopens⟩]
      rfl
    have hend := hempty.presence_run _ hn p
    rw [heard_append, heard_append, hlast, Presence.run_append, Presence.run_append,
      ← hempty.presence_run before (lasts_of_append (List.append_assoc .. ▸ hn)), h,
      Presence.run_away hjoin] at hend
    rw [hs.held_eq, hend, ← hfst, ← hsnd]
    rfl

end runs

/-- Of two requests for a player who has left the second one is met. -/
theorem held_after_two_requests :
    let join : StoreEvent := .connect Sample.player Sample.address Sample.avatar {} 0
    let flight := Sample.request "world" true
    let es := [join, .disconnect 1, .teleport (Sample.request "world" false) {},
      .teleport flight {}, join]
    (empty 1).opened es < handleLimit ∧
      ((empty 1).run es).held Sample.player =
        { live := some (Sample.avatar.teleported flight {}, {}) } := by
  intro join flight es
  have hn : (empty 1).opened es < handleLimit := by decide
  have h := (run_empty_held 1 es hn Sample.player).2.2 [join, .disconnect 1]
    [.teleport (Sample.request "world" false) {}, .teleport flight {}] Sample.address
    Sample.avatar {} 0 rfl
  exact ⟨hn, h (by decide) (by decide) (by decide)⟩

end Store

end PortalNet
