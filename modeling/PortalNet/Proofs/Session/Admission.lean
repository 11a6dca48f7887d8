import PortalNet.Proofs.Session.Presence

/-! # Admission

Two stores are alike if the same players are connected to them. Whom a store lets in depends on
nothing else, and whoever is not connected then hears the same from both of them.
-/

namespace PortalNet.Store

/-- The same players are connected by the same handles. -/
structure Alike (s t : Store) : Prop where
  handleOf? : ∀ p, t.handleOf? p = s.handleOf? p
  size : t.sessions.size = s.sessions.size
  nextHandle : t.nextHandle = s.nextHandle
  capacity : t.capacity = s.capacity

namespace Alike

variable {s t u : Store} {p q : Uuid} {x y : Session}

theorem symm (h : s.Alike t) : t.Alike s :=
  ⟨fun p => (h.handleOf? p).symm, h.size.symm, h.nextHandle.symm, h.capacity.symm⟩

theorem trans (h : s.Alike t) (k : t.Alike u) : s.Alike u :=
  ⟨fun p => (k.handleOf? p).trans (h.handleOf? p), k.size.trans h.size,
    k.nextHandle.trans h.nextHandle, k.capacity.trans h.capacity⟩

theorem teleport {r : TeleportRequest} {ws : Worlds} : s.Alike (s.teleport r ws).2 := by
  unfold Store.teleport
  split
  · exact ⟨fun _ => rfl, Table.size_modify, rfl, rfl⟩
  · exact ⟨fun _ => rfl, rfl, rfl, rfl⟩

theorem mirror {m : MirrorRequest} : s.Alike (s.mirror m).2 := by
  unfold Store.mirror
  split
  · exact ⟨fun _ => rfl, Table.size_modify, rfl, rfl⟩
  · exact ⟨fun _ => rfl, rfl, rfl, rfl⟩

theorem revise {f : Handle → Session → Session} : s.Alike (s.revise f) :=
  ⟨fun _ => rfl, Table.size_mapValues, rfl, rfl⟩

theorem live (h : s.Alike t) (hs : s.Consistent) (ht : t.Consistent)
    (hx : s.session? x.handle = some x) :
    ∃ y, t.session? y.handle = some y ∧ y.handle = x.handle ∧ y.player = x.player := by
  have hp := h.handleOf? x.player
  rw [hs.handleOf? hx] at hp
  obtain ⟨y, hy, hh, hq⟩ := (ht.handleOf?_iff _ _).1 hp
  exact ⟨y, hh ▸ hy, hh, hq⟩

theorem session?_eq_none (h : s.Alike t) (hs : s.Consistent) (ht : t.Consistent) {k : Handle}
    (hx : s.session? k = none) : t.session? k = none := by
  cases hy : t.session? k with
  | none => rfl
  | some y =>
    have hp := ht.handleOf? hy
    rw [h.handleOf?] at hp
    obtain ⟨x, hx', -⟩ := (hs.handleOf?_iff _ _).1 hp
    cases hx.symm.trans hx'

theorem close (h : s.Alike t) (hx : s.session? x.handle = some x)
    (hy : t.session? y.handle = some y) (hp : y.player = x.player) :
    (s.close x).Alike (t.close y) where
  handleOf? p := by rw [handleOf?_close, handleOf?_close, hp, h.handleOf?]
  size := by
    have hx' : (s.close x).sessions.size + 1 = s.sessions.size := Table.size_erase hx
    have hy' : (t.close y).sessions.size + 1 = t.sessions.size := Table.size_erase hy
    have := h.size
    omega
  nextHandle := h.nextHandle
  capacity := h.capacity

theorem leave (h : s.Alike t) (hs : s.Consistent) (ht : t.Consistent) (q : Uuid) :
    (s.leave q).Alike (t.leave q) := by
  rcases hs.leave_cases q with ⟨hq, hl⟩ | ⟨x, hx, rfl, hl, -⟩
  · rw [hl, leave_of_none ((h.handleOf? q).trans hq)]
    exact h
  · obtain ⟨y, hy, hh, hp⟩ := h.live hs ht hx
    rw [hl, ← hp, ht.leave_eq hy]
    exact h.close hx hy hp

theorem accept (h : s.Alike t) (hx : s.session? x.handle = none) (hy : t.session? y.handle = none)
    (hh : y.handle = x.handle) (hp : y.player = x.player) : (s.accept x).Alike (t.accept y) where
  handleOf? p := by rw [handleOf?_accept, handleOf?_accept, hp, hh, h.handleOf?]
  size := by
    have hx' : (s.accept x).sessions.size = s.sessions.size + 1 := Table.size_insert hx
    have hy' : (t.accept y).sessions.size = t.sessions.size + 1 := Table.size_insert hy
    have := h.size
    omega
  nextHandle := congrArg (· + 1) h.nextHandle
  capacity := h.capacity

/-- Who is let in does not depend on what is kept for whom. -/
theorem after (h : s.Alike t) (hs : s.Consistent) (ht : t.Consistent) (e : StoreEvent) :
    t.opens e = s.opens e ∧ (s.after e).Alike (t.after e) := by
  cases e with
  | connect q addr spawn ws now =>
    have hl := h.leave hs ht q
    have hroom : (t.leave q).sessions.size < t.capacity ↔
        (s.leave q).sessions.size < s.capacity := by
      rw [hl.size, h.capacity]
    by_cases hr : (s.leave q).sessions.size < s.capacity
    · obtain ⟨a, -, hc⟩ := @connect_of_room s q addr spawn ws now hr
      obtain ⟨b, -, hc'⟩ := @connect_of_room t q addr spawn ws now (hroom.2 hr)
      rw [opens, opens, Store.after, Store.after, hc, hc']
      refine ⟨rfl, hl.accept ?_ ?_ ?_ ?_⟩ <;> simp only [opening_eq]
      · exact (hs.leave q).session?_next
      · exact (ht.leave q).session?_next
      · exact hl.nextHandle
    · obtain ⟨-, -, hc⟩ := (hs.connect_cases q addr spawn ws now).resolve_right fun k => hr k.1
      obtain ⟨-, -, hc'⟩ := (ht.connect_cases q addr spawn ws now).resolve_right
        fun k => hr (hroom.1 k.1)
      rw [opens, opens, Store.after, Store.after, hc, hc']
      exact ⟨rfl, h⟩
  | disconnect k =>
    refine ⟨rfl, ?_⟩
    simp only [Store.after]
    cases hx : s.session? k with
    | none =>
      rw [disconnect_of_none hx, disconnect_of_none (h.session?_eq_none hs ht hx)]
      exact h
    | some x =>
      obtain rfl := hs.handle_eq k x hx
      obtain ⟨y, hy, hh, hp⟩ := h.live hs ht hx
      rw [hs.disconnect_eq hx, ← hh, ht.disconnect_eq hy]
      exact h.close hx hy hp
  | teleport r ws => exact ⟨rfl, teleport.symm.trans (h.trans teleport)⟩
  | mirror m => exact ⟨rfl, mirror.symm.trans (h.trans mirror)⟩
  | edit f => exact ⟨rfl, revise.symm.trans (h.trans revise)⟩

theorem heardOf (h : s.Alike t) (hs : s.Consistent) (ht : t.Consistent) (e : StoreEvent)
    (hp : s.handleOf? p = none) : t.heardOf p e = s.heardOf p e := by
  have hlive : ∀ {u : Store}, u.Consistent → u.handleOf? p = none → ∀ k,
      ((u.session? k).bind fun x => if x.player = p then some .leave else none) =
        (none : Option PlayerEvent) := by
    intro u hu hp k
    cases hx : u.session? k with
    | none => rfl
    | some x =>
      refine (Option.bind_some ..).trans (if_neg ?_)
      rintro rfl
      cases hp.symm.trans (hu.handleOf? hx)
  have hp' : t.handleOf? p = none := (h.handleOf? p).trans hp
  cases e with
  | connect q addr spawn ws now => simp only [Store.heardOf, (h.after hs ht _).1]
  | disconnect k => rw [Store.heardOf, Store.heardOf, hlive hs hp, hlive ht hp']
  | teleport | mirror => rfl
  | edit f =>
    rw [Store.heardOf, Store.heardOf, hs.byPlayer?_eq_none_iff.2 hp, ht.byPlayer?_eq_none_iff.2 hp']

theorem step {e : StoreEvent} {es : List StoreEvent} (h : s.Alike t) (hs : s.Consistent)
    (ht : t.Consistent) (hn : s.Lasts (e :: es)) :
    (s.after e).Consistent ∧ (t.after e).Consistent ∧ (s.after e).Lasts es ∧
      (s.after e).Alike (t.after e) := by
  obtain ⟨hs', hn', -⟩ := hs.lasts_cons hn
  obtain ⟨hopens, h'⟩ := h.after hs ht e
  refine ⟨hs', (ht.change e).consistent ht ?_, hn', h'⟩
  unfold Lasts at hn
  simp only [opened] at hn
  rw [hopens, h.nextHandle]
  omega

theorem lasts (h : s.Alike t) (hs : s.Consistent) (ht : t.Consistent) (es : List StoreEvent)
    (hn : s.Lasts es) : t.Lasts es := by
  have hopened : t.opened es = s.opened es := by
    induction es generalizing s t with
    | nil => rfl
    | cons e es ih =>
      obtain ⟨hs', ht', hn', h'⟩ := h.step hs ht hn
      rw [opened, opened, (h.after hs ht e).1, ih h' hs' ht' hn']
  rwa [Lasts, hopened, h.nextHandle]

theorem run (h : s.Alike t) (hs : s.Consistent) (ht : t.Consistent) (es : List StoreEvent)
    (hn : s.Lasts es) : (s.run es).Alike (t.run es) := by
  induction es generalizing s t with
  | nil => exact h
  | cons e es ih =>
    obtain ⟨hs', ht', hn', h'⟩ := h.step hs ht hn
    exact ih h' hs' ht' hn'

theorem heard (h : s.Alike t) (hs : s.Consistent) (ht : t.Consistent) (es : List StoreEvent)
    (hn : s.Lasts es) (hp : s.handleOf? p = none) (hj : ∀ e ∈ s.heard p es, e.isJoin = false) :
    t.heard p es = s.heard p es := by
  induction es generalizing s t with
  | nil => rfl
  | cons e es ih =>
    obtain ⟨hs', ht', hn', h'⟩ := h.step hs ht hn
    rw [Store.heard] at hj
    have haway := hs.handleOf?_after e hs' hp fun i hi => hj i (List.mem_append_left _ hi)
    rw [Store.heard, Store.heard, h.heardOf hs ht e hp,
      ih h' hs' ht' hn' haway fun i hi => hj i (List.mem_append_right _ hi)]

end Alike

end PortalNet.Store
