import PortalNet.Proofs.Session.Operations

/-! # Consistency of the session store

In a reachable store the handle of a player leads to the one session of that player, nothing waits
for a player who is connected, and handles are used once. A timeout that comes late therefore closes
nothing, and only a player who is not connected can be refused.
-/

namespace PortalNet.Store

structure Consistent (s : Store) : Prop where
  handleOf?_iff : ∀ p h, s.handleOf? p = some h ↔
    ∃ x, s.session? h = some x ∧ x.handle = h ∧ x.player = p
  handle_eq : ∀ h x, s.session? h = some x → x.handle = h
  size_le : s.sessions.size ≤ s.capacity
  no_teleport : ∀ p h, s.handleOf? p = some h → s.pendingTeleports.get? p = none
  no_selection : ∀ p h, s.handleOf? p = some h → s.pendingSelections.get? p = none
  no_retained : ∀ p h, s.handleOf? p = some h → s.retained.get? p = none
  no_place : ∀ p h, s.handleOf? p = some h → s.lastPlaces.get? p = none
  keys_iff : ∀ p, p ∈ s.retained.keys ↔ p ∈ s.lastPlaces.keys
  lt_next : ∀ h x, s.session? h = some x → h < s.nextHandle

namespace Consistent

variable {s : Store} {h : Handle} {p : Uuid} {x : Session}

theorem empty (capacity : Nat) : (Store.empty capacity).Consistent := by
  constructor <;> simp [Store.empty, handleOf?, session?, Table.mem_keys_iff]

theorem handleOf? (hs : s.Consistent) (hx : s.session? h = some x) :
    s.handleOf? x.player = some h :=
  (hs.handleOf?_iff _ _).2 ⟨x, hx, hs.handle_eq h x hx, rfl⟩

theorem byPlayer?_eq_some_iff (hs : s.Consistent) :
    s.byPlayer? p = some x ↔ s.session? x.handle = some x ∧ x.player = p := by
  simp only [byPlayer?, Option.bind_eq_bind, Option.bind_eq_some_iff]
  constructor
  · rintro ⟨h, hp, hx⟩
    obtain ⟨y, hy, rfl, rfl⟩ := (hs.handleOf?_iff _ _).1 hp
    obtain rfl : y = x := Option.some.inj (hy.symm.trans hx)
    exact ⟨hx, rfl⟩
  · rintro ⟨hx, rfl⟩
    exact ⟨x.handle, hs.handleOf? hx, hx⟩

theorem byPlayer?_eq_none_iff (hs : s.Consistent) :
    s.byPlayer? p = none ↔ s.handleOf? p = none := by
  constructor
  · intro h
    cases hp : s.handleOf? p with
    | none => rfl
    | some k =>
      obtain ⟨x, hx, rfl, rfl⟩ := (hs.handleOf?_iff _ _).1 hp
      rw [hs.byPlayer?_eq_some_iff.2 ⟨hx, rfl⟩] at h
      exact absurd h (by simp)
  · intro h
    simp [byPlayer?, h]

/-- A player has at most one session. -/
theorem handle_unique (hs : s.Consistent) {y : Session} {k : Handle} (hx : s.session? h = some x)
    (hy : s.session? k = some y) (hp : x.player = y.player) : h = k := by
  have hh := hs.handleOf? hx
  rw [hp, hs.handleOf? hy] at hh
  exact (Option.some.inj hh).symm

theorem session?_next (hs : s.Consistent) : s.session? s.nextHandle = none := by
  cases h : s.session? s.nextHandle with
  | none => rfl
  | some x => exact absurd (hs.lt_next _ x h) (UInt32.lt_irrefl _)

theorem close (hs : s.Consistent) (hx : s.session? x.handle = some x) :
    (s.close x).Consistent where
  handleOf?_iff p h := by
    constructor
    · intro hp
      obtain ⟨hne, hp⟩ := handleOf?_of_close hp
      obtain ⟨y, hy, rfl, rfl⟩ := (hs.handleOf?_iff _ _).1 hp
      have hh : y.handle ≠ x.handle := fun hh =>
        hne (congrArg Session.player (session?_inj hx hy hh))
      exact ⟨y, by rw [session?_close, if_neg hh, hy], rfl, rfl⟩
    · rintro ⟨y, hy, rfl, rfl⟩
      obtain ⟨hh, hy⟩ := session?_of_close hy
      rw [handleOf?_close, if_neg fun hp => hh (hs.handle_unique hy hx hp), hs.handleOf? hy]
  handle_eq h y hy := hs.handle_eq h y (session?_of_close hy).2
  size_le := by
    have hsize : (s.close x).sessions.size + 1 = s.sessions.size := Table.size_erase hx
    have hcap : (s.close x).capacity = s.capacity := rfl
    have := hs.size_le
    omega
  no_teleport p h hp := hs.no_teleport p h (handleOf?_of_close hp).2
  no_selection p h hp := hs.no_selection p h (handleOf?_of_close hp).2
  no_retained p h hp := by
    obtain ⟨hne, hp⟩ := handleOf?_of_close hp
    exact Table.get?_insert.trans ((if_neg hne.symm).trans (hs.no_retained p h hp))
  no_place p h hp := by
    obtain ⟨hne, hp⟩ := handleOf?_of_close hp
    exact Table.get?_insert.trans ((if_neg hne.symm).trans (hs.no_place p h hp))
  keys_iff p := by
    have hp := hs.keys_iff p
    simp only [Store.close, Table.mem_keys_iff, Table.get?_insert] at hp ⊢
    split
    · simp
    · exact hp
  lt_next h y hy := hs.lt_next h y (session?_of_close hy).2

/-- Whoever is let in takes along what waited for them. -/
theorem get?_erase_of_accept {α : Type} {t : Table Uuid α}
    (hp : (s.accept x).handleOf? p = some h) (ht : s.handleOf? p = some h → t.get? p = none) :
    (t.erase x.player).get? p = none := by
  rw [Table.get?_erase]
  rcases handleOf?_of_accept hp with ⟨rfl, -⟩ | ⟨hne, hp⟩
  · exact if_pos rfl
  · rw [if_neg hne, ht hp]

theorem accept (hs : s.Consistent) (hp : s.handleOf? x.player = none) (hx : x.handle = s.nextHandle)
    (room : s.sessions.size < s.capacity) (hn : s.nextHandle.toNat + 1 < 2 ^ 32) :
    (s.accept x).Consistent where
  handleOf?_iff p h := by
    constructor
    · intro hq
      rcases handleOf?_of_accept hq with ⟨rfl, rfl⟩ | ⟨-, hq⟩
      · exact ⟨x, by rw [session?_accept, if_pos rfl], rfl, rfl⟩
      · obtain ⟨y, hy, rfl, rfl⟩ := (hs.handleOf?_iff _ _).1 hq
        have hne : x.handle ≠ y.handle := by
          intro he
          rw [← he, hx, hs.session?_next] at hy
          cases hy
        exact ⟨y, by rw [session?_accept, if_neg hne, hy], rfl, rfl⟩
    · rintro ⟨y, hy, rfl, rfl⟩
      rcases session?_of_accept hy with ⟨-, rfl⟩ | ⟨hne, hy⟩
      · rw [handleOf?_accept, if_pos rfl]
      · have hq : x.player ≠ y.player := by
          intro hq
          rw [hq, hs.handleOf? hy] at hp
          cases hp
        rw [handleOf?_accept, if_neg hq, hs.handleOf? hy]
  handle_eq h y hy := by
    rcases session?_of_accept hy with ⟨rfl, rfl⟩ | ⟨-, hy⟩
    · rfl
    · exact hs.handle_eq h y hy
  size_le := by
    have hsize : (s.accept x).sessions.size = s.sessions.size + 1 :=
      Table.size_insert (hx ▸ hs.session?_next)
    have hcap : (s.accept x).capacity = s.capacity := rfl
    omega
  no_teleport p h hq := get?_erase_of_accept hq (hs.no_teleport p h)
  no_selection p h hq := get?_erase_of_accept hq (hs.no_selection p h)
  no_retained p h hq := get?_erase_of_accept hq (hs.no_retained p h)
  no_place p h hq := get?_erase_of_accept hq (hs.no_place p h)
  keys_iff p := by
    have hp := hs.keys_iff p
    simp only [Store.accept, Table.mem_keys_iff, Table.get?_erase] at hp ⊢
    split
    · exact Iff.rfl
    · exact hp
  lt_next h y hy := by
    have hnext : (s.accept x).nextHandle.toNat = s.nextHandle.toNat + 1 :=
      UInt32.toNat_add .. |>.trans (Nat.mod_eq_of_lt hn)
    rw [UInt32.lt_iff_toNat_lt, hnext]
    rcases session?_of_accept hy with ⟨rfl, -⟩ | ⟨-, hy⟩
    · rw [hx]; omega
    · have := UInt32.lt_iff_toNat_lt.1 (hs.lt_next h y hy)
      omega

theorem revise {f : Handle → Session → Session} (hs : s.Consistent) : (s.revise f).Consistent where
  handleOf?_iff p h := by
    rw [session?_revise]
    simp only [Store.handleOf?, Store.revise, Option.map_eq_some_iff]
    apply (hs.handleOf?_iff p h).trans
    constructor
    · rintro ⟨x, hx, h⟩
      exact ⟨_, ⟨x, hx, rfl⟩, h⟩
    · rintro ⟨_, ⟨x, hx, rfl⟩, h⟩
      exact ⟨x, hx, h⟩
  handle_eq h y hy := by
    rw [session?_revise] at hy
    obtain ⟨x, hx, rfl⟩ := Option.map_eq_some_iff.1 hy
    exact hs.handle_eq h x hx
  size_le := by simpa [Store.revise] using hs.size_le
  no_teleport := hs.no_teleport
  no_selection := hs.no_selection
  no_retained := hs.no_retained
  no_place := hs.no_place
  keys_iff := hs.keys_iff
  lt_next h y hy := by
    rw [session?_revise] at hy
    obtain ⟨x, hx, rfl⟩ := Option.map_eq_some_iff.1 hy
    exact hs.lt_next h x hx

theorem parkTeleport {r : TeleportRequest} (hs : s.Consistent)
    (hp : s.handleOf? r.player = none) : (s.parkTeleport r).Consistent where
  handleOf?_iff := hs.handleOf?_iff
  handle_eq := hs.handle_eq
  size_le := hs.size_le
  no_teleport q h hq := by
    have hne : r.player ≠ q := by rintro rfl; cases hp.symm.trans hq
    exact Table.get?_insert.trans ((if_neg hne).trans (hs.no_teleport q h hq))
  no_selection := hs.no_selection
  no_retained := hs.no_retained
  no_place := hs.no_place
  keys_iff := hs.keys_iff
  lt_next := hs.lt_next

theorem parkSelection {m : MirrorRequest} (hs : s.Consistent)
    (hp : s.handleOf? m.player = none) : (s.parkSelection m).Consistent where
  handleOf?_iff := hs.handleOf?_iff
  handle_eq := hs.handle_eq
  size_le := hs.size_le
  no_teleport := hs.no_teleport
  no_selection q h hq := by
    have hne : m.player ≠ q := by rintro rfl; cases hp.symm.trans hq
    exact Table.get?_insert.trans ((if_neg hne).trans (hs.no_selection q h hq))
  no_retained := hs.no_retained
  no_place := hs.no_place
  keys_iff := hs.keys_iff
  lt_next := hs.lt_next

end Consistent

section operations

variable {s : Store} {h : Handle} {p : Uuid} {x : Session}

theorem Consistent.disconnect_eq (hs : s.Consistent) (hx : s.session? x.handle = some x) :
    s.disconnect x.handle = (some { x with selections := {} }, s.close x) :=
  disconnect_of_some hx (hs.handleOf? hx)

theorem Consistent.leave_eq (hs : s.Consistent) (hx : s.session? x.handle = some x) :
    s.leave x.player = s.close x :=
  leave_of_some hx (hs.handleOf? hx)

/-- Whoever leaves is not connected, and the server is not full. -/
theorem Consistent.leave_cases (hs : s.Consistent) (p : Uuid) :
    (s.handleOf? p = none ∧ s.leave p = s) ∨
    ∃ x, s.session? x.handle = some x ∧ x.player = p ∧ s.leave p = s.close x ∧
      (s.leave p).sessions.size < s.capacity := by
  cases hp : s.handleOf? p with
  | none => exact .inl ⟨rfl, leave_of_none hp⟩
  | some k =>
    obtain ⟨x, hx, rfl, rfl⟩ := (hs.handleOf?_iff _ _).1 hp
    refine .inr ⟨x, hx, rfl, hs.leave_eq hx, ?_⟩
    have hsize : (s.close x).sessions.size + 1 = s.sessions.size := Table.size_erase hx
    have := hs.size_le
    rw [hs.leave_eq hx]; omega

theorem Consistent.leave (hs : s.Consistent) (p : Uuid) : (s.leave p).Consistent := by
  rcases hs.leave_cases p with ⟨-, h⟩ | ⟨x, hx, -, h, -⟩
  · rwa [h]
  · rw [h]; exact hs.close hx

theorem Consistent.handleOf?_leave (hs : s.Consistent) (p : Uuid) :
    (s.leave p).handleOf? p = none := by
  rcases hs.leave_cases p with ⟨hp, h⟩ | ⟨x, -, rfl, h, -⟩
  · rw [h, hp]
  · rw [h, handleOf?_close, if_pos rfl]

theorem Consistent.connect_cases (hs : s.Consistent) (p : Uuid) (addr : Address) (spawn : Avatar)
    (ws : Worlds) (now : Nat) :
    (s.handleOf? p = none ∧ s.capacity ≤ s.sessions.size ∧
      s.connect p addr spawn ws now = (none, s)) ∨
    (s.leave p).sessions.size < s.capacity ∧
      ∃ a, a.avatar = ((s.leave p).opening p addr spawn ws now).avatar ∧
        s.connect p addr spawn ws now =
          (some a, (s.leave p).accept ((s.leave p).opening p addr spawn ws now)) := by
  by_cases hroom : (s.leave p).sessions.size < s.capacity
  · exact .inr ⟨hroom, connect_of_room hroom⟩
  · rcases hs.leave_cases p with ⟨hp, h⟩ | ⟨x, -, -, -, h⟩
    · rw [h] at hroom
      have hfull := Nat.not_lt.1 hroom
      exact .inl ⟨hp, hfull, connect_of_full hp hfull⟩
    · exact absurd h hroom

end operations

/-- What one event can do to a store, and whether it opens a session. -/
inductive Change (s : Store) : Bool → Store → Prop where
  | none : Change s false s
  | close {x : Session} : s.session? x.handle = some x → Change s false (s.close x)
  | revise (f : Handle → Session → Session) : Change s false (s.revise f)
  | parkTeleport {r : TeleportRequest} : s.handleOf? r.player = none →
      Change s false (s.parkTeleport r)
  | parkSelection {m : MirrorRequest} : s.handleOf? m.player = none →
      Change s false (s.parkSelection m)
  | accept {x : Session} : x.handle = s.nextHandle →
      (s.leave x.player).sessions.size < s.capacity →
      Change s true ((s.leave x.player).accept x)

theorem Consistent.change {s : Store} (hs : s.Consistent) (e : StoreEvent) :
    s.Change (s.opens e) (s.after e) := by
  cases e with
  | connect p addr spawn ws now =>
    rcases hs.connect_cases p addr spawn ws now with ⟨-, -, h⟩ | ⟨hroom, a, -, h⟩
    · simp only [opens, Store.after, h]
      exact .none
    · have hx : ((s.leave p).opening p addr spawn ws now).handle = s.nextHandle := by
        rw [opening_eq, leave_nextHandle]
      have hp : ((s.leave p).opening p addr spawn ws now).player = p := by rw [opening_eq]
      have hc := Change.accept hx (by rwa [hp])
      rw [hp] at hc
      simpa only [opens, Store.after, h, Option.isSome_some] using hc
  | disconnect h =>
    cases hx : s.session? h with
    | none =>
      rw [Store.after, disconnect_of_none hx]
      exact .none
    | some x =>
      obtain rfl := hs.handle_eq h x hx
      rw [Store.after, hs.disconnect_eq hx]
      exact .close hx
  | teleport r ws =>
    cases hx : s.byPlayer? r.player with
    | none =>
      rw [Store.after, teleport_of_none hx]
      exact .parkTeleport (hs.byPlayer?_eq_none_iff.1 hx)
    | some x =>
      rw [Store.after, teleport_of_some hx, modify_eq_revise Session.kept_teleport]
      exact .revise _
  | mirror m =>
    cases hx : s.byPlayer? m.player with
    | none =>
      rw [Store.after, mirror_of_none hx]
      exact .parkSelection (hs.byPlayer?_eq_none_iff.1 hx)
    | some x =>
      rw [Store.after, mirror_of_some hx, modify_eq_revise Session.kept_receiveSelection]
      exact .revise _
  | edit f => exact .revise f

namespace Change

variable {s t : Store} {b : Bool} {h : Handle}

theorem consistent (hc : s.Change b t) (hs : s.Consistent)
    (hn : s.nextHandle.toNat + b.toNat < 2 ^ 32) : t.Consistent := by
  cases hc with
  | none => exact hs
  | close hx => exact hs.close hx
  | revise f => exact hs.revise
  | parkTeleport hp => exact hs.parkTeleport hp
  | parkSelection hp => exact hs.parkSelection hp
  | accept hx room =>
    refine (hs.leave _).accept (hs.handleOf?_leave _) ?_ ?_ ?_
    · rwa [leave_nextHandle]
    · rwa [leave_capacity]
    · rwa [leave_nextHandle]

theorem toNat_nextHandle (hc : s.Change b t) (hn : s.nextHandle.toNat + b.toNat < 2 ^ 32) :
    t.nextHandle.toNat = s.nextHandle.toNat + b.toNat := by
  cases hc with
  | accept hx room =>
    simp only [Store.accept, leave_nextHandle, UInt32.toNat_add]
    exact Nat.mod_eq_of_lt hn
  | _ => rfl

theorem capacity (hc : s.Change b t) : t.capacity = s.capacity := by
  cases hc with
  | accept hx room => exact leave_capacity
  | _ => rfl

/-- A handle that was handed out and is free again stays free. -/
theorem session?_eq_none (hc : s.Change b t) (hs : s.Consistent) (hlt : h < s.nextHandle)
    (hh : s.session? h = .none) : t.session? h = .none := by
  cases hc with
  | none | parkTeleport | parkSelection => exact hh
  | close hx => rw [session?_close, hh, ite_self]
  | revise f => rw [session?_revise, hh]; rfl
  | @accept x hx room =>
    have hne : x.handle ≠ h := by
      rintro rfl
      exact UInt32.lt_irrefl _ (hx ▸ hlt)
    rw [session?_accept, if_neg hne]
    rcases hs.leave_cases x.player with ⟨-, hl⟩ | ⟨y, -, -, hl, -⟩
    · rwa [hl]
    · rw [hl, session?_close, hh, ite_self]

end Change

section runs

variable {s : Store} {h : Handle}

theorem Consistent.after (hs : s.Consistent) {e : StoreEvent} (h : s.opens e = false) :
    (s.after e).Consistent := by
  refine (hs.change e).consistent hs ?_
  rw [h]
  exact s.nextHandle.toNat_lt

theorem Consistent.lasts_cons {e : StoreEvent} {es : List StoreEvent} (hs : s.Consistent)
    (hn : s.Lasts (e :: es)) :
    (s.after e).Consistent ∧ (s.after e).Lasts es ∧
      (s.after e).nextHandle.toNat = s.nextHandle.toNat + (s.opens e).toNat := by
  unfold Lasts at hn ⊢
  simp only [opened] at hn
  have hc := hs.change e
  have hnext := hc.toNat_nextHandle (by omega)
  exact ⟨hc.consistent hs (by omega), by omega, hnext⟩

theorem Consistent.run (hs : s.Consistent) (es : List StoreEvent) (hn : s.Lasts es) :
    (s.run es).Consistent ∧ (s.run es).nextHandle.toNat = s.nextHandle.toNat + s.opened es ∧
      (s.run es).capacity = s.capacity := by
  induction es generalizing s with
  | nil => exact ⟨hs, rfl, rfl⟩
  | cons e es ih =>
    obtain ⟨hs', hn', hnext⟩ := hs.lasts_cons hn
    obtain ⟨hrun, hnext', hcap⟩ := ih hs' hn'
    refine ⟨hrun, ?_, hcap.trans (hs.change e).capacity⟩
    rw [run_cons, hnext', hnext]
    simp only [opened]; omega

theorem Consistent.lasts_append {es fs : List StoreEvent} (hs : s.Consistent)
    (hn : s.Lasts (es ++ fs)) : (s.run es).Consistent ∧ (s.run es).Lasts fs := by
  obtain ⟨hrun, hnext, -⟩ := hs.run es (lasts_of_append hn)
  refine ⟨hrun, ?_⟩
  unfold Lasts at hn ⊢
  rw [opened_append] at hn
  omega

theorem Consistent.session?_run (hs : s.Consistent) (es : List StoreEvent) (hn : s.Lasts es)
    (hlt : h < s.nextHandle) (hh : s.session? h = none) : (s.run es).session? h = none := by
  induction es generalizing s with
  | nil => exact hh
  | cons e es ih =>
    obtain ⟨hs', hn', hnext⟩ := hs.lasts_cons hn
    refine ih hs' hn' ?_ ((hs.change e).session?_eq_none hs hlt hh)
    have := UInt32.lt_iff_toNat_lt.1 hlt
    rw [UInt32.lt_iff_toNat_lt, hnext]; omega

theorem Reachable.consistent (hs : s.Reachable) : s.Consistent := by
  obtain ⟨capacity, es, hn, rfl⟩ := hs
  exact ((Consistent.empty capacity).run es (lasts_empty hn)).1

/-- Short of an overflow of the handles, every run leaves a consistent store in which no handle is
used twice, so that a late disconnect does nothing, and in which a refusal changes nothing. -/
theorem run_empty_consistent (capacity : Nat) (es : List StoreEvent)
    (hn : (empty capacity).opened es < handleLimit) :
    ((empty capacity).run es).Consistent ∧
    ((empty capacity).run es).sessions.size ≤ capacity ∧
    (∀ before between later h x, es = before ++ between ++ later →
      ((empty capacity).run before).session? h = some x →
      ((empty capacity).run (before ++ between)).session? h = none →
      ((empty capacity).run es).session? h = none ∧
        ((empty capacity).run es).disconnect h = (none, (empty capacity).run es)) ∧
    ∀ p addr spawn ws now,
      (((empty capacity).run es).connect p addr spawn ws now).1 = none →
      ((empty capacity).run es).handleOf? p = none ∧
        (((empty capacity).run es).connect p addr spawn ws now).2 = (empty capacity).run es := by
  have hempty := Consistent.empty capacity
  have hn := lasts_empty hn
  obtain ⟨hs, -, hcap⟩ := hempty.run es hn
  refine ⟨hs, Nat.le_trans hs.size_le (Nat.le_of_eq hcap), ?_, ?_⟩
  · rintro before between later h x rfl hlive hclosed
    rw [List.append_assoc] at hn
    obtain ⟨hs₁, hn₁⟩ := hempty.lasts_append hn
    obtain ⟨hs₂, hn₂⟩ := hs₁.lasts_append hn₁
    obtain ⟨-, hnext, -⟩ := hs₁.run between (lasts_of_append hn₁)
    have hlt := UInt32.lt_iff_toNat_lt.1 (hs₁.lt_next h x hlive)
    have hlt₂ : h < (((empty capacity).run before).run between).nextHandle := by
      rw [UInt32.lt_iff_toNat_lt]; omega
    rw [run_append] at hclosed
    have hspent := hs₂.session?_run later hn₂ hlt₂ hclosed
    rw [run_append, run_append]
    exact ⟨hspent, disconnect_of_none hspent⟩
  · intro p addr spawn ws now hnone
    rcases hs.connect_cases p addr spawn ws now with ⟨hp, -, hc⟩ | ⟨-, a, -, hc⟩
    · exact ⟨hp, by rw [hc]⟩
    · rw [hc] at hnone; cases hnone

end runs

/-- A timeout for the first session of a player who has come back. -/
theorem disconnect_first_of_reconnected :
    let join : StoreEvent := .connect Sample.player Sample.address Sample.avatar {} 0
    let s := (empty 1).run [join, .disconnect 1, join]
    (empty 1).opened [join, .disconnect 1, join] < handleLimit ∧
      (s.handleOf? Sample.player).isSome ∧ s.disconnect 1 = (none, s) := by
  intro join s
  have hn : (empty 1).opened [join, .disconnect 1, join] < handleLimit := by decide
  have hlive : (((empty 1).run [join]).session? 1).isSome := by decide
  obtain ⟨x, hx⟩ := Option.isSome_iff_exists.1 hlive
  have h := (run_empty_consistent 1 _ hn).2.2.1 [join] [.disconnect 1] [join] 1 x rfl hx (by decide)
  exact ⟨hn, by decide, h.2⟩

end PortalNet.Store
