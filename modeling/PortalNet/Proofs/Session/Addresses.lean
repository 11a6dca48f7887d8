import PortalNet.Proofs.Session.Consistency

/-! # Addresses of sessions

As long as a session is only opened where nobody is, no two sessions share an address, and whoever
sends from an address is one player or nobody. This holds even after the handles have overflowed.
-/

namespace PortalNet

/-- The event opens no session and leaves a part of every session as it is. -/
def StoreEvent.Keeps {α : Type} (part : Session → α) : StoreEvent → Prop
  | .connect .. => False
  | .disconnect _ => True
  | .teleport r ws => ∀ x, part (x.teleport r ws) = part x
  | .mirror m => ∀ x, part (x.receiveSelection m.selection) = part x
  | .edit change => ∀ h x, part (x.become (change h x)) = part x

theorem StoreEvent.keeps_modify {α : Type} {part : Session → α} {h : Handle}
    {f : Session → Session} (hf : ∀ x, part (x.become (f x)) = part x) :
    (modify h f).Keeps part := by
  intro k x
  dsimp only
  split
  · exact hf x
  · rfl

/-- Where to find a session. -/
def Session.seat (x : Session) : Handle × Address :=
  (x.handle, x.addr)

namespace Store

/-- No two sessions share an address. -/
structure Addressed (s : Store) : Prop where
  handle_eq : ∀ h x, s.session? h = some x → x.handle = h
  inj : ∀ h k x y, s.session? h = some x → s.session? k = some y → x.addr = y.addr → h = k
  size_le : s.sessions.size ≤ s.capacity

/-- The sessions of `t` are among those of `s`, and a part of them is as it was. -/
structure Narrows {α : Type} (part : Session → α) (s t : Store) : Prop where
  session? : ∀ h y, t.session? h = some y → ∃ x, s.session? h = some x ∧ part y = part x
  size_le : t.sessions.size ≤ s.sessions.size
  capacity : t.capacity = s.capacity

/-- What waits for players who come has been left alone. -/
structure Unclaimed (s t : Store) : Prop where
  pendingTeleports : t.pendingTeleports = s.pendingTeleports
  pendingSelections : t.pendingSelections = s.pendingSelections
  nextHandle : t.nextHandle = s.nextHandle

section disconnect

variable {s : Store} {h k : Handle} {p : Uuid} {x : Session}

theorem session?_disconnect :
    (s.disconnect h).2.session? k = if k = h then none else s.session? k := by
  unfold disconnect
  split
  · next hx =>
    split
    · next hk => rw [hk, hx]
    · rfl
  · exact Table.get?_erase

theorem size_disconnect (hx : s.session? h = some x) :
    (s.disconnect h).2.sessions.size + 1 = s.sessions.size := by
  unfold disconnect
  rw [hx]
  exact Table.size_erase hx

theorem capacity_disconnect : (s.disconnect h).2.capacity = s.capacity := by
  unfold disconnect
  split <;> rfl

/-- Whatever holds of a store and of any store after a disconnect holds after a player has left. -/
theorem leave_induction {motive : Store → Prop} (none : motive s)
    (disconnect : ∀ h, motive (s.disconnect h).2) : motive (s.leave p) := by
  unfold leave
  split
  · exact disconnect _
  · exact none

theorem Unclaimed.refl : s.Unclaimed s :=
  ⟨rfl, rfl, rfl⟩

theorem Unclaimed.trans {t u : Store} (h : s.Unclaimed t) (k : t.Unclaimed u) : s.Unclaimed u :=
  ⟨k.pendingTeleports.trans h.pendingTeleports, k.pendingSelections.trans h.pendingSelections,
    k.nextHandle.trans h.nextHandle⟩

theorem unclaimed_disconnect : s.Unclaimed (s.disconnect h).2 := by
  unfold disconnect
  split <;> exact ⟨rfl, rfl, rfl⟩

theorem unclaimed_leave : s.Unclaimed (s.leave p) :=
  leave_induction .refl fun _ => unclaimed_disconnect

theorem Consistent.session?_leave_iff (hs : s.Consistent) :
    (s.leave p).session? h = some x ↔ s.session? h = some x ∧ x.player ≠ p := by
  rcases hs.leave_cases p with ⟨hp, hl⟩ | ⟨y, hy, rfl, hl, -⟩
  · rw [hl, iff_self_and]
    rintro hx rfl
    cases hp.symm.trans (hs.handleOf? hx)
  · rw [hl]
    constructor
    · intro hx
      obtain ⟨hh, hx⟩ := session?_of_close hx
      exact ⟨hx, fun hp => hh (hs.handle_unique hx hy hp)⟩
    · rintro ⟨hx, hp⟩
      rw [session?_close, if_neg, hx]
      rintro rfl
      exact hp (congrArg Session.player (Option.some.inj (hx.symm.trans hy)))

end disconnect

namespace Narrows

variable {α : Type} {part : Session → α} {s t u : Store} {h : Handle} {p : Uuid} {e : StoreEvent}
  {es : List StoreEvent}

theorem refl : s.Narrows part s :=
  ⟨fun _ y hy => ⟨y, hy, rfl⟩, Nat.le_refl _, rfl⟩

theorem trans (hst : s.Narrows part t) (htu : t.Narrows part u) : s.Narrows part u := by
  refine ⟨fun h z hz => ?_, Nat.le_trans htu.size_le hst.size_le,
    htu.capacity.trans hst.capacity⟩
  obtain ⟨y, hy, hzy⟩ := htu.session? h z hz
  obtain ⟨x, hx, hyx⟩ := hst.session? h y hy
  exact ⟨x, hx, hzy.trans hyx⟩

theorem disconnect : s.Narrows part (s.disconnect h).2 := by
  refine ⟨fun k y hy => ?_, ?_, capacity_disconnect⟩
  · rw [session?_disconnect] at hy
    split at hy
    · cases hy
    · exact ⟨y, hy, rfl⟩
  · cases hx : s.session? h with
    | none => exact Nat.le_of_eq (by rw [disconnect_of_none hx])
    | some x => exact Nat.le_of_succ_le (Nat.le_of_eq (size_disconnect hx))

theorem leave : s.Narrows part (s.leave p) :=
  leave_induction .refl fun _ => .disconnect

theorem revise {f : Handle → Session → Session} (hf : (StoreEvent.edit f).Keeps part) :
    s.Narrows part (s.revise f) := by
  refine ⟨fun h y hy => ?_, Nat.le_of_eq Table.size_mapValues, rfl⟩
  rw [session?_revise] at hy
  obtain ⟨x, hx, rfl⟩ := Option.map_eq_some_iff.1 hy
  exact ⟨x, hx, hf h x⟩

theorem modify {f : Session → Session} (hf : ∀ x, part (f x) = part x) :
    s.Narrows part (s.modify h f) := by
  refine ⟨fun k y hy => ?_, Nat.le_of_eq Table.size_modify, rfl⟩
  have hget : (s.modify h f).session? k = if k = h then (s.session? k).map f else s.session? k :=
    Table.get?_modify
  rw [hget] at hy
  split at hy
  · obtain ⟨x, hx, rfl⟩ := Option.map_eq_some_iff.1 hy
    exact ⟨x, hx, hf x⟩
  · exact ⟨y, hy, rfl⟩

theorem of_keeps (he : e.Keeps part) : s.Narrows part (s.after e) := by
  cases e with
  | connect => exact he.elim
  | disconnect h => exact disconnect
  | edit f => exact revise he
  | teleport r ws =>
    cases hx : s.byPlayer? r.player with
    | none =>
      rw [after, teleport_of_none hx]
      exact ⟨fun _ y hy => ⟨y, hy, rfl⟩, Nat.le_refl _, rfl⟩
    | some x =>
      rw [after, teleport_of_some hx]
      exact modify he
  | mirror m =>
    cases hx : s.byPlayer? m.player with
    | none =>
      rw [after, mirror_of_none hx]
      exact ⟨fun _ y hy => ⟨y, hy, rfl⟩, Nat.le_refl _, rfl⟩
    | some x =>
      rw [after, mirror_of_some hx]
      exact modify he

theorem run (hes : ∀ e ∈ es, e.Keeps part) : s.Narrows part (s.run es) := by
  induction es generalizing s with
  | nil => exact .refl
  | cons e es ih =>
    exact (of_keeps (hes e List.mem_cons_self)).trans
      (ih fun i hi => hes i (List.mem_cons_of_mem _ hi))

end Narrows

namespace Addressed

variable {s t : Store} {h : Handle} {p : Uuid} {x : Session} {addr : Address} {spawn : Avatar}
  {ws : Worlds} {now : Nat}

theorem empty (capacity : Nat) : (Store.empty capacity).Addressed :=
  ⟨by rintro h x ⟨⟩, by rintro h k x y ⟨⟩, Nat.zero_le _⟩

/-- Looking for the session at an address answers the one that is there. -/
theorem byAddress?_eq_some_iff (hs : s.Addressed) :
    s.byAddress? addr = some h ↔ ∃ x, s.session? h = some x ∧ x.addr = addr := by
  have hfound : ∀ k, s.byAddress? addr = some k → ∃ x, s.session? k = some x ∧ x.addr = addr := by
    intro k hk
    obtain ⟨x, hx, rfl⟩ := Option.map_eq_some_iff.1 hk
    obtain ⟨j, hj⟩ := Table.mem_values_iff.1 (List.mem_of_find?_eq_some hx)
    refine ⟨x, ?_, by simpa using List.find?_some hx⟩
    rw [hs.handle_eq j x hj]
    exact hj
  constructor
  · exact hfound h
  · rintro ⟨x, hx, rfl⟩
    have hsome : (s.byAddress? x.addr).isSome := by
      rw [byAddress?, Option.isSome_map, List.find?_isSome]
      exact ⟨x, Table.mem_values_iff.2 ⟨h, hx⟩, by simp⟩
    obtain ⟨k, hk⟩ := Option.isSome_iff_exists.1 hsome
    obtain ⟨y, hy, hxy⟩ := hfound k hk
    rw [hk, hs.inj k h y x hy hx hxy]

theorem byAddress?_eq_none_iff (hs : s.Addressed) :
    s.byAddress? addr = none ↔ ∀ h x, s.session? h = some x → x.addr ≠ addr := by
  rw [Option.eq_none_iff_forall_ne_some]
  constructor
  · exact fun hno h x hx ha => hno h (hs.byAddress?_eq_some_iff.2 ⟨x, hx, ha⟩)
  · intro hno h hh
    obtain ⟨x, hx, ha⟩ := hs.byAddress?_eq_some_iff.1 hh
    exact hno h x hx ha

theorem narrow (hs : s.Addressed) (ht : s.Narrows Session.seat t) : t.Addressed := by
  refine ⟨fun h y hy => ?_, fun h k y z hy hz ha => ?_, ?_⟩
  · obtain ⟨x, hx, hseat⟩ := ht.session? h y hy
    obtain ⟨hh, -⟩ := Prod.mk.inj hseat
    rw [hh, hs.handle_eq h x hx]
  · obtain ⟨x, hx, hy⟩ := ht.session? h y hy
    obtain ⟨w, hw, hz⟩ := ht.session? k z hz
    exact hs.inj h k x w hx hw ((Prod.mk.inj hy).2.symm.trans (ha.trans (Prod.mk.inj hz).2))
  · rw [ht.capacity]
    exact Nat.le_trans ht.size_le hs.size_le

theorem accept (hs : s.Addressed) (hfree : ∀ h y, s.session? h = some y → y.addr ≠ x.addr)
    (room : s.sessions.size < s.capacity) : (s.accept x).Addressed := by
  refine ⟨fun h y hy => ?_, fun h k y z hy hz ha => ?_, ?_⟩
  · rcases session?_of_accept hy with ⟨rfl, rfl⟩ | ⟨-, hy⟩
    · rfl
    · exact hs.handle_eq h y hy
  · rcases session?_of_accept hy with ⟨rfl, rfl⟩ | ⟨-, hold⟩
    · rcases session?_of_accept hz with ⟨rfl, -⟩ | ⟨-, hold⟩
      · rfl
      · exact absurd ha.symm (hfree k z hold)
    · rcases session?_of_accept hz with ⟨-, rfl⟩ | ⟨-, hold'⟩
      · exact absurd ha (hfree h y hold)
      · exact hs.inj h k y z hold hold' ha
  · exact Nat.le_trans Table.size_insert_le room

/-- A player may be let in at an address where nobody is. -/
theorem connect (hs : s.Addressed) (hfree : ∀ h y, s.session? h = some y → y.addr ≠ addr) :
    (s.connect p addr spawn ws now).2.Addressed := by
  have hnarrows : s.Narrows Session.seat (s.leave p) := .leave
  simp only [Store.connect]
  split
  · exact hs.narrow hnarrows
  · next room =>
    refine (hs.narrow hnarrows).accept (fun h y hy => ?_) (Nat.not_le.1 room)
    obtain ⟨x, hx, hseat⟩ := hnarrows.session? h y hy
    rw [opening_eq, (Prod.mk.inj hseat).2]
    exact hfree h x hx

end Addressed

section refusal

variable {s : Store} {p : Uuid} {addr : Address} {spawn : Avatar} {ws : Worlds} {now : Nat}

/-- Only somebody without a session is refused, by a full server, and nothing changes. -/
theorem Addressed.connect_of_none (hs : s.Addressed)
    (h : (s.connect p addr spawn ws now).1 = none) :
    s.byPlayer? p = none ∧ s.capacity ≤ s.sessions.size ∧
      s.connect p addr spawn ws now = (none, s) := by
  have hfull : s.capacity ≤ (s.leave p).sessions.size := by
    refine Nat.not_lt.1 fun hroom => ?_
    obtain ⟨a, -, hc⟩ := @connect_of_room s p addr spawn ws now hroom
    rw [hc] at h
    cases h
  have hout : s.byPlayer? p = none ∧ s.leave p = s := by
    cases hp : s.handleOf? p with
    | none => exact ⟨by simp [byPlayer?, hp], leave_of_none hp⟩
    | some k =>
      rw [← disconnect_eq_leave hp] at hfull ⊢
      cases hx : s.session? k with
      | none => exact ⟨by simp [byPlayer?, hp, hx], by rw [disconnect_of_none hx]⟩
      | some x =>
        have := size_disconnect hx
        have := hs.size_le
        omega
  rw [hout.2] at hfull
  refine ⟨hout.1, hfull, ?_⟩
  simp only [Store.connect, hout.2, hfull, if_true]

theorem byPlayer?_of_connect {a : Arrival} (h : (s.connect p addr spawn ws now).1 = some a) :
    ∃ y, (s.connect p addr spawn ws now).2.byPlayer? p = some y ∧ y.player = p ∧ y.addr = addr ∧
      y.avatar = a.avatar := by
  have hroom : (s.leave p).sessions.size < s.capacity := by
    refine Nat.not_le.1 fun hfull => ?_
    rw [← @leave_capacity s p] at hfull
    simp only [Store.connect, hfull, if_true] at h
    cases h
  obtain ⟨a', ha', hc⟩ := @connect_of_room s p addr spawn ws now hroom
  rw [hc] at h ⊢
  obtain rfl := Option.some.inj h
  refine ⟨(s.leave p).opening p addr spawn ws now, ?_, ?_, ?_, ha'.symm⟩
  · have hp : ((s.leave p).opening p addr spawn ws now).player = p := by rw [opening_eq]
    simp only [byPlayer?, handleOf?_accept, hp, if_true]
    exact session?_accept.trans (if_pos rfl)
  · rw [opening_eq]
  · rw [opening_eq]

end refusal

end Store

end PortalNet
