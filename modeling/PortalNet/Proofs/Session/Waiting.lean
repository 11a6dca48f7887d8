import PortalNet.Proofs.Session.Presence

/-! # Requests in waiting

A parked teleport waits through everything but a later one for its player and the arrival of the
player, whom it then moves.
-/

namespace PortalNet

/-- The event asks for the player to come in, or to go somewhere. -/
def StoreEvent.Calls (p : Uuid) : StoreEvent → Prop
  | .connect q .. => q = p
  | .teleport r _ => r.player = p
  | _ => False

namespace Store

/-- The player is not connected, and this request waits for them. -/
structure Awaits (s : Store) (p : Uuid) (r : TeleportRequest) : Prop where
  offline : s.handleOf? p = none
  absent : ∀ h x, s.session? h = some x → x.player ≠ p
  waiting : s.pendingTeleports.get? p = some r

theorem Consistent.awaits {s : Store} {p : Uuid} {r : TeleportRequest}
    {left : Option (Avatar × Selections)} {d : Option ExternalSelection} (hs : s.Consistent)
    (h : s.presence p = .away left (some r) d) : s.Awaits p r := by
  have hx := byPlayer?_of_presence h
  have hp := hs.byPlayer?_eq_none_iff.1 hx
  refine ⟨hp, ?_, ?_⟩
  · rintro k x hk rfl
    rw [hs.handleOf? hk] at hp
    cases hp
  · rw [presence_of_none hx] at h
    injection h

namespace Awaits

variable {s : Store} {p q : Uuid} {r request : TeleportRequest} {x : Session} {k : Handle}
  {addr : Address} {spawn : Avatar} {ws : Worlds} {now : Nat}

theorem disconnect (h : s.Awaits p r) : (s.disconnect k).2.Awaits p r := by
  cases hx : s.session? k with
  | none => rwa [disconnect_of_none hx]
  | some x =>
    simp only [Store.disconnect, hx]
    refine ⟨?_, ?_, h.waiting⟩
    · change (if _ then _ else _ : Table Uuid Handle).get? p = none
      split
      · rw [Table.get?_erase]
        split
        · rfl
        · exact h.offline
      · exact h.offline
    · intro j y hy
      have hy : (s.sessions.erase k).get? j = some y := hy
      rw [Table.get?_erase] at hy
      split at hy
      · cases hy
      · exact h.absent j y hy

theorem lastPlaces_disconnect (h : s.Awaits p r) :
    (s.disconnect k).2.lastPlaces.get? p = s.lastPlaces.get? p := by
  cases hx : s.session? k with
  | none => rw [disconnect_of_none hx]
  | some x =>
    simp only [Store.disconnect, hx]
    exact Table.get?_insert.trans (if_neg (h.absent k x hx))

theorem leave (h : s.Awaits p r) : (s.leave q).Awaits p r := by
  unfold Store.leave
  split
  · exact h.disconnect
  · exact h

theorem accept (h : s.Awaits p r) (hx : x.player ≠ p) : (s.accept x).Awaits p r where
  offline := by rw [handleOf?_accept, if_neg hx, h.offline]
  absent j y hy := by
    rcases session?_of_accept hy with ⟨-, rfl⟩ | ⟨-, hy⟩
    · exact hx
    · exact h.absent j y hy
  waiting := Table.get?_erase.trans ((if_neg hx.symm).trans h.waiting)

theorem connect (h : s.Awaits p r)
    (hp : q = p → (s.connect q addr spawn ws now).2.handleOf? p = none) :
    (s.connect q addr spawn ws now).2.Awaits p r := by
  by_cases hroom : (s.leave q).sessions.size < s.capacity
  · obtain ⟨a, -, hc⟩ := @connect_of_room s q addr spawn ws now hroom
    rw [hc, opening_eq] at hp ⊢
    refine h.leave.accept ?_
    rintro rfl
    have hin := hp rfl
    rw [handleOf?_accept, if_pos rfl] at hin
    cases hin
  · have hfull : (s.leave q).capacity ≤ (s.leave q).sessions.size := by
      rw [leave_capacity]
      exact Nat.not_lt.1 hroom
    simp only [Store.connect, hfull, if_true]
    exact h.leave

theorem revise (h : s.Awaits p r) {f : Handle → Session → Session} : (s.revise f).Awaits p r where
  offline := h.offline
  absent j y hy := by
    rw [session?_revise] at hy
    obtain ⟨x, hx, rfl⟩ := Option.map_eq_some_iff.1 hy
    exact h.absent j x hx
  waiting := h.waiting

theorem modify (h : s.Awaits p r) {f : Session → Session} (hf : Session.Kept f) :
    (s.modify k f).Awaits p r := by
  rw [modify_eq_revise hf]
  exact h.revise

theorem teleport (h : s.Awaits p r) (hp : request.player ≠ p) :
    (s.teleport request ws).2.Awaits p r := by
  cases hx : s.byPlayer? request.player with
  | some x =>
    rw [teleport_of_some hx]
    exact h.modify Session.kept_teleport
  | none =>
    rw [teleport_of_none hx]
    exact ⟨h.offline, h.absent, Table.get?_insert.trans ((if_neg hp).trans h.waiting)⟩

theorem mirror (h : s.Awaits p r) {m : MirrorRequest} : (s.mirror m).2.Awaits p r := by
  cases hx : s.byPlayer? m.player with
  | some x =>
    rw [mirror_of_some hx]
    exact h.modify Session.kept_receiveSelection
  | none =>
    rw [mirror_of_none hx]
    exact ⟨h.offline, h.absent, h.waiting⟩

/-- Nothing but these two events concerns whoever is away. -/
theorem after (h : s.Awaits p r) {e : StoreEvent} (he : ¬ e.Calls p) : (s.after e).Awaits p r := by
  cases e with
  | connect q addr spawn ws now => exact h.connect fun hq => absurd hq he
  | disconnect k => exact h.disconnect
  | teleport request ws => exact h.teleport he
  | mirror m => exact h.mirror
  | edit f => exact h.revise

theorem run (h : s.Awaits p r) {es : List StoreEvent} (hes : ∀ e ∈ es, ¬ e.Calls p) :
    (s.run es).Awaits p r := by
  induction es generalizing s with
  | nil => exact h
  | cons e es ih =>
    exact ih (h.after (hes e List.mem_cons_self)) fun i hi => hes i (List.mem_cons_of_mem _ hi)

/-- If the player is let in, they appear where the request says. -/
theorem arrives (h : s.Awaits p r) (hin : (s.connect p addr spawn ws now).2.handleOf? p ≠ none) :
    ∃ a, (s.connect p addr spawn ws now).1 = some a ∧
      a.avatar = ((s.lastPlaces.get? p).getD spawn).teleported r ws := by
  have hl := leave_of_none h.offline
  by_cases hroom : s.sessions.size < s.capacity
  · obtain ⟨a, ha, hc⟩ := @connect_of_room s p addr spawn ws now (by rwa [hl])
    refine ⟨a, by rw [hc], ?_⟩
    rw [ha, hl, opening_eq, h.waiting]
    rfl
  · rw [connect_of_full h.offline (Nat.not_lt.1 hroom)] at hin
    exact absurd h.offline hin

end Awaits

end Store

end PortalNet
