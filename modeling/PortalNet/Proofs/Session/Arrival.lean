import PortalNet.Proofs.Session.Admission

/-! # Requests racing with their player

Whether a request of another server comes before or after its player makes no difference, with one
exception: a request that names no loaded world takes the place of an older one that waits, and the
world of the older one is lost with it.
-/

namespace PortalNet

namespace TeleportRequest

def world? (r : TeleportRequest) (ws : Worlds) : Option World :=
  ws.resolve? r.worldId (some r.worldName)

/-- The older request would have led to another world, and the newer one leads to none. -/
def Overtakes (newer older : TeleportRequest) (a : Avatar) (ws : Worlds) : Prop :=
  newer.world? ws = none ∧ ∃ w, older.world? ws = some w ∧ w ≠ a.world

end TeleportRequest

theorem Avatar.teleported_teleported_iff {a : Avatar} {older newer : TeleportRequest}
    {ws : Worlds} :
    (a.teleported older ws).teleported newer ws = a.teleported newer ws ↔
      ¬ newer.Overtakes older a ws := by
  have h : (a.teleported older ws).teleported newer ws = a.teleported newer ws ↔
      (newer.world? ws).getD ((older.world? ws).getD a.world) = (newer.world? ws).getD a.world := by
    simp only [teleported, Avatar.mk.injEq, and_true]
    exact Iff.rfl
  rw [h, TeleportRequest.Overtakes]
  cases newer.world? ws with
  | some w => simp
  | none => cases older.world? ws <;> simp

namespace Session

def placed (x : Session) (a : Avatar) : Session :=
  { x with avatar := a }

variable {x : Session} {a b : Avatar}

theorem placed_inj : x.placed a = x.placed b ↔ a = b := by
  constructor
  · exact congrArg avatar
  · rintro rfl
    rfl

theorem teleport_eq {r : TeleportRequest} {ws : Worlds} :
    x.teleport r ws = x.placed (x.avatar.teleported r ws) := rfl

end Session

namespace Store

section accept

variable {s : Store} {x y : Session} {p : Uuid} {f : Session → Session} {ws : Worlds}
  {r : TeleportRequest} {m : MirrorRequest}

theorem byPlayer?_accept_self : (s.accept x).byPlayer? x.player = some x := by
  unfold byPlayer?
  rw [handleOf?_accept, if_pos rfl]
  exact session?_accept.trans (if_pos rfl)

theorem accept_inj (h : x.handle = y.handle) : s.accept x = s.accept y ↔ x = y := by
  constructor
  · intro hs
    have hx := congrArg (session? · x.handle) hs
    simp only [session?_accept, h, if_true] at hx
    exact Option.some.inj hx
  · rintro rfl
    rfl

theorem modify_accept (hf : Session.Kept f) : (s.accept x).modify x.handle f = s.accept (f x) := by
  obtain ⟨hh, hp⟩ := hf x
  simp only [accept, Store.modify, Table.modify_insert_self, hh, hp]

theorem teleport_accept (hp : x.player = r.player) :
    ((s.accept x).teleport r ws).2 = s.accept (x.teleport r ws) := by
  rw [teleport_of_some (hp ▸ byPlayer?_accept_self), modify_accept Session.kept_teleport]

theorem mirror_accept (hp : x.player = m.player) :
    ((s.accept x).mirror m).2 = s.accept (x.receiveSelection m.selection) := by
  rw [mirror_of_some (hp ▸ byPlayer?_accept_self), modify_accept Session.kept_receiveSelection]

theorem accept_parkTeleport (hp : x.player = r.player) :
    (s.parkTeleport r).accept x = s.accept x := by
  simp only [accept, parkTeleport, hp, Table.erase_insert_self]

theorem accept_parkSelection (hp : x.player = m.player) :
    (s.parkSelection m).accept x = s.accept x := by
  simp only [accept, parkSelection, hp, Table.erase_insert_self]

theorem Consistent.leave_modify (hs : s.Consistent) (hx : s.byPlayer? p = some x)
    (hf : Session.Kept f) :
    (s.modify x.handle f).leave p =
      { s.leave p with
        retained := s.retained.insert p (f x).selections
        lastPlaces := s.lastPlaces.insert p (f x).avatar } := by
  obtain ⟨hx', rfl⟩ := hs.byPlayer?_eq_some_iff.1 hx
  obtain ⟨hh, hp⟩ := hf x
  have hfx : (s.modify x.handle f).session? (f x).handle = some (f x) := by
    rw [hh]
    exact Table.get?_modify.trans ((if_pos rfl).trans (congrArg (Option.map f) hx'))
  have hp' : (s.modify x.handle f).handleOf? (f x).player = some (f x).handle := by
    rw [hh, hp]
    exact hs.handleOf? hx'
  have hleave := leave_of_some hfx hp'
  rw [hp] at hleave
  rw [hleave, hs.leave_eq hx']
  simp only [Store.close, Store.modify, hh, hp, Table.erase_modify_self]

theorem Consistent.accept_leave_modify (hs : s.Consistent) (hx : s.byPlayer? p = some x)
    (hf : Session.Kept f) (hp : y.player = p) :
    ((s.modify x.handle f).leave p).accept y = (s.leave p).accept y := by
  rw [hs.leave_modify hx hf]
  obtain ⟨hx', rfl⟩ := hs.byPlayer?_eq_some_iff.1 hx
  simp only [Store.accept, hs.leave_eq hx', Store.close, hp, Table.erase_insert_self]

end accept

section orders

variable {s : Store} {p : Uuid} {x : Session} {f : Session → Session} {addr : Address}
  {spawn : Avatar} {ws : Worlds} {now : Nat}

/-- A session that is changed and then replaced is replaced by a changed session. -/
theorem Consistent.connect_modify (hs : s.Consistent) (hx : s.byPlayer? p = some x)
    (hf : Session.Kept f) :
    ((s.modify x.handle f).connect p addr spawn ws now).2 = (s.leave p).accept {
      handle := s.nextHandle
      player := p
      addr
      avatar := (f x).avatar
      selections := (f x).selections
      lastSeen := now } := by
  have hl := hs.leave_modify hx hf
  obtain ⟨hx', rfl⟩ := hs.byPlayer?_eq_some_iff.1 hx
  have hroom : ((s.modify x.handle f).leave x.player).sessions.size < s.capacity := by
    have hsize : (s.close x).sessions.size + 1 = s.sessions.size := Table.size_erase hx'
    have := hs.size_le
    rw [hl, hs.leave_eq hx']
    change (s.close x).sessions.size < s.capacity
    omega
  obtain ⟨a, -, hc⟩ := connect_of_room (s := s.modify x.handle f) hroom
  have ht : (s.leave x.player).pendingTeleports.get? x.player = none := by
    rw [hs.leave_eq hx']
    exact hs.no_teleport _ _ (hs.handleOf? hx')
  have hd : (s.leave x.player).pendingSelections.get? x.player = none := by
    rw [hs.leave_eq hx']
    exact hs.no_selection _ _ (hs.handleOf? hx')
  rw [hc, hs.accept_leave_modify hx hf (by rw [opening_eq]), opening_eq, hl]
  simp only [Table.get?_insert_self, ht, hd, leave_nextHandle]
  rfl

theorem Consistent.connect_of_some (hs : s.Consistent) (hx : s.byPlayer? p = some x) :
    (s.connect p addr spawn ws now).2 = (s.leave p).accept {
      handle := s.nextHandle
      player := p
      addr
      avatar := x.avatar
      selections := x.selections
      lastSeen := now } := by
  have hc := @Consistent.connect_modify s p x id addr spawn ws now hs hx fun _ => ⟨rfl, rfl⟩
  rwa [modify_id] at hc

theorem connect_of_none (hp : s.handleOf? p = none) (hroom : s.sessions.size < s.capacity) :
    (s.connect p addr spawn ws now).2 = s.accept (s.opening p addr spawn ws now) := by
  have hl := leave_of_none hp
  obtain ⟨a, -, hc⟩ := connect_of_room (s := s) (p := p) (by rwa [hl])
  rw [hc, hl]

theorem opening_parkTeleport {r : TeleportRequest} :
    (s.parkTeleport r).opening r.player addr spawn ws now =
      (s.opening r.player addr spawn ws now).placed
        (((s.lastPlaces.get? r.player).getD spawn).teleported r ws) := by
  rw [opening_eq, opening_eq]
  simp only [parkTeleport, Table.get?_insert_self]
  rfl

theorem opening_parkSelection {m : MirrorRequest} :
    (s.parkSelection m).opening m.player addr spawn ws now =
      (s.opening m.player addr spawn ws now).receiveSelection m.selection := by
  rw [opening_eq, opening_eq]
  simp only [parkSelection, Table.get?_insert_self]
  cases s.pendingSelections.get? m.player <;> rfl

theorem Consistent.connect_mirror (hs : s.Consistent) (m : MirrorRequest) :
    ((s.mirror m).2.connect m.player addr spawn ws now).2 =
      ((s.connect m.player addr spawn ws now).2.mirror m).2 := by
  cases hx : s.byPlayer? m.player with
  | some x =>
    rw [mirror_of_some hx, hs.connect_modify hx Session.kept_receiveSelection,
      hs.connect_of_some hx, mirror_accept rfl]
    rfl
  | none =>
    have hp := hs.byPlayer?_eq_none_iff.1 hx
    rw [mirror_of_none hx]
    by_cases hroom : s.sessions.size < s.capacity
    · have hroom' : (s.parkSelection m).sessions.size < (s.parkSelection m).capacity := hroom
      rw [connect_of_none hp hroom, connect_of_none (by exact hp) hroom', opening_parkSelection,
        accept_parkSelection (by rw [opening_eq]; rfl), mirror_accept (by rw [opening_eq])]
    · have hfull := Nat.not_lt.1 hroom
      have hfull' : (s.parkSelection m).capacity ≤ (s.parkSelection m).sessions.size := hfull
      rw [connect_of_full hp hfull, connect_of_full (by exact hp) hfull', mirror_of_none hx]

theorem Consistent.connect_leave (hs : s.Consistent) :
    ((s.leave p).connect p addr spawn ws now).2 = (s.connect p addr spawn ws now).2 := by
  simp only [connect, leave_of_none (hs.handleOf?_leave p)]
  split <;> rfl

theorem session?_mirror {m : MirrorRequest} {h : Handle} (hx : s.session? h = none) :
    (s.mirror m).2.session? h = none := by
  cases hy : s.byPlayer? m.player with
  | some y =>
    have hx : s.sessions.get? h = none := hx
    rw [mirror_of_some hy]
    exact Table.get?_modify.trans (by rw [hx]; simp)
  | none =>
    rw [mirror_of_none hy]
    exact hx

theorem byAddress?_mirror {m : MirrorRequest} :
    (s.mirror m).2.byAddress? addr = s.byAddress? addr := by
  cases hy : s.byPlayer? m.player with
  | some y =>
    rw [mirror_of_some hy]
    exact byAddress?_modify fun _ => ⟨rfl, rfl⟩
  | none =>
    rw [mirror_of_none hy]
    rfl

theorem close_modify {h : Handle} : (s.modify h f).close x = (s.close x).modify h f := by
  simp only [Store.close, Store.modify, Table.erase_modify]

/-- A request does not hinder someone else from leaving. -/
theorem Consistent.disconnect_mirror (hs : s.Consistent) {m : MirrorRequest}
    (hx : s.session? x.handle = some x) (hne : x.player ≠ m.player) :
    ((s.mirror m).2.disconnect x.handle).2 = ((s.disconnect x.handle).2.mirror m).2 := by
  have hs' : (s.mirror m).2.Consistent := hs.after (e := .mirror m) rfl
  rw [hs.disconnect_eq hx]
  have hclose := hs.byPlayer?_close hx (p := m.player)
  rw [if_neg hne.symm] at hclose
  cases hy : s.byPlayer? m.player with
  | some y =>
    rw [hy] at hclose
    obtain ⟨hy', hplayer⟩ := hs.byPlayer?_eq_some_iff.1 hy
    have hh : x.handle ≠ y.handle := by
      intro hh
      rw [hh, hy'] at hx
      obtain rfl := Option.some.inj hx
      exact hne hplayer
    rw [mirror_of_some hy] at hs' ⊢
    have hx' : (s.modify y.handle (·.receiveSelection m.selection)).session? x.handle = some x :=
      Table.get?_modify.trans ((if_neg hh).trans hx)
    rw [hs'.disconnect_eq hx', mirror_of_some hclose, close_modify]
  | none =>
    rw [hy] at hclose
    rw [mirror_of_none hy] at hs' ⊢
    rw [hs'.disconnect_eq (by exact hx), mirror_of_none hclose]
    rfl

/-- Nor does it matter who else makes room for the player. -/
theorem Consistent.connect_mirror_of_disconnect (hs : s.Consistent) (m : MirrorRequest)
    (h : Handle) :
    (((s.mirror m).2.disconnect h).2.connect m.player addr spawn ws now).2 =
      (((s.disconnect h).2.connect m.player addr spawn ws now).2.mirror m).2 := by
  have hs' : (s.mirror m).2.Consistent := hs.after (e := .mirror m) rfl
  cases hx : s.session? h with
  | none => rw [disconnect_of_none hx, disconnect_of_none (session?_mirror hx), hs.connect_mirror]
  | some x =>
    obtain rfl := hs.handle_eq h x hx
    by_cases hp : x.player = m.player
    · have hin : s.handleOf? m.player = some x.handle := hp ▸ hs.handleOf? hx
      have hin' : (s.mirror m).2.handleOf? m.player = some x.handle := by
        rw [mirror_of_some (hs.byPlayer?_eq_some_iff.2 ⟨hx, hp⟩)]
        exact hin
      rw [disconnect_eq_leave hin, disconnect_eq_leave hin', hs.connect_leave, hs'.connect_leave,
        hs.connect_mirror]
    · have hl : (s.disconnect x.handle).2.Consistent := hs.after (e := .disconnect x.handle) rfl
      rw [hs.disconnect_mirror hx hp, hl.connect_mirror]

theorem Consistent.connect_teleport_iff (hs : s.Consistent) (r : TeleportRequest) :
    ((s.teleport r ws).2.connect r.player addr spawn ws now).2 =
        ((s.connect r.player addr spawn ws now).2.teleport r ws).2 ↔
      ((s.connect r.player addr spawn ws now).1.isSome → ∀ older,
        s.pendingTeleports.get? r.player = some older →
        ¬ r.Overtakes older ((s.lastPlaces.get? r.player).getD spawn) ws) := by
  cases hx : s.byPlayer? r.player with
  | some x =>
    obtain ⟨hx', hp⟩ := hs.byPlayer?_eq_some_iff.1 hx
    apply iff_of_true
    · rw [teleport_of_some hx, hs.connect_modify hx Session.kept_teleport,
        hs.connect_of_some hx, teleport_accept rfl]
      rfl
    · rintro - older hold
      rw [← hp, hs.no_teleport _ _ (hs.handleOf? hx')] at hold
      cases hold
  | none =>
    have hp := hs.byPlayer?_eq_none_iff.1 hx
    rw [teleport_of_none hx]
    by_cases hroom : s.sessions.size < s.capacity
    · have hroom' : (s.parkTeleport r).sessions.size < (s.parkTeleport r).capacity := hroom
      have hsome : (s.connect r.player addr spawn ws now).1.isSome := by
        obtain ⟨a, -, hc⟩ := connect_of_room (s := s) (p := r.player)
          (by rwa [leave_of_none hp])
        rw [hc]
        rfl
      rw [connect_of_none hp hroom, connect_of_none (by exact hp) hroom', opening_parkTeleport,
        accept_parkTeleport (by rw [opening_eq]; rfl), teleport_accept (by rw [opening_eq]),
        accept_inj (by rfl), Session.teleport_eq, Session.placed_inj, opening_eq,
        forall_prop_of_true hsome]
      cases s.pendingTeleports.get? r.player with
      | none => exact iff_of_true rfl (by simp)
      | some older =>
        simp only [Option.some.injEq, forall_eq']
        exact eq_comm.trans Avatar.teleported_teleported_iff
    · have hfull := Nat.not_lt.1 hroom
      have hfull' : (s.parkTeleport r).capacity ≤ (s.parkTeleport r).sessions.size := hfull
      rw [connect_of_full hp hfull, connect_of_full (by exact hp) hfull', teleport_of_none hx]
      exact iff_of_true rfl (by simp)

end orders

section departure

variable {s : Store} {p : Uuid} {x : Session} {addr : Address} {spawn : Avatar} {ws : Worlds}
  {now : Nat} {r : TeleportRequest}

theorem Consistent.connect_away (hs : s.Consistent) {left : Option (Avatar × Selections)}
    {t : Option TeleportRequest} {d : Option ExternalSelection}
    (h : s.presence p = .away left t d) :
    (s.connect p addr spawn ws now).1.map (·.avatar) =
      if s.sessions.size < s.capacity then some (((left.map Prod.fst).getD spawn).moved t ws)
      else none := by
  have hp := hs.byPlayer?_eq_none_iff.1 (byPlayer?_of_presence h)
  obtain ⟨left', h', hfst, -⟩ := hs.presence_away hp
  cases h.symm.trans h'
  split
  · next hroom =>
    have hl := leave_of_none hp
    obtain ⟨a, ha, hc⟩ := @connect_of_room s p addr spawn ws now (by rwa [hl])
    rw [hc, Option.map_some, ha, hl, opening_eq, hfst]
  · next hroom => rw [connect_of_full hp (Nat.not_lt.1 hroom), Option.map_none]

theorem Consistent.presence_teleport_disconnect (hs : s.Consistent)
    (hx : s.byPlayer? r.player = some x) :
    ((s.teleport r ws).2.disconnect x.handle).2.presence r.player =
      .away (some (x.avatar.teleported r ws, x.selections)) none none := by
  have hs' := hs.after (e := .teleport r ws) rfl
  have hp : (s.teleport r ws).2.handleOf? r.player = some x.handle := by
    rw [teleport_of_some hx, (hs.byPlayer?_eq_some_iff.1 hx).2.symm]
    exact hs.handleOf? (hs.byPlayer?_eq_some_iff.1 hx).1
  refine (hs'.presence_disconnect hp).trans ?_
  rw [Store.after, hs.presence_teleport, if_pos rfl, presence_of_some hx]
  rfl

theorem Consistent.presence_disconnect_teleport (hs : s.Consistent)
    (hx : s.byPlayer? r.player = some x) :
    ((s.disconnect x.handle).2.teleport r ws).2.presence r.player =
      .away (some (x.avatar, x.selections)) (some r) none := by
  have hs' := hs.after (e := .disconnect x.handle) rfl
  have hp : s.handleOf? r.player = some x.handle := by
    rw [(hs.byPlayer?_eq_some_iff.1 hx).2.symm]
    exact hs.handleOf? (hs.byPlayer?_eq_some_iff.1 hx).1
  refine hs'.presence_teleport.trans ((if_pos rfl).trans ?_)
  rw [Store.after, hs.presence_disconnect hp, presence_of_some hx]
  rfl

/-- A request before or after its player leaves moves them alike when they are back, unless a later
request overtakes the one that still waits. -/
theorem Consistent.connect_after_disconnect_iff (hs : s.Consistent)
    (hx : s.byPlayer? r.player = some x) (es : List StoreEvent)
    (hn : ((s.teleport r ws).2.disconnect x.handle).2.Lasts es)
    (hj : ∀ e ∈ ((s.teleport r ws).2.disconnect x.handle).2.heard r.player es,
      e.isJoin = false) :
    let early := ((s.teleport r ws).2.disconnect x.handle).2
    let late := ((s.disconnect x.handle).2.teleport r ws).2
    ((early.run es).connect r.player addr spawn ws now).1.map (·.avatar) =
        ((late.run es).connect r.player addr spawn ws now).1.map (·.avatar) ↔
      (((early.run es).connect r.player addr spawn ws now).1.isSome → ∀ newer,
        ((early.heard r.player es).filterMap PlayerEvent.request?).getLast? = some newer →
        ¬ newer.Overtakes r x.avatar ws) := by
  intro early late
  have hs₁ := hs.after (e := .teleport r ws) rfl
  have hs₂ := hs.after (e := .disconnect x.handle) rfl
  have hearly : early.Consistent := hs₁.after (e := .disconnect x.handle) rfl
  have hlate : late.Consistent := hs₂.after (e := .teleport r ws) rfl
  have halike : early.Alike late :=
    ((Alike.teleport (s := s)).after hs hs₁ (.disconnect x.handle)).2.symm.trans .teleport
  have hp : early.handleOf? r.player = none := hearly.byPlayer?_eq_none_iff.1
    (byPlayer?_of_presence (hs.presence_teleport_disconnect hx))
  have hn' := halike.lasts hearly hlate es hn
  have hπ := hearly.presence_run es hn r.player
  have hπ' := hlate.presence_run es hn' r.player
  rw [halike.heard hearly hlate es hn hp hj, hs.presence_disconnect_teleport hx,
    Presence.run_away hj] at hπ'
  rw [hs.presence_teleport_disconnect hx, Presence.run_away hj] at hπ
  have hrun := (hearly.run es hn).1
  have hrun' := (hlate.run es hn').1
  have halike' := halike.run hearly hlate es hn
  have hc := @Consistent.connect_away _ r.player addr spawn ws now hrun _ _ _ hπ
  have hc' := @Consistent.connect_away _ r.player addr spawn ws now hrun' _ _ _ hπ'
  have hsome := congrArg Option.isSome hc
  rw [Option.isSome_map] at hsome
  rw [hc, hc', hsome, halike'.size, halike'.capacity]
  by_cases hroom : (early.run es).sessions.size < (early.run es).capacity
  · simp only [if_pos hroom, Option.isSome_some, forall_const, Option.some.injEq]
    cases ((early.heard r.player es).filterMap PlayerEvent.request?).getLast? with
    | none => exact iff_of_true rfl (by simp)
    | some newer =>
      simp only [Option.some.injEq, forall_eq']
      exact Avatar.teleported_teleported_iff
  · simp [if_neg hroom]

end departure

/-- A player and a request for them may come in either order, unless the request is about to
overtake an older one, and for a selection the order never matters. A request may also come before
or after the player leaves, unless a later one overtakes it before they are back. -/
theorem Reachable.races {s : Store} (hs : s.Reachable) (addr : Address) (spawn : Avatar)
    (ws : Worlds) (now : Nat) :
    (∀ r : TeleportRequest,
      ((s.teleport r ws).2.connect r.player addr spawn ws now).2 =
          ((s.connect r.player addr spawn ws now).2.teleport r ws).2 ↔
        ((s.connect r.player addr spawn ws now).1.isSome → ∀ older,
          s.pendingTeleports.get? r.player = some older →
          ¬ r.Overtakes older ((s.lastPlaces.get? r.player).getD spawn) ws)) ∧
    (∀ m : MirrorRequest,
      ((s.mirror m).2.connect m.player addr spawn ws now).2 =
        ((s.connect m.player addr spawn ws now).2.mirror m).2) ∧
    ∀ (r : TeleportRequest) x es, s.byPlayer? r.player = some x →
      let early := ((s.teleport r ws).2.disconnect x.handle).2
      let late := ((s.disconnect x.handle).2.teleport r ws).2
      early.Lasts es → (∀ e ∈ early.heard r.player es, e.isJoin = false) →
      (((early.run es).connect r.player addr spawn ws now).1.map (·.avatar) =
          ((late.run es).connect r.player addr spawn ws now).1.map (·.avatar) ↔
        (((early.run es).connect r.player addr spawn ws now).1.isSome → ∀ newer,
          ((early.heard r.player es).filterMap PlayerEvent.request?).getLast? = some newer →
          ¬ newer.Overtakes r x.avatar ws)) := by
  have hs := hs.consistent
  refine ⟨hs.connect_teleport_iff, hs.connect_mirror, ?_⟩
  intro r x es hx early late hn hj
  exact hs.connect_after_disconnect_iff hx es hn hj

/-- The world of the older request is known here, that of the newer one is not. -/
theorem order_matters_if_overtaken :
    let s := (empty 1).run [.teleport (Sample.request "nether" false) Sample.worlds]
    let r := Sample.request "elsewhere" true
    s.Reachable ∧
      ((s.teleport r Sample.worlds).2.connect r.player Sample.address Sample.avatar
        Sample.worlds 0).2 ≠
      ((s.connect r.player Sample.address Sample.avatar Sample.worlds 0).2.teleport r
        Sample.worlds).2 := by
  intro s r
  refine ⟨⟨1, _, by decide, rfl⟩, ?_⟩
  intro h
  have hworld := congrArg (fun t => (t.byPlayer? Sample.player).map (·.avatar.world)) h
  revert hworld
  decide

/-- The newer request leads to a known world. -/
theorem order_free_if_world_known :
    let s := (empty 1).run [.teleport (Sample.request "elsewhere" false) Sample.worlds]
    let r := Sample.request "nether" true
    s.Reachable ∧
      ((s.teleport r Sample.worlds).2.connect r.player Sample.address Sample.avatar
        Sample.worlds 0).2 =
      ((s.connect r.player Sample.address Sample.avatar Sample.worlds 0).2.teleport r
        Sample.worlds).2 := by
  intro s r
  have hs : s.Reachable := ⟨1, _, by decide, rfl⟩
  refine ⟨hs, ((hs.races Sample.address Sample.avatar Sample.worlds 0).1 r).2 ?_⟩
  rintro - older - ⟨h, -⟩
  revert h
  decide

end Store

end PortalNet
