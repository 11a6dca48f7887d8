import PortalNet.Proofs.Session.Run

/-! # Operations of the session store

What each operation comes to in each of its cases.
-/

namespace PortalNet

def Avatar.moved (a : Avatar) (request : Option TeleportRequest) (ws : Worlds) : Avatar :=
  match request with
  | some r => a.teleported r ws
  | none => a

def Selections.aimed (s : Selections) (destination : Option ExternalSelection) : Selections :=
  match destination with
  | some e => { s with external := some e }
  | none => s

/-- The session stays that of its player. -/
def Session.Kept (f : Session → Session) : Prop :=
  ∀ x, (f x).handle = x.handle ∧ (f x).player = x.player

theorem Session.kept_teleport {r : TeleportRequest} {ws : Worlds} : Kept (·.teleport r ws) :=
  fun _ => ⟨rfl, rfl⟩

theorem Session.kept_receiveSelection {e : ExternalSelection} : Kept (·.receiveSelection e) :=
  fun _ => ⟨rfl, rfl⟩

namespace Store

/-- The store without a session, which leaves its selections and its place behind. -/
def close (s : Store) (x : Session) : Store :=
  { s with
    sessions := s.sessions.erase x.handle
    handles := s.handles.erase x.player
    retained := s.retained.insert x.player x.selections
    lastPlaces := s.lastPlaces.insert x.player x.avatar }

def parkTeleport (s : Store) (r : TeleportRequest) : Store :=
  { s with pendingTeleports := s.pendingTeleports.insert r.player r }

def parkSelection (s : Store) (m : MirrorRequest) : Store :=
  { s with pendingSelections := s.pendingSelections.insert m.player m.selection }

section fields

variable {s : Store} {x : Session} {h : Handle} {p : Uuid} {f : Handle → Session → Session}

theorem session?_close : (s.close x).session? h = if h = x.handle then none else s.session? h :=
  Table.get?_erase

theorem handleOf?_close : (s.close x).handleOf? p = if p = x.player then none else s.handleOf? p :=
  Table.get?_erase

theorem session?_accept : (s.accept x).session? h = if x.handle = h then some x else s.session? h :=
  Table.get?_insert

theorem handleOf?_accept :
    (s.accept x).handleOf? p = if x.player = p then some x.handle else s.handleOf? p :=
  Table.get?_insert

theorem session?_revise : (s.revise f).session? h = (s.session? h).map fun x => x.become (f h x) :=
  Table.get?_mapValues

variable {y : Session} {k : Handle}

theorem session?_inj (hx : s.session? x.handle = some x) (hy : s.session? y.handle = some y)
    (hh : y.handle = x.handle) : y = x := by
  rw [hh, hx] at hy
  exact (Option.some.inj hy).symm

theorem session?_of_close (hy : (s.close x).session? h = some y) :
    h ≠ x.handle ∧ s.session? h = some y := by
  rw [session?_close] at hy
  split at hy
  · cases hy
  · exact ⟨‹_›, hy⟩

theorem handleOf?_of_close (hp : (s.close x).handleOf? p = some h) :
    p ≠ x.player ∧ s.handleOf? p = some h := by
  rw [handleOf?_close] at hp
  split at hp
  · cases hp
  · exact ⟨‹_›, hp⟩

theorem session?_of_accept (hy : (s.accept x).session? h = some y) :
    (h = x.handle ∧ y = x) ∨ (h ≠ x.handle ∧ s.session? h = some y) := by
  rw [session?_accept] at hy
  split at hy
  · exact .inl ⟨Eq.symm ‹_›, (Option.some.inj hy).symm⟩
  · exact .inr ⟨Ne.symm ‹_›, hy⟩

theorem handleOf?_of_accept (hp : (s.accept x).handleOf? p = some h) :
    (p = x.player ∧ h = x.handle) ∨ (p ≠ x.player ∧ s.handleOf? p = some h) := by
  rw [handleOf?_accept] at hp
  split at hp
  · exact .inl ⟨Eq.symm ‹_›, (Option.some.inj hp).symm⟩
  · exact .inr ⟨Ne.symm ‹_›, hp⟩

end fields

section operations

variable {s : Store} {h : Handle} {p : Uuid} {x : Session} {f : Session → Session}
  {addr : Address} {spawn : Avatar} {ws : Worlds} {now : Nat}

theorem disconnect_of_none (hx : s.session? h = none) : s.disconnect h = (none, s) := by
  simp only [disconnect, hx]

theorem disconnect_of_some (hx : s.session? x.handle = some x)
    (hp : s.handleOf? x.player = some x.handle) :
    s.disconnect x.handle = (some { x with selections := {} }, s.close x) := by
  simp only [disconnect, hx, hp, if_true, close]

theorem leave_of_none (hp : s.handleOf? p = none) : s.leave p = s := by
  simp only [leave, hp]

theorem leave_of_some (hx : s.session? x.handle = some x)
    (hp : s.handleOf? x.player = some x.handle) : s.leave x.player = s.close x := by
  simp only [leave, hp, disconnect_of_some hx hp]

theorem disconnect_eq_leave (hp : s.handleOf? p = some h) : (s.disconnect h).2 = s.leave p := by
  simp only [leave, hp]

@[simp] theorem leave_nextHandle : (s.leave p).nextHandle = s.nextHandle := by
  unfold leave disconnect
  repeat' split <;> try rfl

@[simp] theorem leave_capacity : (s.leave p).capacity = s.capacity := by
  unfold leave disconnect
  repeat' split <;> try rfl

theorem opening_eq :
    s.opening p addr spawn ws now = {
      handle := s.nextHandle
      player := p
      addr
      avatar := ((s.lastPlaces.get? p).getD spawn).moved (s.pendingTeleports.get? p) ws
      selections := ((s.retained.get? p).getD {}).aimed (s.pendingSelections.get? p)
      lastSeen := now } := by
  unfold opening
  cases s.pendingTeleports.get? p <;> cases s.pendingSelections.get? p <;> rfl

theorem connect_of_full (hp : s.handleOf? p = none) (hfull : s.capacity ≤ s.sessions.size) :
    s.connect p addr spawn ws now = (none, s) := by
  simp only [connect, leave_of_none hp, hfull, if_true]

theorem connect_of_room (hroom : (s.leave p).sessions.size < s.capacity) :
    ∃ a, a.avatar = ((s.leave p).opening p addr spawn ws now).avatar ∧
      s.connect p addr spawn ws now =
        (some a, (s.leave p).accept ((s.leave p).opening p addr spawn ws now)) := by
  have hne : ¬ (s.leave p).capacity ≤ (s.leave p).sessions.size := by
    rw [leave_capacity]; exact Nat.not_le.2 hroom
  exact ⟨_, by exact rfl, if_neg hne⟩

theorem modify_eq_revise (hf : Session.Kept f) :
    s.modify h f = s.revise fun k x => if k = h then f x else x := by
  have hb : ∀ k x, (if k = h then f x else x) = x.become (if k = h then f x else x) := by
    intro k x
    obtain ⟨h₁, h₂⟩ := hf x
    split
    · simp only [Session.become, ← h₁, ← h₂]
    · rfl
  simp only [Store.modify, Table.modify, revise, ← hb]

theorem after_modify (hf : Session.Kept f) : s.after (.modify h f) = s.modify h f :=
  (modify_eq_revise hf).symm

theorem modify_congr {g : Session → Session} (hx : s.session? h = some x) (hfg : f x = g x) :
    s.modify h f = s.modify h g := by
  have hmodify : s.sessions.modify h f = s.sessions.modify h g := by
    refine Table.ext_entries (List.map_congr_left fun e he => ?_)
    by_cases hh : e.1 = h
    · have hy : s.session? h = some e.2 := hh ▸ Table.get?_eq_some_iff.2 he
      obtain rfl := Option.some.inj (hx.symm.trans hy)
      simp only [hh, if_true, hfg]
    · simp only [hh, if_false]
  simp only [Store.modify, hmodify]

theorem modify_of_none (hx : s.session? h = none) : s.modify h f = s := by
  have hmodify : s.sessions.modify h f = s.sessions := by
    refine Table.ext_entries ((List.map_congr_left fun e he => ?_).trans (List.map_id _))
    have hh : e.1 ≠ h := by
      rintro rfl
      exact absurd (hx.symm.trans (Table.get?_eq_some_iff.2 he)) (by simp)
    simp only [hh, if_false, id]
  simp only [Store.modify, hmodify]

theorem modify_modify {g : Session → Session} :
    (s.modify h f).modify h g = s.modify h fun x => g (f x) := by
  have hmodify : (s.sessions.modify h f).modify h g = s.sessions.modify h fun x => g (f x) := by
    refine Table.ext_entries ?_
    simp only [Table.modify, Table.mapValues, List.map_map]
    refine List.map_congr_left fun e _ => ?_
    by_cases hh : e.1 = h <;> simp [hh]
  simp only [Store.modify, hmodify]

theorem byAddress?_modify (hf : ∀ x, (f x).addr = x.addr ∧ (f x).handle = x.handle) :
    (s.modify h f).byAddress? addr = s.byAddress? addr := by
  have haddr : ∀ k x, (if k = h then f x else x).addr = x.addr := fun k x => by
    split
    · exact (hf x).1
    · rfl
  have hhandle : ∀ k x, (if k = h then f x else x).handle = x.handle := fun k x => by
    split
    · exact (hf x).2
    · rfl
  simp only [byAddress?, Store.modify, Table.values, Table.modify, Table.mapValues, List.map_map,
    List.find?_map, Option.map_map, Function.comp_def, haddr, hhandle]

theorem modify_id : s.modify h id = s := by
  have hid : s.sessions.modify h id = s.sessions :=
    Table.ext_entries (by simp [Table.modify, Table.mapValues])
  simp only [Store.modify, hid]

theorem teleport_of_some {r : TeleportRequest} (hx : s.byPlayer? r.player = some x) :
    s.teleport r ws = (.applied x.handle, s.modify x.handle (·.teleport r ws)) := by
  simp only [teleport, hx]

theorem teleport_of_none {r : TeleportRequest} (hx : s.byPlayer? r.player = none) :
    s.teleport r ws = (.stored, s.parkTeleport r) := by
  simp only [teleport, hx, parkTeleport]

theorem mirror_of_some {m : MirrorRequest} (hx : s.byPlayer? m.player = some x) :
    s.mirror m = (.applied x.handle, s.modify x.handle (·.receiveSelection m.selection)) := by
  simp only [mirror, hx]

theorem mirror_of_none {m : MirrorRequest} (hx : s.byPlayer? m.player = none) :
    s.mirror m = (.stored, s.parkSelection m) := by
  simp only [mirror, hx, parkSelection]

end operations

end Store

end PortalNet
