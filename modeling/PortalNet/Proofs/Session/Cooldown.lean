import PortalNet.Proofs.Session.Arrival
import PortalNet.Proofs.Traversal

/-! # For how long portals leave a player alone

A player is left alone for as many ticks as their cooldown counts, and in the tick after that they
are taken by the portal in whose window they stand. Going through a portal starts the cooldown. An
arrival from another server does not: whoever joins has none, and whoever is moved keeps what is
left of theirs.
-/

namespace PortalNet

namespace Session

variable {x : Session} {r : Registry} {cooldown : UInt32}

theorem traverse_cooling (h : 0 < x.cooldown) (r : Registry) (cooldown : UInt32) :
    x.traverse r cooldown = ({ x with cooldown := x.cooldown - 1 }, none) := by
  rw [traverse, if_pos h]

theorem traverse_ready (h : x.cooldown = 0) :
    (x.traverse r cooldown).2 =
      (r.entered? x.avatar).bind fun p => ({ x with cooldown }.enter r p).2 := by
  rw [traverse, if_neg (by simp [h])]
  cases r.entered? x.avatar <;> rfl

end Session

namespace Store

/-- Passes over all sessions, one for each registry, and what they note. -/
def passes (s : Store) (cooldown : UInt32) : List Registry → Store × List Journey
  | [] => (s, [])
  | r :: rs =>
    let (t, journeys) := s.traverse r cooldown
    let (u, later) := t.passes cooldown rs
    (u, journeys ++ later)

/-- A teleport that another server asked for places a player, who has `left` ticks of cooldown:
at once if they are connected, and else when they join. -/
inductive Placed (s : Store) (request : TeleportRequest) (ws : Worlds) :
    Store → Session → UInt32 → Prop where
  | live (x : Session) : s.byPlayer? request.player = some x →
      Placed s request ws (s.teleport request ws).2 (x.teleport request ws) x.cooldown
  | drained (addr : Address) (spawn : Avatar) (now : Nat) (a : Arrival) (x : Session) :
      s.pendingTeleports.get? request.player = some request →
      (s.connect request.player addr spawn ws now).1 = some a →
      (s.connect request.player addr spawn ws now).2.byPlayer? request.player = some x →
      Placed s request ws (s.connect request.player addr spawn ws now).2 x 0

variable {s t : Store} {x : Session} {r : Registry} {rs : List Registry} {cooldown left : UInt32}
  {request : TeleportRequest} {ws : Worlds}

theorem Consistent.traverse (hs : s.Consistent) : (s.traverse r cooldown).1.Consistent := by
  rw [traverse_fst]
  exact hs.revise

theorem session?_traverse {h : Handle} :
    (s.traverse r cooldown).1.session? h =
      (s.session? h).map fun x => (x.traverse r cooldown).1 :=
  Table.get?_mapValues

/-- A pass notes of a player what it does to their session. -/
theorem Consistent.journeys (hs : s.Consistent) (hx : s.session? x.handle = some x) :
    (s.traverse r cooldown).2.filter (·.handle = x.handle) = (x.traverse r cooldown).2.toList := by
  have hown : ∀ (y : Session) j, (y.traverse r cooldown).2 = some j → j.handle = y.handle :=
    fun y => Session.passed_traverse.journey
  have hothers : ∀ l : List Session, (∀ y ∈ l, y.handle ≠ x.handle) →
      (l.filterMap fun y => (y.traverse r cooldown).2).filter (·.handle = x.handle) = [] := by
    intro l hl
    rw [List.filter_eq_nil_iff]
    intro j hj
    obtain ⟨y, hy, hj⟩ := List.mem_filterMap.1 hj
    rw [decide_eq_true_eq, hown y j hj]
    exact hl y hy
  obtain ⟨l₁, l₂, hvalues, hkeys⟩ := Table.values_of_get? hx
  have hne : ∀ y ∈ l₁ ++ l₂, y.handle ≠ x.handle := by
    intro y hy
    obtain ⟨k, hk, hy⟩ := hkeys y hy
    rwa [hs.handle_eq k y hy]
  simp only [Store.traverse, hvalues, List.filterMap_append, List.filterMap_cons,
    List.filter_append]
  rw [hothers l₁ fun y hy => hne y (List.mem_append_left _ hy)]
  cases hj : (x.traverse r cooldown).2 with
  | none => simpa using hothers l₂ fun y hy => hne y (List.mem_append_right _ hy)
  | some j =>
    rw [List.filter_cons_of_pos (by simpa using hown x j hj),
      hothers l₂ fun y hy => hne y (List.mem_append_right _ hy)]
    rfl

/-- As long as the cooldown counts it is all that changes. -/
theorem Consistent.passes (hs : s.Consistent) (hx : s.session? x.handle = some x)
    (h : rs.length ≤ x.cooldown.toNat) (cooldown : UInt32) :
    (s.passes cooldown rs).1.Consistent ∧
    (∃ left : UInt32, left.toNat + rs.length = x.cooldown.toNat ∧
      (s.passes cooldown rs).1.session? x.handle = some { x with cooldown := left }) ∧
    ∀ j ∈ (s.passes cooldown rs).2, j.handle ≠ x.handle := by
  induction rs generalizing s x with
  | nil => exact ⟨hs, ⟨x.cooldown, rfl, hx⟩, by simp [Store.passes]⟩
  | cons r rs ih =>
    rw [List.length_cons] at h
    have hone : (1 : UInt32) ≤ x.cooldown :=
      UInt32.le_iff_toNat_le.2 (Nat.le_trans (Nat.le_add_left 1 _) h)
    have hcount : (x.cooldown - 1).toNat = x.cooldown.toNat - 1 := UInt32.toNat_sub_of_le _ _ hone
    have hpass := x.traverse_cooling hone r cooldown
    let y : Session := { x with cooldown := x.cooldown - 1 }
    have hy : (s.traverse r cooldown).1.session? y.handle = some y := by
      rw [session?_traverse, hx, Option.map_some, hpass]
    have hleft : rs.length ≤ y.cooldown.toNat := hcount ▸ Nat.le_sub_of_add_le h
    obtain ⟨hconsistent, ⟨left, hsum, hsession⟩, hlater⟩ := ih hs.traverse hy hleft
    have hsum : left.toNat + rs.length = x.cooldown.toNat - 1 := hsum.trans hcount
    refine ⟨hconsistent, ⟨left, by rw [List.length_cons]; omega, hsession⟩, ?_⟩
    intro j hj
    rcases List.mem_append.1 hj with hj | hj
    · intro hown
      have hmem : j ∈ (s.traverse r cooldown).2.filter (·.handle = x.handle) :=
        List.mem_filter.2 ⟨hj, decide_eq_true hown⟩
      rw [hs.journeys hx, hpass] at hmem
      cases hmem
    · exact hlater j hj

/-- A placed player is in the store, with the cooldown that is said to be left. -/
theorem Placed.session (hs : s.Consistent) (h : s.Placed request ws t x left) :
    t.session? x.handle = some x ∧ x.cooldown = left ∧ x.player = request.player ∧
      x.avatar.motion = request.motion := by
  cases h with
  | live x hx =>
    obtain ⟨hsession, hplayer⟩ := hs.byPlayer?_eq_some_iff.1 hx
    refine ⟨?_, rfl, hplayer, rfl⟩
    have hget := Table.get?_modify (t := s.sessions) (k := x.handle) (j := x.handle)
      (f := (·.teleport request ws))
    rw [teleport_of_some hx]
    exact hget.trans (by rw [if_pos rfl]; exact congrArg _ hsession)
  | drained addr spawn now a x hpending hin hx =>
    have hoffline : s.handleOf? request.player = none := by
      cases hp : s.handleOf? request.player with
      | none => rfl
      | some k => cases (hs.no_teleport _ k hp).symm.trans hpending
    rcases hs.connect_cases request.player addr spawn ws now with ⟨-, -, h⟩ | ⟨-, b, -, h⟩
    · rw [h] at hin
      cases hin
    · rw [h, leave_of_none hoffline, opening_eq] at hx ⊢
      obtain rfl := Option.some.inj (hx.symm.trans byPlayer?_accept_self)
      refine ⟨by rw [session?_accept, if_pos rfl], rfl, rfl, ?_⟩
      rw [hpending]
      rfl

/-- Whoever another server places here is left alone for the ticks that are left of their cooldown,
none if they have just joined, whatever portals there are. The tick after that takes them through
the portal in whose window they stand. -/
theorem placed_left_alone (hs : s.Reachable) (ht : t.Reachable)
    (h : s.Placed request ws t x left) (cooldown : UInt32) :
    x.player = request.player ∧ x.avatar.motion = request.motion ∧
    (∀ rs : List Registry, rs.length ≤ left.toNat →
      (∃ y, (t.passes cooldown rs).1.session? x.handle = some y ∧ y.avatar = x.avatar) ∧
      ∀ j ∈ (t.passes cooldown rs).2, j.handle ≠ x.handle) ∧
    ∀ (rs : List Registry) (r : Registry), rs.length = left.toNat →
      ((t.passes cooldown rs).1.traverse r cooldown).2.filter (·.handle = x.handle) =
        ((r.entered? x.avatar).bind fun p => ({ x with cooldown }.enter r p).2).toList := by
  obtain ⟨hx, rfl, hplayer, hmotion⟩ := h.session hs.consistent
  refine ⟨hplayer, hmotion, ?_, ?_⟩
  · intro rs hrs
    obtain ⟨-, ⟨k, -, hsession⟩, hquiet⟩ := ht.consistent.passes hx hrs cooldown
    exact ⟨⟨_, hsession, rfl⟩, hquiet⟩
  · intro rs r hrs
    obtain ⟨hconsistent, ⟨k, hk, hsession⟩, -⟩ :=
      ht.consistent.passes hx (Nat.le_of_eq hrs) cooldown
    have hzero : k = 0 := UInt32.toNat_inj.1 (by simp only [UInt32.toNat_zero]; omega)
    let y : Session := { x with cooldown := k }
    rw [hconsistent.journeys (x := y) hsession, Session.traverse_ready hzero]

end Store

namespace Sample

/-- A portal from where the request puts the player back to the world that they come from. -/
def back : Portal where
  id := ⟨.replicate 16 6⟩
  origin := { position := .ofLocation ⟨nether, origin⟩ .north }
  dest := { position := .ofLocation ⟨world, origin⟩ .north }
  size := ⟨(2 : Int), (3 : Int)⟩
  isCustom := true

def hosting : Registry :=
  Registry.register { worlds := worlds.load world } back

/-- The player is announced and has not joined yet. -/
def announced : Store :=
  (Store.empty 1).run [.teleport (request "nether" false) hosting.worlds]

def joined : Store :=
  (announced.connect player address avatar hosting.worlds 0).2

def newcomer : Session where
  handle := 1
  player
  addr := address
  avatar := avatar.teleported (request "nether" false) hosting.worlds
  lastSeen := 0

/-- Where the player is after the way back. -/
def bounced : Journey :=
  .here 1 back.id
    ⟨world, back.origin.position.frame.carry back.dest.position.frame newcomer.avatar.motion⟩

theorem reachable_announced : announced.Reachable :=
  ⟨1, _, by decide, rfl⟩

theorem reachable_joined : joined.Reachable :=
  ⟨1, [.teleport (request "nether" false) hosting.worlds,
    .connect player address avatar hosting.worlds 0], by decide +kernel, rfl⟩

theorem placed_newcomer :
    announced.Placed (request "nether" false) hosting.worlds joined newcomer 0 :=
  .drained address avatar 0 ⟨1, newcomer.avatar, none, false, true, false⟩ newcomer
    (by decide +kernel) (by decide +kernel) (by decide +kernel)

end Sample

open Sample in
theorem newcomer_taken_at_once :
    announced.Placed (request "nether" false) hosting.worlds joined newcomer 0 ∧
    ((joined.passes 20 []).1.traverse hosting 20).2.filter (·.handle = newcomer.handle) =
      [bounced] := by
  obtain ⟨-, -, -, htaken⟩ :=
    Store.placed_left_alone reachable_announced reachable_joined placed_newcomer 20
  exact ⟨placed_newcomer, (htaken [] hosting rfl).trans (by decide +kernel)⟩

open Sample in
/-- Portals are to leave a player alone for twenty ticks whom they have moved, and the player who
comes from another server is taken back in the first. -/
theorem newcomer_bounced :
    ¬ ∀ (s t : Store) (request : TeleportRequest) (ws : Worlds) (x : Session) (left : UInt32),
      s.Reachable → t.Reachable → s.Placed request ws t x left →
      ∀ (cooldown : UInt32) (rs : List Registry), rs.length ≤ cooldown.toNat →
        ∀ j ∈ (t.passes cooldown rs).2, j.handle ≠ x.handle := by
  intro h
  have hquiet := h _ _ _ _ _ _ reachable_announced reachable_joined placed_newcomer 20 [hosting]
    (by decide)
  exact hquiet bounced (by decide +kernel) rfl

end PortalNet
