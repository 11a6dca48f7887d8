import PortalNet.Proofs.Backend.Run
import PortalNet.Proofs.Registry.Order
import PortalNet.Proofs.Session.Addresses
import PortalNet.Proofs.Session.Cooldown

/-! # One pass after the other

A pass does at most one thing to each player, and it does so whatever the order of the players and,
if no two windows overlap, of the portals. Whatever happens in between, a player of whom a pass has
noted something is left out by as many later passes as the cooldown counts.
-/

namespace PortalNet

namespace Registry

/-- No two portals enclose the same player. -/
def Apart (r : Registry) : Prop :=
  ∀ a k l p q, r.get? k = some p → r.get? l = some q → (p.outline r.worlds).Encloses a →
    (q.outline r.worlds).Encloses a → k = l

variable {r : Registry} {a : Avatar} {p : Portal} {portals : Table Uuid Portal}

theorem Apart.entered?_eq_some_iff (hr : r.Apart) :
    r.entered? a = some p ↔ ∃ k, r.EnclosedBy a k p := by
  constructor
  · intro h
    obtain ⟨⟨k, hk⟩, hin⟩ := encloses_of_entered? h
    exact ⟨k, hk, hin, fun l q hl hq => hr a l k q p hl hk hq hin⟩
  · rintro ⟨k, hk, hin, hunique⟩
    obtain ⟨q, hq⟩ := entered?_of_encloses hk hin
    obtain ⟨⟨l, hl⟩, hin'⟩ := encloses_of_entered? hq
    obtain rfl := hunique l q hl hin'
    rw [hq, ← hl, hk]

theorem Apart.reorder (hr : r.Apart) (hp : portals.entries.Perm r.portals.entries) :
    Apart { r with portals } := by
  intro a k l p q
  rw [get?_reorder hp, get?_reorder hp]
  exact hr a k l p q

theorem EnclosedBy.reorder {k : Uuid} (hp : portals.entries.Perm r.portals.entries) :
    EnclosedBy { r with portals } a k p ↔ r.EnclosedBy a k p := by
  constructor <;>
  · rintro ⟨hget, hin, hunique⟩
    refine ⟨?_, hin, ?_⟩
    · simpa only [get?_reorder hp] using hget
    · simpa only [get?_reorder hp] using hunique

theorem Apart.entered?_reorder (hr : r.Apart) (hp : portals.entries.Perm r.portals.entries) :
    entered? { r with portals } a = r.entered? a := by
  apply Option.ext
  intro p
  rw [(hr.reorder hp).entered?_eq_some_iff, hr.entered?_eq_some_iff]
  exact exists_congr fun k => EnclosedBy.reorder hp

end Registry

namespace Session

/-- What a pass can do to a session, and what it notes of it. -/
inductive Leg (x : Session) (r : Registry) (cooldown : UInt32) :
    Session × Option Journey → Prop where
  | resting : 0 < x.cooldown → Leg x r cooldown ({ x with cooldown := x.cooldown - 1 }, none)
  | outside : x.cooldown = 0 → r.entered? x.avatar = none → Leg x r cooldown (x, none)
  | stay (p : Portal) : x.cooldown = 0 → r.entered? x.avatar = some p →
      p.relocatesPlayers = false →
      Leg x r cooldown ({ x with cooldown }, some (.stay x.handle p.id))
  | away (p : Portal) (server : String) (request : Option TeleportRequest) : x.cooldown = 0 →
      r.entered? x.avatar = some p → p.relocatesPlayers = true →
      p.dest.position.server = some server →
      Leg x r cooldown ({ x with cooldown }, some (.away x.handle p.id server request))
  | here (p : Portal) (w : World) (a : Avatar) : x.cooldown = 0 →
      r.entered? x.avatar = some p → p.relocatesPlayers = true → p.dest.position.server = none →
      p.dest.world? r.worlds = some w →
      a = ⟨w, p.origin.position.frame.carry p.dest.position.frame x.avatar.motion⟩ →
      Leg x r cooldown ({ x with cooldown, avatar := a }, some (.here x.handle p.id a))
  | lost (p : Portal) : x.cooldown = 0 → r.entered? x.avatar = some p →
      p.relocatesPlayers = true → p.dest.position.server = none →
      p.dest.world? r.worlds = none → Leg x r cooldown ({ x with cooldown }, none)

variable {x y : Session} {r : Registry} {cooldown : UInt32} {j : Option Journey}

theorem leg_traverse (x : Session) (r : Registry) (cooldown : UInt32) :
    x.Leg r cooldown (x.traverse r cooldown) := by
  unfold traverse
  split
  · next hcool => exact .resting hcool
  · next hcool =>
    have hzero : x.cooldown = 0 := by simpa [UInt32.pos_iff_ne_zero] using hcool
    cases hp : r.entered? x.avatar with
    | none => exact .outside hzero hp
    | some p =>
      simp only [enter]
      cases hmoves : p.relocatesPlayers with
      | false => exact .stay p hzero hp hmoves
      | true =>
        cases hserver : p.dest.position.server with
        | some server => exact .away p server _ hzero hp hmoves hserver
        | none =>
          cases hw : p.dest.world? r.worlds with
          | some w => exact .here p w _ hzero hp hmoves hserver hw rfl
          | none => exact .lost p hzero hp hmoves hserver hw

namespace Leg

theorem eq (h : x.Leg r cooldown (y, j)) :
    y = { x with avatar := y.avatar, cooldown := y.cooldown } := by
  cases h <;> rfl

theorem avatar_eq (h : x.Leg r cooldown (y, j)) (hj : ∀ id a, j ≠ some (.here x.handle id a)) :
    y.avatar = x.avatar := by
  cases h with
  | here p w a => exact absurd rfl (hj p.id a)
  | _ => rfl

/-- Only who rests no longer is taken anywhere, and that starts the cooldown. -/
theorem started {journey : Journey} (h : x.Leg r cooldown (y, some journey)) :
    x.cooldown = 0 ∧ y.cooldown = cooldown := by
  cases h with
  | stay p hzero | away p server request hzero | here p w a hzero => exact ⟨hzero, rfl⟩

end Leg

theorem traverse_reorder {portals : Table Uuid Portal} (hr : r.Apart)
    (hp : portals.entries.Perm r.portals.entries) :
    x.traverse { r with portals } cooldown = x.traverse r cooldown := by
  unfold traverse
  rw [hr.entered?_reorder hp]
  rfl

end Session

/-- What becomes of a session in a pass that notes `journeys`. -/
structure Toured (r : Registry) (journeys : List Journey) (x y : Session) : Prop where
  eq : y = { x with avatar := y.avatar, cooldown := y.cooldown }
  stayed : (∀ id a, .here x.handle id a ∉ journeys) → y.avatar = x.avatar
  moved : ∀ id a, .here x.handle id a ∈ journeys → y.avatar = a ∧
    ∃ k p w, r.EnclosedBy x.avatar k p ∧ p.id = id ∧ p.dest.world? r.worlds = some w ∧
      a = ⟨w, p.origin.position.frame.carry p.dest.position.frame x.avatar.motion⟩

/-- What can happen to the players of a server between two passes. -/
inductive Interlude where
  | connect (player : Uuid) (addr : Address) (spawn : Avatar) (worlds : Worlds) (now : Nat)
  | disconnect (handle : Handle)
  | touch (handle : Handle) (now : Nat)
  | move (handle : Handle) (motion : PlayerMotion) (now : Nat)
  | command (command : Command) (r : Registry) (handle : Handle) (fresh : Nat → Uuid)
  | teleport (request : TeleportRequest) (worlds : Worlds)
  | mirror (request : MirrorRequest)

/-- A pass finds its own portals and worlds: those of the last one may have changed in any way. -/
inductive Turn where
  | pass (r : Registry)
  | interlude (i : Interlude)

def Interlude.admits : Interlude → Bool
  | connect .. => true
  | _ => false

def Turn.admits : Turn → Bool
  | pass _ => false
  | interlude i => i.admits

/-- How many players try to come in. -/
def Turn.admissions (turns : List Turn) : Nat :=
  turns.countP Turn.admits

namespace Store

def elapse (s : Store) : Interlude → Store
  | .connect player addr spawn ws now => (s.connect player addr spawn ws now).2
  | .disconnect handle => (s.disconnect handle).2
  | .touch handle now => s.modify handle (·.touch now)
  | .move handle motion now =>
    s.modify handle fun x => { x.touch now with avatar := ⟨x.avatar.world, motion⟩ }
  | .command command r handle fresh => (command.execute s r handle fresh).store
  | .teleport request ws => (s.teleport request ws).2
  | .mirror request => (s.mirror request).2

/-- What each pass of a run notes. -/
def log (s : Store) (cooldown : UInt32) : List Turn → List (List Journey)
  | [] => []
  | .pass r :: turns =>
    (s.traverse r cooldown).2 :: (s.traverse r cooldown).1.log cooldown turns
  | .interlude i :: turns => (s.elapse i).log cooldown turns

/-- Every session is found under its handle. -/
def Filed (s : Store) : Prop :=
  ∀ h x, s.session? h = some x → x.handle = h

/-- How many handles are handed out before this one. -/
def ahead (s : Store) (h : Handle) : Nat :=
  (h - s.nextHandle).toNat

/-- As many sessions can open before a handle is used again, which for none is nothing to ask. -/
def Supplies (s : Store) (n : Nat) : Prop :=
  n ≤ 2 ^ 32 ∧ ∀ h x, s.session? h = some x → n ≤ s.ahead h

/-- Whoever has the handle is left out by `k` passes, and `n` sessions can open before another one
gets it. -/
structure Resting (s : Store) (h : Handle) (k n : Nat) : Prop where
  le_ahead : n ≤ s.ahead h
  le_cooldown : ∀ x, s.session? h = some x → k ≤ x.cooldown.toNat

/-- What an interlude can do: sessions may close, and a player who comes in gets a session with the
next handle. -/
inductive Elapsed (s : Store) : Bool → Store → Prop where
  | narrow {b : Bool} {t : Store} : s.Narrows (fun x => (x.handle, x.cooldown)) t →
      t.nextHandle = s.nextHandle → Elapsed s b t
  | accept {t : Store} {x : Session} : s.Narrows (fun x => (x.handle, x.cooldown)) t →
      t.nextHandle = s.nextHandle → x.handle = s.nextHandle → Elapsed s true (t.accept x)

section pass

variable {s : Store} {r : Registry} {cooldown : UInt32} {x : Session} {h : Handle}

theorem mem_journeys_iff (hs : s.Filed) {j : Journey} :
    j ∈ (s.traverse r cooldown).2 ↔
      ∃ x, s.session? j.handle = some x ∧ (x.traverse r cooldown).2 = some j := by
  constructor
  · intro hj
    obtain ⟨x, hx, hj⟩ := List.mem_filterMap.1 hj
    obtain ⟨h, hx⟩ := Table.mem_values_iff.1 hx
    obtain rfl := hs h x hx
    refine ⟨x, ?_, hj⟩
    rw [Session.passed_traverse.journey j hj]
    exact hx
  · rintro ⟨x, hx, hj⟩
    exact List.mem_filterMap.2 ⟨x, Table.mem_values_iff.2 ⟨_, hx⟩, hj⟩

theorem nodup_journeys (hs : s.Filed) :
    ((s.traverse r cooldown).2.map Journey.handle).Nodup := by
  have hkeys : s.sessions.values.map Session.handle = s.sessions.keys := by
    simp only [Table.values, Table.keys, List.map_map]
    exact List.map_congr_left fun e he => hs e.1 e.2 (Table.get?_eq_some_iff.2 he)
  have hsub : ∀ l : List Session,
      ((l.filterMap fun x => (x.traverse r cooldown).2).map Journey.handle).Sublist
        (l.map Session.handle) := by
    intro l
    induction l with
    | nil => exact .slnil
    | cons x l ih =>
      rw [List.filterMap_cons, List.map_cons]
      cases hj : (x.traverse r cooldown).2 with
      | none => exact ih.cons _
      | some j =>
        rw [List.map_cons, Session.passed_traverse.journey j hj]
        exact ih.cons_cons _
  have hnodup : s.sessions.keys.Nodup := s.sessions.nodup
  rw [← hkeys] at hnodup
  exact hnodup.sublist (hsub _)

theorem toured_traverse (hs : s.Filed) (hr : r.Apart) (hx : s.session? h = some x) :
    Toured r (s.traverse r cooldown).2 x (x.traverse r cooldown).1 := by
  obtain rfl := hs h x hx
  have hown : ∀ id a, .here x.handle id a ∈ (s.traverse r cooldown).2 ↔
      (x.traverse r cooldown).2 = some (.here x.handle id a) := by
    intro id a
    rw [mem_journeys_iff hs]
    constructor
    · rintro ⟨y, hy, hj⟩
      obtain rfl : x = y := Option.some.inj (hx.symm.trans hy)
      exact hj
    · exact fun hj => ⟨x, hx, hj⟩
  have hleg := x.leg_traverse r cooldown
  refine ⟨hleg.eq, fun hno => hleg.avatar_eq fun id a hj => hno id a ((hown id a).2 hj), ?_⟩
  intro id a hj
  rw [hown] at hj
  revert hleg hj
  generalize x.traverse r cooldown = result
  intro hleg hj
  cases hleg with
  | here p w b hzero hp hmoves hserver hw hb =>
    obtain ⟨-, rfl, rfl⟩ := Journey.here.inj (Option.some.inj hj)
    obtain ⟨k, hk⟩ := hr.entered?_eq_some_iff.1 hp
    exact ⟨rfl, k, p, w, hk, rfl, hw, hb⟩
  | _ => cases hj

/-- In whatever order the players and the portals are. -/
theorem traverse_reorder (hr : r.Apart) {sessions : Table Handle Session}
    {portals : Table Uuid Portal} (hsessions : sessions.entries.Perm s.sessions.entries)
    (hportals : portals.entries.Perm r.portals.entries) :
    (∀ h, (traverse { s with sessions } { r with portals } cooldown).1.session? h =
      (s.traverse r cooldown).1.session? h) ∧
    (traverse { s with sessions } { r with portals } cooldown).2.Perm
      (s.traverse r cooldown).2 := by
  have hsame : ∀ x : Session, x.traverse { r with portals } cooldown = x.traverse r cooldown :=
    fun x => Session.traverse_reorder hr hportals
  constructor
  · intro h
    rw [session?_traverse, session?_traverse]
    simp only [hsame]
    exact congrArg _ (Table.get?_perm hsessions)
  · simp only [traverse, hsame]
    exact (hsessions.map Prod.snd).filterMap _

end pass

section run

variable {s t : Store} {r : Registry} {cooldown : UInt32} {h : Handle} {k n : Nat} {b : Bool}
  {turns : List Turn}

theorem elapsed_elapse (s : Store) (i : Interlude) : s.Elapsed i.admits (s.elapse i) := by
  cases i with
  | connect p addr spawn ws now =>
    have hnext : (s.leave p).nextHandle = s.nextHandle := leave_nextHandle
    simp only [elapse, Store.connect]
    split
    · exact .narrow .leave hnext
    · refine .accept .leave hnext ?_
      rw [opening_eq]
      exact hnext
  | disconnect k => exact .narrow .disconnect unclaimed_disconnect.nextHandle
  | touch k now => exact .narrow (.modify fun _ => rfl) rfl
  | move k motion now => exact .narrow (.modify fun _ => rfl) rfl
  | command command r k fresh =>
    rw [elapse, Command.execute_store]
    refine .narrow (.modify fun x => ?_) rfl
    cases command <;> rfl
  | teleport request ws =>
    refine .narrow (.of_keeps (e := .teleport request ws) fun _ => rfl) ?_
    simp only [elapse, Store.teleport]
    split <;> rfl
  | mirror request =>
    refine .narrow (.of_keeps (e := .mirror request) fun _ => rfl) ?_
    simp only [elapse, Store.mirror]
    split <;> rfl

theorem admissions_interlude {i : Interlude} :
    Turn.admissions (.interlude i :: turns) = Turn.admissions turns + i.admits.toNat := by
  rw [Turn.admissions, List.countP_cons]
  cases hi : i.admits <;> simp [Turn.admits, Turn.admissions, hi]

/-- One handle less is handed out before any but the next one. -/
theorem ahead_succ (ht : t.nextHandle = s.nextHandle + 1) (hn : n + 1 ≤ s.ahead h) :
    n ≤ t.ahead h := by
  have hone : (1 : UInt32) ≤ h - s.nextHandle :=
    UInt32.le_iff_toNat_le.2 (Nat.le_trans (Nat.le_add_left 1 n) hn)
  have hsub : h - t.nextHandle = h - s.nextHandle - 1 := by
    rw [ht]
    grind
  rw [ahead, hsub, UInt32.toNat_sub_of_le _ _ hone]
  exact Nat.le_sub_of_add_le hn

namespace Elapsed

theorem filed (he : s.Elapsed b t) (hs : s.Filed) : t.Filed := by
  have hnarrow : ∀ u, s.Narrows (fun x => (x.handle, x.cooldown)) u → u.Filed := by
    intro u hu k y hy
    obtain ⟨x, hx, hpart⟩ := hu.session? k y hy
    rw [(Prod.mk.inj hpart).1, hs k x hx]
  cases he with
  | narrow ht => exact hnarrow t ht
  | accept ht =>
    intro k y hy
    rcases session?_of_accept hy with ⟨rfl, rfl⟩ | ⟨-, hy⟩
    · rfl
    · exact hnarrow _ ht k y hy

theorem supplies (he : s.Elapsed b t) (hs : s.Supplies (n + b.toNat)) : t.Supplies n := by
  obtain ⟨hle, hahead⟩ := hs
  refine ⟨Nat.le_trans (Nat.le_add_right ..) hle, ?_⟩
  intro k y hy
  cases he with
  | narrow ht hnext =>
    obtain ⟨x, hx, -⟩ := ht.session? k y hy
    rw [ahead, hnext]
    exact Nat.le_trans (Nat.le_add_right ..) (hahead k x hx)
  | @accept u x ht hnext hx =>
    have hnext : (u.accept x).nextHandle = s.nextHandle + 1 := congrArg (· + 1) hnext
    rcases session?_of_accept hy with ⟨rfl, -⟩ | ⟨-, hy⟩
    · have hlast : x.handle - (u.accept x).nextHandle = -1 := by
        rw [hnext, hx]
        grind
      rw [ahead, hlast]
      exact Nat.le_of_succ_le_succ hle
    · obtain ⟨z, hz, -⟩ := ht.session? k y hy
      exact ahead_succ hnext (hahead k z hz)

theorem resting (he : s.Elapsed b t) (hs : s.Resting h k (n + b.toNat)) : t.Resting h k n := by
  have hnarrow : ∀ u, s.Narrows (fun x => (x.handle, x.cooldown)) u →
      ∀ y, u.session? h = some y → k ≤ y.cooldown.toNat := by
    intro u hu y hy
    obtain ⟨x, hx, hpart⟩ := hu.session? h y hy
    rw [(Prod.mk.inj hpart).2]
    exact hs.le_cooldown x hx
  cases he with
  | narrow ht hnext =>
    refine ⟨?_, hnarrow t ht⟩
    rw [ahead, hnext]
    exact Nat.le_trans (Nat.le_add_right ..) hs.le_ahead
  | @accept u x ht hnext hx =>
    refine ⟨ahead_succ (congrArg (· + 1) hnext) hs.le_ahead, ?_⟩
    intro y hy
    rcases session?_of_accept hy with ⟨rfl, -⟩ | ⟨-, hy⟩
    · -- the handle that is handed out next is not yet this one
      have hahead : s.ahead x.handle = 0 := by
        rw [ahead, hx, UInt32.sub_self]
        rfl
      have hle := hs.le_ahead
      rw [hahead] at hle
      exact absurd hle (Nat.not_succ_le_zero n)
    · exact hnarrow u ht y hy

end Elapsed

theorem Filed.traverse (hs : s.Filed) : (s.traverse r cooldown).1.Filed := by
  intro k y hy
  rw [session?_traverse] at hy
  obtain ⟨x, hx, rfl⟩ := Option.map_eq_some_iff.1 hy
  exact Session.passed_traverse.handle.trans (hs k x hx)

theorem Supplies.traverse (hs : s.Supplies n) : (s.traverse r cooldown).1.Supplies n := by
  refine ⟨hs.1, fun k y hy => ?_⟩
  rw [session?_traverse] at hy
  obtain ⟨x, hx, -⟩ := Option.map_eq_some_iff.1 hy
  exact hs.2 k x hx

/-- A pass leaves out whoever rests, who then rests for one less. -/
theorem Resting.traverse (hf : s.Filed) (hs : s.Resting h (k + 1) n) (r : Registry)
    (cooldown : UInt32) :
    (s.traverse r cooldown).1.Resting h k n ∧
      ∀ j ∈ (s.traverse r cooldown).2, j.handle ≠ h := by
  have hpass : ∀ x, s.session? h = some x →
      x.traverse r cooldown = ({ x with cooldown := x.cooldown - 1 }, none) ∧
        k ≤ (x.cooldown - 1).toNat := by
    intro x hx
    have hle := hs.le_cooldown x hx
    have hone : (1 : UInt32) ≤ x.cooldown :=
      UInt32.le_iff_toNat_le.2 (Nat.le_trans (Nat.le_add_left 1 k) hle)
    refine ⟨x.traverse_cooling hone r cooldown, ?_⟩
    rw [UInt32.toNat_sub_of_le _ _ hone]
    exact Nat.le_sub_of_add_le hle
  refine ⟨⟨hs.le_ahead, ?_⟩, ?_⟩
  · intro y hy
    rw [session?_traverse] at hy
    obtain ⟨x, hx, rfl⟩ := Option.map_eq_some_iff.1 hy
    obtain ⟨heq, hle⟩ := hpass x hx
    rw [heq]
    exact hle
  · rintro j hj rfl
    obtain ⟨x, hx, hnote⟩ := (mem_journeys_iff hf).1 hj
    rw [(hpass x hx).1] at hnote
    cases hnote

/-- Whoever a pass has noted something of rests as long as the cooldown counts. -/
theorem resting_of_mem (hf : s.Filed) (hs : s.Supplies n) {j : Journey}
    (hj : j ∈ (s.traverse r cooldown).2) :
    (s.traverse r cooldown).1.Resting j.handle cooldown.toNat n := by
  obtain ⟨x, hx, hnote⟩ := (mem_journeys_iff hf).1 hj
  refine ⟨hs.2 j.handle x hx, ?_⟩
  intro y hy
  rw [session?_traverse, hx] at hy
  obtain rfl := Option.some.inj hy
  have hleg := x.leg_traverse r cooldown
  rw [← Prod.mk.eta (p := x.traverse r cooldown), hnote] at hleg
  exact Nat.le_of_eq (congrArg _ hleg.started.2.symm)

theorem Resting.log (hf : s.Filed) (hs : s.Resting h k (Turn.admissions turns)) {i : Nat}
    {journeys : List Journey} (hi : (s.log cooldown turns)[i]? = some journeys) (hlt : i < k) :
    ∀ j ∈ journeys, j.handle ≠ h := by
  induction turns generalizing s k i with
  | nil => cases hi
  | cons turn turns ih =>
    cases turn with
    | interlude e =>
      have he := s.elapsed_elapse e
      rw [admissions_interlude] at hs
      exact ih (he.filed hf) (he.resting hs) hi hlt
    | pass r =>
      obtain ⟨k, rfl⟩ : ∃ l, k = l + 1 := ⟨k - 1, by omega⟩
      obtain ⟨hrest, hnot⟩ := hs.traverse hf r cooldown
      cases i with
      | zero =>
        obtain rfl := Option.some.inj hi
        exact hnot
      | succ i => exact ih hf.traverse hrest hi (Nat.lt_of_succ_lt_succ hlt)

theorem lt_of_log (hf : s.Filed) (hs : s.Supplies (Turn.admissions turns)) {i j : Nat}
    {is js : List Journey} {a b : Journey} (hi : (s.log cooldown turns)[i]? = some is)
    (hj : (s.log cooldown turns)[j]? = some js) (hij : i < j) (ha : a ∈ is) (hb : b ∈ js)
    (hab : a.handle = b.handle) : i + cooldown.toNat < j := by
  induction turns generalizing s i j with
  | nil => cases hi
  | cons turn turns ih =>
    cases turn with
    | interlude e =>
      have he := s.elapsed_elapse e
      rw [admissions_interlude] at hs
      exact ih (he.filed hf) (he.supplies hs) hi hj hij
    | pass r =>
      obtain ⟨j, rfl⟩ : ∃ l, j = l + 1 := ⟨j - 1, by omega⟩
      cases i with
      | zero =>
        -- this pass notes `a`, so that its player rests in those that come before `b`
        obtain rfl := Option.some.inj hi
        have hrest := resting_of_mem hf (n := Turn.admissions turns) hs ha
        by_contra hle
        exact hrest.log hf.traverse hj (by omega) b hb hab.symm
      | succ i =>
        have := ih hf.traverse hs.traverse hi hj (Nat.lt_of_succ_lt_succ hij)
        omega

end run

theorem Consistent.supplies {s : Store} (hs : s.Consistent) {n : Nat}
    (hn : s.nextHandle.toNat + n ≤ 2 ^ 32) : s.Supplies n := by
  refine ⟨by omega, fun h x hx => ?_⟩
  have hlt := UInt32.lt_iff_toNat_lt.1 (hs.lt_next h x hx)
  rw [ahead, UInt32.toNat_sub, Nat.mod_eq_of_lt (by omega)]
  omega

/-- A pass notes at most one journey of each player, in whatever order the players and the portals
are, and moves exactly those whom it says to have moved within the server; nothing else in the
store changes but cooldowns. In a run of passes, between which players, portals and worlds may
change in any way, two journeys with one handle are always more passes apart than the cooldown
counts. -/
theorem passes_apart {s : Store} {r : Registry} (hs : s.Filed) (hr : r.Apart)
    (cooldown : UInt32) :
    let t := (s.traverse r cooldown).1
    let journeys := (s.traverse r cooldown).2
    (journeys.map Journey.handle).Nodup ∧
    (∀ j ∈ journeys, (s.session? j.handle).isSome) ∧
    (∀ (sessions : Table Handle Session) (portals : Table Uuid Portal),
      sessions.entries.Perm s.sessions.entries → portals.entries.Perm r.portals.entries →
      (∀ h, (traverse { s with sessions } { r with portals } cooldown).1.session? h =
        t.session? h) ∧
      (traverse { s with sessions } { r with portals } cooldown).2.Perm journeys) ∧
    (∀ h x, s.session? h = some x → ∃ y, t.session? h = some y ∧ Toured r journeys x y) ∧
    (t = { s with sessions := t.sessions } ∧ t.sessions.keys = s.sessions.keys) ∧
    ∀ turns, s.Supplies (Turn.admissions turns) →
      ∀ (i j : Nat) (is js : List Journey) (a b : Journey),
        (s.log cooldown turns)[i]? = some is → (s.log cooldown turns)[j]? = some js → i < j →
        a ∈ is → b ∈ js → a.handle = b.handle → i + cooldown.toNat < j := by
  intro t journeys
  refine ⟨nodup_journeys hs, ?_, fun _ _ => traverse_reorder hr, ?_, ⟨rfl, ?_⟩, ?_⟩
  · intro j hj
    obtain ⟨x, hx, -⟩ := (mem_journeys_iff hs).1 hj
    rw [hx]
    rfl
  · intro h x hx
    refine ⟨(x.traverse r cooldown).1, ?_, toured_traverse hs hr hx⟩
    rw [session?_traverse, hx]
    rfl
  · exact List.map_map ..
  · intro turns hsupplies i j is js a b hi hj hij ha hb hab
    exact lt_of_log hs hsupplies hi hj hij ha hb hab

end Store

namespace Sample

/-- Through one portal of the pair and, after a pass in which the player rests, back through the
other. In between they move and give a command, all portals are gone for one pass, and somebody else
asks to come in. -/
def returning : List Turn :=
  [.pass (registryOf pair),
    .interlude (.move 1 newcomer.avatar.motion 5),
    .interlude (.command (.setSeesThrough false) (registryOf pair) 1 fun _ => back.id),
    .pass {},
    .interlude (.connect ⟨.replicate 16 9⟩ address avatar hosting.worlds 6),
    .pass (registryOf pair)]

/-- The player goes home to the first world. -/
def homeward : Journey :=
  .here 1 (passing 7 there here false).id ⟨world, newcomer.avatar.motion⟩

/-- The player goes to where they have come in. -/
def outward : Journey :=
  .here 1 (passing 6 here there false).id ⟨nether, newcomer.avatar.motion⟩

theorem apart_pair : (registryOf pair).Apart := by
  have hall : (registryOf pair).all = pair := by decide +kernel
  have hworlds : ∀ p ∈ pair, ∀ q ∈ pair, ∀ v ∈ (p.outline (registryOf pair).worlds).world,
      ∀ w ∈ (q.outline (registryOf pair).worlds).world, v.id = w.id → p.id = q.id := by
    decide +kernel
  rintro a k l p q hp hq ⟨⟨v, hv, hva⟩, -⟩ ⟨⟨w, hw, hwa⟩, -⟩
  have hmem : ∀ {k p}, (registryOf pair).get? k = some p → p ∈ pair := fun hp =>
    hall ▸ Registry.mem_all_iff.2 ⟨_, hp⟩
  rw [← accounted_pair.keyed k p hp, ← accounted_pair.keyed l q hq]
  exact hworlds p (hmem hp) q (hmem hq) v hv w hw (hva.trans hwa.symm)

end Sample

open Sample in
/-- The player goes home and, with one pass in between, back, whichever portal comes first. -/
theorem homeward_outward :
    joined.Filed ∧ (registryOf pair).Apart ∧ joined.Supplies (Turn.admissions returning) ∧
    (∃ y, (joined.traverse (registryOf pair) 1).1.session? 1 = some y ∧
      y.avatar = ⟨world, newcomer.avatar.motion⟩) ∧
    (joined.traverse { registryOf pair with portals := (registryOf pair.reverse).portals } 1).2.Perm
      [homeward] ∧
    joined.log 1 returning = [[homeward], [], [outward]] ∧ 0 + (1 : UInt32).toNat < 2 := by
  have hconsistent := reachable_joined.consistent
  have hfiled : joined.Filed := hconsistent.handle_eq
  have hsupplies : joined.Supplies (Turn.admissions returning) :=
    hconsistent.supplies (by decide +kernel)
  have hpass : (joined.traverse (registryOf pair) 1).2 = [homeward] := by decide +kernel
  have hlog : joined.log 1 returning = [[homeward], [], [outward]] := by decide +kernel
  obtain ⟨-, -, horder, htoured, -, hspaced⟩ := Store.passes_apart hfiled apart_pair 1
  rw [hpass] at horder htoured
  obtain ⟨y, hy, htour⟩ := htoured 1 newcomer (by decide +kernel)
  obtain ⟨hmoved, -⟩ := htour.moved _ _ (.head _)
  obtain ⟨-, hperm⟩ := horder joined.sessions (registryOf pair.reverse).portals (.refl _)
    (by decide +kernel)
  have hlt := hspaced returning hsupplies 0 2 [homeward] [outward] homeward outward
    (by rw [hlog]; rfl) (by rw [hlog]; rfl) (by decide) (.head _) (.head _) rfl
  exact ⟨hfiled, apart_pair, hsupplies, ⟨y, hy, hmoved⟩, hperm, hlog, hlt⟩

end PortalNet
