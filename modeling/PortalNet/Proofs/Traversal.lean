import PortalNet.Proofs.Registry.Outline
import PortalNet.Proofs.Session.Operations
import PortalNet.Traversal

/-! # Who goes where

A player whom one portal alone encloses is taken by that portal, as long as it stays, and goes
where its outline says.
-/

namespace PortalNet

namespace Outline

/-- The player stands in the window. -/
def Encloses (o : Outline) (a : Avatar) : Prop :=
  (∃ w, o.world = some w ∧ w.id = a.world.id) ∧ o.origin.frame.Contains o.size a.motion.position

/-- What another server is asked when a player goes there. -/
def request (o : Outline) (s : Session) : TeleportRequest :=
  .ofMotion s.player none (o.dest.worldName.getD "")
    (o.origin.frame.carry o.dest.frame s.avatar.motion)

end Outline

namespace Registry

variable {r s : Registry} {a : Avatar} {p : Portal} {k id : Uuid}

/-- No portal but this one encloses the player. -/
structure EnclosedBy (r : Registry) (a : Avatar) (id : Uuid) (p : Portal) : Prop where
  get?_eq : r.get? id = some p
  encloses : (p.outline r.worlds).Encloses a
  unique : ∀ k q, r.get? k = some q → (q.outline r.worlds).Encloses a → k = id

theorem mem_all_iff : p ∈ r.all ↔ ∃ k, r.get? k = some p :=
  Table.mem_values_iff

theorem entered?_of_encloses (hp : r.get? k = some p) (h : (p.outline r.worlds).Encloses a) :
    ∃ q, r.entered? a = some q := by
  obtain ⟨⟨w, hw, hid⟩, hin⟩ := h
  have hw : p.origin.world? r.worlds = some w := hw
  apply Option.isSome_iff_exists.1
  unfold entered?
  rw [List.find?_isSome]
  refine ⟨p, mem_all_iff.2 ⟨k, hp⟩, ?_⟩
  simp only [hw]
  exact decide_eq_true ⟨hid, hin⟩

theorem encloses_of_entered? (h : r.entered? a = some p) :
    (∃ k, r.get? k = some p) ∧ (p.outline r.worlds).Encloses a := by
  unfold entered? at h
  have hp := List.find?_some h
  refine ⟨mem_all_iff.1 (List.mem_of_find?_eq_some h), ?_⟩
  cases hw : p.origin.world? r.worlds with
  | none => simp [hw] at hp
  | some w =>
    simp only [hw, decide_eq_true_eq] at hp
    exact ⟨⟨w, hw, hp.1⟩, hp.2⟩

/-- The portal is entered even in a registry from which others have gone. -/
theorem EnclosedBy.entered? (h : r.EnclosedBy a id p) (hs : s.Within r)
    (hkept : (s.get? id).isSome) :
    ∃ q, s.entered? a = some q ∧ q.outline s.worlds = p.outline r.worlds := by
  obtain ⟨q, hq⟩ := Option.isSome_iff_exists.1 hkept
  obtain ⟨p', hp', houtline⟩ := hs.outline id q hq
  obtain rfl : p = p' := Option.some.inj (h.get?_eq.symm.trans hp')
  obtain ⟨q', hq'⟩ := entered?_of_encloses hq (houtline ▸ h.encloses)
  obtain ⟨⟨k, hk⟩, hin⟩ := encloses_of_entered? hq'
  obtain ⟨o, ho, he⟩ := hs.outline k q' hk
  obtain rfl := h.unique k o ho (he ▸ hin)
  obtain rfl : q = q' := Option.some.inj (hq.symm.trans hk)
  exact ⟨q, hq', houtline⟩

end Registry

namespace Session

variable {s : Session} {r : Registry} {p : Portal} {cooldown : UInt32} {server : String}

/-- What a pass over the players leaves of a session and notes about it. -/
structure Passed (s : Session) (result : Session × Option Journey) : Prop where
  handle : result.1.handle = s.handle
  player : result.1.player = s.player
  addr : result.1.addr = s.addr
  journey : ∀ j, result.2 = some j → j.handle = s.handle
  request : ∀ h id server request, result.2 = some (.away h id server (some request)) →
    request.player = s.player

theorem passed_enter : s.Passed (s.enter r p) := by
  simp only [enter]
  cases p.relocatesPlayers with
  | false => constructor <;> simp [Journey.handle]
  | true =>
    cases p.dest.position.server with
    | some server =>
      refine ⟨rfl, rfl, rfl, by rintro _ ⟨⟩; rfl, ?_⟩
      intro h id server request hj
      cases hl : p.dest.position.lastPlayer with
      | false =>
        simp only [hl] at hj
        obtain ⟨⟩ := hj
        rfl
      | true =>
        simp only [hl] at hj
        cases hj
    | none => cases p.dest.world? r.worlds <;> constructor <;> simp [Journey.handle]

theorem passed_traverse : s.Passed (s.traverse r cooldown) := by
  unfold traverse
  split
  · constructor <;> simp
  · split
    · constructor <;> simp
    · obtain ⟨hh, hp, ha, hj, hr⟩ := passed_enter (s := { s with cooldown }) (r := r) (p := ‹_›)
      exact ⟨hh, hp, ha, hj, hr⟩

theorem kept_traverse (r : Registry) (cooldown : UInt32) :
    Kept fun s => (s.traverse r cooldown).1 :=
  fun _ => ⟨passed_traverse.handle, passed_traverse.player⟩

/-- Who goes to another server: whoever stands in a portal there that moves players, unless they are
left alone yet. -/
theorem exists_away_iff :
    (∃ h id request, (s.traverse r cooldown).2 = some (.away h id server request)) ↔
      s.cooldown = 0 ∧ ∃ p, r.entered? s.avatar = some p ∧ p.relocatesPlayers = true ∧
        p.dest.position.server = some server := by
  unfold traverse
  split
  · next hcool =>
    have hne : s.cooldown ≠ 0 := UInt32.pos_iff_ne_zero.1 hcool
    simp [hne]
  · next hcool =>
    have hzero : s.cooldown = 0 := by simpa [UInt32.pos_iff_ne_zero] using hcool
    cases r.entered? s.avatar with
    | none => simp
    | some p =>
      simp only [enter, hzero, Option.some.injEq, exists_eq_left', true_and]
      cases p.relocatesPlayers with
      | false => simp
      | true =>
        cases p.dest.position.server with
        | some target => simp
        | none => cases p.dest.world? r.worlds <;> simp

theorem traverse_away (hcool : s.cooldown = 0) (he : r.entered? s.avatar = some p)
    (hmoves : p.relocatesPlayers = true) (hserver : p.dest.position.server = some server)
    (hlast : p.dest.position.lastPlayer = false) :
    (s.traverse r cooldown).2 =
      some (.away s.handle p.id server (some ((p.outline r.worlds).request s))) := by
  unfold traverse enter
  simp only [hcool, he, hmoves, hserver, hlast]
  rfl

end Session

/-- A pass edits every session and leaves all else. -/
theorem Store.traverse_fst {s : Store} {r : Registry} {cooldown : UInt32} :
    (s.traverse r cooldown).1 = s.revise fun _ x => (x.traverse r cooldown).1 := by
  have hbecome : ∀ x : Session, x.become (x.traverse r cooldown).1 = (x.traverse r cooldown).1 := by
    intro x
    obtain ⟨hh, hp⟩ := Session.kept_traverse r cooldown x
    simp only [Session.become, ← hh, ← hp]
  simp only [Store.revise, hbecome]
  rfl

end PortalNet
