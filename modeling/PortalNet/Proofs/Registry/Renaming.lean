import Mathlib.Data.Char
import Mathlib.Data.List.Forall2
import PortalNet.Proofs.Portal.Archive
import PortalNet.Proofs.Registry.Holding
import PortalNet.Proofs.Registry.Order

/-! # Renaming a portal

A new name changes nothing but the name. Only where a reserved name is given or taken away does a
copy come into the place of the portal: it is like the portal in all that a portal is made with, and
it is as idle as any new portal, so what the portal kept loaded is released.
-/

namespace PortalNet

namespace RenameKind

/-- The letters of a reserved name, each in lower or in upper case. -/
def Reserved (name : Option String) : Prop :=
  ∃ n, name = some n ∧
    List.Forall₂ (fun c d => c = d ∨ c = d.toUpper) n.toList "dinnerbone".toList

variable {name current requested : Option String}

theorem toNat_toLower (c : Char) :
    c.toLower.toNat = if 65 ≤ c.toNat ∧ c.toNat ≤ 90 then c.toNat + 32 else c.toNat := by
  unfold Char.toLower
  simp only [ge_iff_le, UInt32.le_iff_toNat_le]
  change (if h : 65 ≤ c.toNat ∧ c.toNat ≤ 90 then _ else c : Char).toNat = _
  split
  · next h =>
    exact (UInt32.toNat_add ..).trans (Nat.mod_eq_of_lt (show c.toNat + 32 < 2 ^ 32 by omega))
  · rfl

theorem toNat_toUpper (c : Char) :
    c.toUpper.toNat = if 97 ≤ c.toNat ∧ c.toNat ≤ 122 then c.toNat - 32 else c.toNat := by
  unfold Char.toUpper
  simp only [UInt32.le_iff_toNat_le]
  change (if h : 97 ≤ c.toNat ∧ c.toNat ≤ 122 then _ else c : Char).toNat = _
  split
  · next h =>
    refine (UInt32.toNat_add ..).trans ?_
    change (c.toNat + 4294967264) % 4294967296 = _
    omega
  · rfl

theorem toLower_eq_iff {c d : Char} (hd : d.isLower) : c.toLower = d ↔ c = d ∨ c = d.toUpper := by
  have hd : 97 ≤ d.toNat ∧ d.toNat ≤ 122 := by
    change (decide (97 ≤ d.val) && decide (d.val ≤ 122)) = true at hd
    simpa [UInt32.le_iff_toNat_le] using hd
  rw [← Char.toNat_inj, ← Char.toNat_inj, ← Char.toNat_inj, toNat_toLower, toNat_toUpper, if_pos hd]
  split <;> omega

theorem map_toLower_eq_iff {cs ds : List Char} (hd : ∀ d ∈ ds, d.isLower) :
    cs.map Char.toLower = ds ↔ List.Forall₂ (fun c d => c = d ∨ c = d.toUpper) cs ds := by
  induction ds generalizing cs with
  | nil => simp
  | cons d ds ih =>
    rw [List.forall_mem_cons] at hd
    cases cs with
    | nil => simp
    | cons c cs => simp [toLower_eq_iff hd.1, ih hd.2]

theorem isReserved_iff : isReserved name = true ↔ Reserved name := by
  have hlower : ∀ d ∈ "dinnerbone".toList, d.isLower := by simp
  cases name with
  | none => simp [isReserved, Reserved]
  | some n =>
    simp only [isReserved, Reserved, Option.any_some, decide_eq_true_eq, map_toLower_eq_iff hlower,
      Option.some.injEq, exists_eq_left']

instance : Decidable (Reserved name) :=
  decidable_of_iff _ isReserved_iff

theorem classify_eq : classify current requested =
    if Reserved current ∨ Reserved requested then replacement else inPlace := by
  simp only [classify, Bool.or_eq_true, isReserved_iff]

end RenameKind

namespace Portal

/-- `q` has this name and was otherwise made like `p`. -/
structure LikeBut (p : Portal) (name : Option String) (q : Portal) : Prop where
  name : q.name = name
  owner : q.owner = p.owner
  origin : q.origin = p.origin
  dest : q.dest = p.dest
  size : q.size = p.size
  isCustom : q.isCustom = p.isCustom
  allowsNonPlayers : q.allowsNonPlayers = p.allowsNonPlayers
  relocatesPlayers : q.relocatesPlayers = p.relocatesPlayers

/-- Neither activated nor looked through. -/
structure Idle (p : Portal) : Prop where
  activeTicks : p.activeTicks = none
  viewTicks : p.viewTicks = none
  refreshes : p.refreshes = 0
  lastRefresh : p.lastRefresh = none
  held : p.held = none

variable {p : Portal} {g : Regions} {id : Uuid} {name : Option String}

theorem likeBut_named : p.LikeBut name { p with name } :=
  ⟨rfl, rfl, rfl, rfl, rfl, rfl, rfl, rfl⟩

theorem likeBut_replacement : p.LikeBut name (p.replacement id name) :=
  ⟨rfl, rfl, rfl, rfl, rfl, rfl, rfl, rfl⟩

theorem idle_replacement : (p.replacement id name).Idle :=
  ⟨rfl, rfl, rfl, rfl, rfl⟩

theorem shutDown_regions :
    (p.shutDown g).2 = (if p.isActivated then p.held else none).elim g g.release := by
  have hactive : p.viewDeactivate.isActivated = p.isActivated := rfl
  rw [shutDown, hactive]
  cases p.isActivated with
  | true => cases hp : p.held <;> simp [deactivate, viewDeactivate, hp]
  | false => rfl

end Portal

namespace Registry

/-- `s` is `r` with `q` under `k` in the place of the portal under `id`. -/
structure Exchanged (r : Registry) (id k : Uuid) (q : Portal) (s : Registry) : Prop where
  found : s.get? k = some q
  gone : k ≠ id → s.get? id = none
  others : ∀ j, j ≠ id → j ≠ k → s.get? j = r.get? j
  size : s.portals.size = r.portals.size
  worlds : s.worlds = r.worlds

/-- Why a portal cannot have a name: there is no such portal, or it was lit in a frame and would
have to change in place. -/
inductive Unnamable (r : Registry) (id : Uuid) (name : Option String) : PortalError → Prop
  | missing : r.get? id = none → Unnamable r id name (.portalMissing id)
  | lit {p : Portal} : r.get? id = some p → p.isAutoSpawned →
    ¬ (RenameKind.Reserved p.name ∨ RenameKind.Reserved name) →
    Unnamable r id name .autoSpawnedNamed

variable {r s : Registry} {k id fresh : Uuid} {name : Option String} {p q : Portal} {c : Chunk}

theorem rename_of_get? (hp : r.get? id = some p) :
    r.rename id name fresh =
      if RenameKind.Reserved p.name ∨ RenameKind.Reserved name then
        (.ok fresh, (r.take id).2.register (p.replacement fresh name))
      else if p.isAutoSpawned then (.error .autoSpawnedNamed, r)
      else (.ok id, { r with portals := r.portals.insert id { p with name } }) := by
  rw [rename, hp]
  dsimp only
  rw [RenameKind.classify_eq, Portal.rename]
  by_cases hreserved : RenameKind.Reserved p.name ∨ RenameKind.Reserved name
  · rw [if_pos hreserved, if_pos hreserved]
    rfl
  · rw [if_neg hreserved, if_neg hreserved]
    cases p.isAutoSpawned with
    | false => rfl
    | true =>
      have hsame : r.portals.insert id p = r.portals := Table.insert_of_get? hp
      simp only [if_true, hsame]
      rfl

theorem take_of_get? (hp : r.get? id = some p) :
    (r.take id).2 =
      { r with portals := r.portals.erase id, regions := (p.shutDown r.regions).2 } := by
  rw [take, hp]

theorem erase_get?_eq_none (h : r.get? k = none) : (r.portals.erase id).get? k = none :=
  Table.get?_erase.trans (ite_eq_left_iff.2 fun _ => h)

theorem replace_eq (hp : r.get? id = some p) (hfresh : r.get? q.id = none) :
    (r.take id).2.register q =
      { portals := (r.portals.erase id).insert q.id q
        worlds := r.worlds
        regions := (p.shutDown r.regions).2 } := by
  have hfree : (r.take id).2.get? q.id = none := by
    rw [take_of_get? hp]
    exact erase_get?_eq_none hfresh
  rw [register_of_get?_eq_none hfree, take_of_get? hp]

theorem exchanged_insert (hp : r.get? id = some p) :
    r.Exchanged id id q { r with portals := r.portals.insert id q } where
  found := Table.get?_insert_self
  gone := fun h => absurd rfl h
  others := fun _ _ hj => Table.get?_insert.trans (if_neg (Ne.symm hj))
  size := by
    rw [Table.insert_eq_modify hp, Table.size_modify]
  worlds := rfl

theorem exchanged_replace (hp : r.get? id = some p) (hfresh : r.get? q.id = none) :
    r.Exchanged id q.id q ((r.take id).2.register q) := by
  rw [replace_eq hp hfresh]
  refine ⟨Table.get?_insert_self, ?_, ?_, ?_, rfl⟩
  · intro hne
    exact Table.get?_insert.trans ((if_neg hne).trans Table.get?_erase_self)
  · intro j hid hj
    exact Table.get?_insert.trans <|
      (if_neg (Ne.symm hj)).trans (Table.get?_erase.trans (if_neg hid))
  · exact (Table.size_insert (erase_get?_eq_none hfresh)).trans (Table.size_erase hp)

theorem holding_named (hp : r.get? id = some p) :
    holding { r with portals := r.portals.insert id { p with name } } c = r.holding c :=
  holding_insert.trans (holding_of_get? hp).symm

/-- The copy keeps nothing loaded, so what is left is what the others keep loaded. -/
theorem holding_replace (hp : r.get? id = some p) (hfresh : r.get? q.id = none)
    (hidle : q.held = none) : ((r.take id).2.register q).holding c = r.holdingBeside id c := by
  let t : Registry := { r with portals := r.portals.erase id }
  have hbeside : t.holdingBeside q.id c = t.holding c :=
    holdingBeside_of_none (erase_get?_eq_none hfresh)
  rw [replace_eq hp hfresh]
  refine (holding_insert (r := t)).trans ?_
  rw [Portal.holds_of_idle hidle, hbeside]
  rfl

theorem rename_of_get?_eq_none (hp : r.get? id = none) :
    r.rename id name fresh = (.error (.portalMissing id), r) := by
  rw [rename, hp]
  rfl

theorem rename_eq_error_iff {e : PortalError} :
    (r.rename id name fresh).1 = .error e ↔ r.Unnamable id name e := by
  constructor
  · intro h
    cases hp : r.get? id with
    | none =>
      rw [rename_of_get?_eq_none hp] at h
      cases h
      exact .missing hp
    | some p =>
      rw [rename_of_get? hp] at h
      split at h
      · cases h
      · next hplain =>
        split at h
        · next hauto =>
          cases h
          exact .lit hp hauto hplain
        · cases h
  · intro h
    cases h with
    | missing hp => rw [rename_of_get?_eq_none hp]
    | lit hp hauto hplain => rw [rename_of_get? hp, if_neg hplain, if_pos hauto]

theorem rename_plain (hp : r.get? id = some p)
    (hplain : ¬ (RenameKind.Reserved p.name ∨ RenameKind.Reserved name))
    (h : (r.rename id name fresh).1 = .ok k) : k = id ∧
      (r.rename id name fresh).2 = { r with portals := r.portals.insert id { p with name } } := by
  rw [rename_of_get? hp, if_neg hplain] at h ⊢
  split at h
  · cases h
  · next hcustom =>
    rw [if_neg hcustom]
    cases h
    exact ⟨rfl, rfl⟩

theorem rename_reserved (hp : r.get? id = some p)
    (hreserved : RenameKind.Reserved p.name ∨ RenameKind.Reserved name)
    (h : (r.rename id name fresh).1 = .ok k) : k = fresh ∧
      (r.rename id name fresh).2 = (r.take id).2.register (p.replacement fresh name) := by
  rw [rename_of_get? hp, if_pos hreserved] at h ⊢
  cases h
  exact ⟨rfl, rfl⟩

/-- A portal is renamed unless it is missing or was lit in a frame and no name is reserved; then
nothing changes. In place, all but the name stays. Where a reserved name comes or goes, a copy with
an unused id takes the place, and the chunk that the portal kept loaded loses one holder. -/
theorem rename_exact (r : Registry) (id : Uuid) (name : Option String) (fresh : Uuid) :
    let answer := (r.rename id name fresh).1
    let s := (r.rename id name fresh).2
    (∀ e, answer = .error e ↔ r.Unnamable id name e) ∧ (∀ e, answer = .error e → s = r) ∧
    ∀ k, answer = .ok k → ∃ p, r.get? id = some p ∧
      (r.Accounted → s.Accounted) ∧
      (¬ (RenameKind.Reserved p.name ∨ RenameKind.Reserved name) →
        k = id ∧ p.LikeBut name { p with name } ∧ r.Exchanged id k { p with name } s ∧
        s.regions = r.regions ∧ ∀ c, s.holding c = r.holding c) ∧
      (RenameKind.Reserved p.name ∨ RenameKind.Reserved name → r.get? fresh = none →
        k = fresh ∧ k ≠ id ∧
        (∃ q, q.id = k ∧ p.LikeBut name q ∧ q.Idle ∧ r.Exchanged id k q s) ∧
        s.regions = (if p.isActivated then p.held else none).elim r.regions r.regions.release ∧
        ∀ c, s.holding c + (if p.holds c then 1 else 0) = r.holding c) := by
  intro answer s
  refine ⟨fun e => rename_eq_error_iff, fun e => rename_failed, ?_⟩
  intro k hk
  have hk : (r.rename id name fresh).1 = .ok k := hk
  cases hp : r.get? id with
  | none =>
    rw [rename_of_get?_eq_none hp] at hk
    cases hk
  | some p =>
    have haccounted : r.Accounted → s.Accounted :=
      fun hr => hr.of_change (change_rename (e := .rename id name fresh))
    refine ⟨p, rfl, haccounted, ?_, ?_⟩
    · intro hplain
      obtain ⟨rfl, hs⟩ := rename_plain hp hplain hk
      have hs : s = _ := hs
      rw [hs]
      exact ⟨rfl, Portal.likeBut_named, exchanged_insert hp, rfl, fun c => holding_named hp⟩
    · intro hreserved hfresh
      obtain ⟨rfl, hs⟩ := rename_reserved hp hreserved hk
      have hs : s = _ := hs
      have hne : k ≠ id := by
        rintro rfl
        rw [hp] at hfresh
        cases hfresh
      let q := p.replacement k name
      have hregions : ((r.take id).2.register q).regions =
          (if p.isActivated then p.held else none).elim r.regions r.regions.release := by
        rw [replace_eq (q := q) hp hfresh]
        exact Portal.shutDown_regions
      rw [hs]
      refine ⟨rfl, hne, ⟨q, rfl, Portal.likeBut_replacement, Portal.idle_replacement,
        exchanged_replace (q := q) hp hfresh⟩, hregions, fun c => ?_⟩
      rw [holding_replace (q := q) hp hfresh rfl, holding_of_get? hp]

end Registry

open Sample in
/-- A lit portal that keeps a chunk loaded gets a reserved name. -/
theorem lit_replaced :
    let id := (passing 6 here there false).id
    let fresh : Uuid := ⟨.replicate 16 9⟩
    let r := (registryOf pair).activate id
    r.Accounted ∧ r.holding (.containing there) = 1 ∧ r.get? fresh = none ∧
    ∃ p q : Portal, ∃ s, r.rename id (some "DinnerBone") fresh = (.ok fresh, s) ∧ p.isAutoSpawned ∧
      p.LikeBut (some "DinnerBone") q ∧ q.Idle ∧ r.Exchanged id fresh q s ∧ s.Accounted ∧
      s.holding (.containing there) = 0 := by
  intro id fresh r
  let p := ((passing 6 here there false).activate r.worlds r.regions).1
  have hr : r.Accounted := accounted_pair.activate
  have hp : r.get? id = some p := by decide +kernel
  have hfresh : r.get? fresh = none := by decide +kernel
  have hone : r.holding (.containing there) = 1 := by decide +kernel
  have hreserved : RenameKind.Reserved (some "DinnerBone") :=
    RenameKind.isReserved_iff.1 (by decide +kernel)
  have hs : r.rename id (some "DinnerBone") fresh =
      (.ok fresh, (r.take id).2.register (p.replacement fresh (some "DinnerBone"))) :=
    (Registry.rename_of_get? hp).trans (if_pos (.inr hreserved))
  obtain ⟨-, -, h⟩ := Registry.rename_exact r id (some "DinnerBone") fresh
  rw [hs] at h
  obtain ⟨p', hp', haccounted, -, h⟩ := h fresh rfl
  obtain rfl : p = p' := Option.some.inj (hp.symm.trans hp')
  obtain ⟨-, -, ⟨q, -, hlike, hidle, hexchanged⟩, -, hholding⟩ := h (.inr hreserved) hfresh
  have hzero := hholding (.containing there)
  rw [hone, if_pos (by decide +kernel)] at hzero
  exact ⟨hr, hone, hfresh, p, q, _, hs, by decide +kernel, hlike, hidle, hexchanged, haccounted hr,
    Nat.succ.inj hzero⟩

end PortalNet
