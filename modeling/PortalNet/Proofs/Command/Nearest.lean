import PortalNet.Proofs.Backend.Portals
import PortalNet.Proofs.Command
import PortalNet.Proofs.Registry.Cascade
import PortalNet.Proofs.Registry.Recall
import PortalNet.Proofs.Registry.Renaming

/-! # Edits of the nearest portal

Three commands go for the portal nearest to the player. They find one if there is one in reach, they
all find the same one, whatever the order of the portals, unless two are equally near, and they
change no other portal, but for the other direction where that was asked for.
-/

namespace PortalNet

/-- Of two numbers, the one that comes first in the line of all words is not the greater one. -/
theorem Floating.le_of_rank_le {f : FloatFormat} {x y : Floating f} (hx : x.isNaN = false)
    (hy : y.isNaN = false) (h : x.rank ≤ y.rank) : x ≤ y := by
  refine ⟨hx, hy, ?_⟩
  unfold rank at h
  unfold key
  cases hneg : x.negative <;> cases hneg' : y.negative <;> simp only [hneg, hneg'] at h ⊢ <;>
    simp only [if_true, Bool.false_eq_true, if_false] at h ⊢ <;> omega

namespace Registry

/-- The portal starts within some distance of a place, in the world of this place. -/
def InReach (r : Registry) (l : Location) (limit : Double) (p : Portal) : Prop :=
  ∃ o, p.origin.location? r.worlds = some o ∧ o.world.id = l.world.id ∧
    o.point.distance l.point ≤ limit

/-- The portal starts at this distance, and no other portal in reach starts nearer. -/
structure Nearest (r : Registry) (l : Location) (limit : Double) (p : Portal) (d : Double) :
    Prop where
  reached : r.Reached l limit p d
  least : ∀ q d', r.Reached l limit q d' → d ≤ d' ∧ d.rank ≤ d'.rank

/-- No two portals in reach are equally near. -/
def Graded (r : Registry) (l : Location) (limit : Double) : Prop :=
  ∀ p q d, r.Reached l limit p d → r.Reached l limit q d → p = q

variable {r s : Registry} {l : Location} {limit d : Double} {p q : Portal} {id fresh : Uuid}
  {portals : Table Uuid Portal} {otherDirection : Bool}

section closest

theorem exists_reached_iff : (∃ d, r.Reached l limit p d) ↔ p ∈ r.all ∧ r.InReach l limit p := by
  have hdistance : ∀ d, r.distance? l p = some d ↔ ∃ o, p.origin.location? r.worlds = some o ∧
      o.world.id = l.world.id ∧ o.point.distance l.point = d := by
    intro d
    simp only [Registry.distance?, Option.bind_eq_bind, Option.bind_eq_some_iff,
      Location.distance?, Option.ite_none_right_eq_some, Option.some.injEq]
  constructor
  · rintro ⟨d, hp, hd, hle⟩
    obtain ⟨o, ho, hw, rfl⟩ := (hdistance d).1 hd
    exact ⟨hp, o, ho, hw, hle⟩
  · rintro ⟨hp, o, ho, hw, hle⟩
    exact ⟨_, hp, (hdistance _).2 ⟨o, ho, hw, rfl⟩, hle⟩

theorem closest?_isSome_iff : (r.closest? l limit).isSome ↔ ∃ p ∈ r.all, r.InReach l limit p := by
  rw [Option.isSome_iff_exists]
  constructor
  · rintro ⟨p, hp⟩
    obtain ⟨d, hd, -⟩ := closest?_spec hp
    exact ⟨p, exists_reached_iff.1 ⟨d, hd⟩⟩
  · rintro ⟨p, hp, hreach⟩
    obtain ⟨d, hd⟩ := exists_reached_iff.2 ⟨hp, hreach⟩
    exact exists_closest? hd

theorem nearest_of_closest? (h : r.closest? l limit = some p) : ∃ d, r.Nearest l limit p d := by
  obtain ⟨d, hd, hleast⟩ := closest?_spec h
  refine ⟨d, hd, fun q d' hq => ⟨?_, hleast q d' hq⟩⟩
  exact Floating.le_of_rank_le hd.2.2.1 hq.2.2.1 (hleast q d' hq)

theorem reached_reorder (h : portals.entries.Perm r.portals.entries) :
    Reached { r with portals } l limit p d ↔ r.Reached l limit p d :=
  and_congr_left fun _ => (h.map Prod.snd).mem_iff

/-- Which portal is found does not depend on the order of the portals. -/
theorem Graded.closest?_reorder (h : r.Graded l limit)
    (hperm : portals.entries.Perm r.portals.entries) :
    closest? { r with portals } l limit = r.closest? l limit := by
  have hsome : (closest? { r with portals } l limit).isSome = (r.closest? l limit).isSome := by
    rw [Bool.eq_iff_iff, closest?_isSome_iff, closest?_isSome_iff]
    exact exists_congr fun p => and_congr_left fun _ => (hperm.map Prod.snd).mem_iff
  cases hp : r.closest? l limit with
  | none =>
    rw [hp] at hsome
    exact Option.not_isSome_iff_eq_none.1 (by rw [hsome]; decide)
  | some p =>
    rw [hp] at hsome
    obtain ⟨q, hq⟩ := Option.isSome_iff_exists.1 hsome
    obtain ⟨d, hpd, hpmin⟩ := closest?_spec hp
    obtain ⟨d', hqd, hqmin⟩ := closest?_spec hq
    -- each of the two distances is at most the other, and then they are the same word
    obtain rfl : d = d' := Floating.rank_inj <|
      Int.le_antisymm (hpmin _ _ (reached_reorder hperm |>.1 hqd))
        (hqmin _ _ (reached_reorder hperm |>.2 hpd))
    rw [hq, h p q d hpd ((reached_reorder hperm).1 hqd)]

theorem Keyed.get?_of_closest? (hr : r.Keyed) (h : r.closest? l limit = some p) :
    r.get? p.id = some p := by
  obtain ⟨d, hp, -⟩ := closest?_spec h
  exact hr.get?_of_mem hp.1

end closest

section found

theorem get?_resolveOrigins (hp : r.get? id = some p) :
    r.resolveOrigins.get? id = some (p.resolveOrigin r.worlds) := by
  rw [cut_resolveOrigins.kept id (Set.notMem_empty id), hp]
  rfl

theorem going_resolveOrigins :
    r.resolveOrigins.going (p.resolveOrigin r.worlds) otherDirection =
      r.going p otherDirection := by
  have hled := (@cut_resolveOrigins r).union_led
    (Portal.Retouched.resolveOrigin.toRevised : p.Revised r.worlds (p.resolveOrigin r.worlds))
  rw [Set.empty_union, Set.empty_union] at hled
  rw [going, going, hled]
  rfl

theorem clearing_resolveOrigins :
    r.resolveOrigins.clearing (p.resolveOrigin r.worlds) otherDirection =
      r.clearing p otherDirection := by
  have hr : p.Revised r.worlds (p.resolveOrigin r.worlds) :=
    Portal.Retouched.resolveOrigin.toRevised
  have hfar : (p.resolveOrigin r.worlds).farMark? r.resolveOrigins.worlds =
      p.farMark? r.worlds := hr.farMark?
  rw [clearing, clearing, cut_resolveOrigins.marked_of_empty, cut_resolveOrigins.marked_of_empty,
    going_resolveOrigins, hfar]
  rfl

/-- The nearest portal is removed with what goes with it. -/
theorem removeNearest_found (otherDirection : Bool) (hr : r.Keyed)
    (h : r.closest? l reach = some p) :
    (r.removeNearest l otherDirection).1.map (·.id) = .ok p.id ∧
      r.Cut (r.going p otherDirection) (r.clearing p otherDirection) true
        (r.removeNearest l otherDirection).2 := by
  have hget := get?_resolveOrigins (hr.get?_of_closest? h)
  have hkeyed : r.resolveOrigins.Keyed := cut_resolveOrigins.narrows.keyed hr
  obtain ⟨hanswer, hcut⟩ := @remove_exact _ _ otherDirection hkeyed (mem_all_iff.2 ⟨p.id, hget⟩)
  have hid : ((p.resolveOrigin r.worlds).shutDown r.regions).1.id = p.id :=
    (@Portal.Revised.shutDown r.worlds (p.resolveOrigin r.worlds) r.regions).id
  have hall := cut_resolveOrigins.trans hcut
  rw [going_resolveOrigins, clearing_resolveOrigins, Set.empty_union, Set.empty_union,
    Bool.true_or] at hall
  have hpair : r.resolveOrigins.remove p.id otherDirection =
      (some ((p.resolveOrigin r.worlds).shutDown r.regions).1,
        (r.resolveOrigins.remove p.id otherDirection).2) :=
    Prod.ext hanswer rfl
  rw [removeNearest, h]
  dsimp only
  rw [hpair]
  exact ⟨congrArg Except.ok hid, hall⟩

end found

theorem RunsTo.accounted (h : r.RunsTo s) (hr : r.Accounted) : s.Accounted := by
  obtain ⟨es, rfl, -⟩ := h
  exact run_induction hr fun _ _ _ => .of_change

end Registry

namespace Command

open Registry

/-- The commands that go for the nearest portal. -/
def editsNearest : Command → Bool
  | removeNearest _ | rename _ | setAllowsNonPlayers _ => true
  | _ => false

/-- What a command answers and leaves when this is the portal that it goes for. All portals were
asked where they start, so that those that stay remember it. -/
inductive Hits (r : Registry) (p : Portal) (fresh : Uuid) :
    Command → Except Failure String → Registry → Prop
  | removed {otherDirection : Bool} {s : Registry} :
    r.Cut (r.going p otherDirection) (r.clearing p otherDirection) true s →
    Hits r p fresh (.removeNearest otherDirection) (.ok s!"Removed portal {p.id}") s
  | refused {name : Option String} {s : Registry} : p.isAutoSpawned → r.Consulted s →
    Hits r p fresh (.rename name) (.error (.refused .netherPortalNamed)) s
  | renamed {name : Option String} {s : Registry} : p.isCustom →
    ¬ (RenameKind.Reserved p.name ∨ RenameKind.Reserved name) →
    r.resolveOrigins.Exchanged p.id p.id { p.resolveOrigin r.worlds with name } s →
    s.regions = r.regions →
    Hits r p fresh (.rename name) (.ok "Portal renamed") s
  | replaced {name : Option String} {s : Registry} : p.isCustom →
    RenameKind.Reserved p.name ∨ RenameKind.Reserved name →
    r.resolveOrigins.Exchanged p.id fresh ((p.resolveOrigin r.worlds).replacement fresh name) s →
    s.regions = (if p.isActivated then p.held else none).elim r.regions r.regions.release →
    Hits r p fresh (.rename name) (.ok "Portal renamed") s
  | allowed {allow : Bool} {s : Registry} :
    r.resolveOrigins.Exchanged p.id p.id
      { p.resolveOrigin r.worlds with allowsNonPlayers := allow } s →
    s.regions = r.regions →
    Hits r p fresh (.setAllowsNonPlayers allow)
      (.ok s!"Non-player teleportation set to {allow}") s

variable {s : Store} {r : Registry} {handle : Handle} {x : Session} {c : Command} {p : Portal}
  {l : Location} {fresh : Nat → Uuid} {message : String} {name : Option String} {allow : Bool}
  {change : Registry → Portal → Except PortalError Unit × Registry}

theorem editNearest_eq {e : Except PortalError Unit} {t : Registry}
    (h : r.closest? l reach = some p) (ht : change r.resolveOrigins p = (e, t)) :
    editNearest s r l message change = ⟨told (fun _ => message) e, s, t⟩ := by
  rw [editNearest, h]
  dsimp only
  rw [ht]

/-- If no portal is in reach, nothing is done and this is the error. -/
theorem execute_missed (hx : s.session? handle = some x) (hc : c.editsNearest = true)
    (h : r.closest? x.avatar.location reach = none) :
    c.execute s r handle fresh =
      ⟨.error (.refused (.noPortalWithin reach)), s, r.resolveOrigins⟩ := by
  rw [execute, hx]
  cases c with
  | removeNearest otherDirection =>
    dsimp only
    rw [Registry.removeNearest, h]
    rfl
  | rename name =>
    dsimp only
    rw [editNearest, h]
  | setAllowsNonPlayers allow =>
    dsimp only
    rw [editNearest, h]
  | _ => cases hc

theorem execute_rename {k : Uuid} {t : Registry} (hx : s.session? handle = some x)
    (h : r.closest? x.avatar.location reach = some p) (hcustom : p.isCustom = true)
    (ht : r.resolveOrigins.rename p.id name (fresh 0) = (.ok k, t)) :
    (rename name).execute s r handle fresh = ⟨.ok "Portal renamed", s, t⟩ := by
  rw [execute, hx]
  refine editNearest_eq (e := .ok ()) h ?_
  rw [Portal.isAutoSpawned, hcustom, ht]
  rfl

theorem hits_rename (hr : r.Keyed) (hfresh : r.get? (fresh 0) = none)
    (hx : s.session? handle = some x) (h : r.closest? x.avatar.location reach = some p) :
    let o := (rename name).execute s r handle fresh
    Hits r p (fresh 0) (.rename name) o.result o.registry := by
  intro o
  have hget := get?_resolveOrigins (hr.get?_of_closest? h)
  cases hcustom : p.isCustom with
  | false =>
    have hauto : p.isAutoSpawned = true := by rw [Portal.isAutoSpawned, hcustom]; rfl
    have ho : o = ⟨.error (.refused .netherPortalNamed), s, r.resolveOrigins⟩ := by
      simp only [o, execute, hx]
      exact editNearest_eq (e := .error .netherPortalNamed) h (if_pos hauto)
    rw [ho]
    exact .refused hauto .resolveOrigins
  | true =>
    by_cases hreserved : RenameKind.Reserved p.name ∨ RenameKind.Reserved name
    · let q := (p.resolveOrigin r.worlds).replacement (fresh 0) name
      have hnew : r.resolveOrigins.get? q.id = none := by
        rw [cut_resolveOrigins.kept q.id (Set.notMem_empty _), show r.get? q.id = none from hfresh]
        rfl
      have hregions : ((r.resolveOrigins.take p.id).2.register q).regions =
          (if p.isActivated then p.held else none).elim r.regions r.regions.release := by
        rw [replace_eq hget hnew]
        exact Portal.shutDown_regions
      have ho : o = _ :=
        execute_rename hx h hcustom ((rename_of_get? hget).trans (if_pos hreserved))
      rw [ho]
      exact .replaced hcustom hreserved (exchanged_replace hget hnew) hregions
    · have hauto : ¬ (p.resolveOrigin r.worlds).isAutoSpawned = true := by
        simp [Portal.isAutoSpawned, Portal.resolveOrigin, hcustom]
      have ho : o = _ := execute_rename hx h hcustom
        ((rename_of_get? hget).trans ((if_neg hreserved).trans (if_neg hauto)))
      rw [ho]
      exact .renamed hcustom hreserved (exchanged_insert hget) rfl

theorem hits_setAllowsNonPlayers (hr : r.Keyed) (hx : s.session? handle = some x)
    (h : r.closest? x.avatar.location reach = some p) :
    let o := (setAllowsNonPlayers allow).execute s r handle fresh
    Hits r p (fresh 0) (.setAllowsNonPlayers allow) o.result o.registry := by
  intro o
  have hget := get?_resolveOrigins (hr.get?_of_closest? h)
  let t : Registry := { r.resolveOrigins with
    portals := r.resolveOrigins.portals.insert p.id
      { p.resolveOrigin r.worlds with allowsNonPlayers := allow } }
  have ho : o = ⟨.ok s!"Non-player teleportation set to {allow}", s, t⟩ := by
    simp only [o, execute, hx]
    refine editNearest_eq (e := .ok ()) h ?_
    rw [Registry.setAllowsNonPlayers, hget]
    rfl
  rw [ho]
  exact .allowed (exchanged_insert hget) rfl

theorem hits_removeNearest {otherDirection : Bool} (hr : r.Keyed)
    (hx : s.session? handle = some x) (h : r.closest? x.avatar.location reach = some p) :
    let o := (removeNearest otherDirection).execute s r handle fresh
    Hits r p (fresh 0) (.removeNearest otherDirection) o.result o.registry := by
  obtain ⟨hanswer, hcut⟩ := removeNearest_found otherDirection hr h
  have hmessage : told (fun q : Portal => s!"Removed portal {q.id}")
      (r.removeNearest x.avatar.location otherDirection).1 = .ok s!"Removed portal {p.id}" := by
    cases hq : (r.removeNearest x.avatar.location otherDirection).1 with
    | error e =>
      rw [hq] at hanswer
      cases hanswer
    | ok q =>
      rw [hq] at hanswer
      have hid : q.id = p.id := Except.ok.inj hanswer
      rw [told, hid]
  rw [execute, hx]
  dsimp only
  rw [hmessage]
  exact .removed hcut

theorem execute_store_of_editsNearest (hc : c.editsNearest = true) :
    (c.execute s r handle fresh).store = s := by
  rw [execute_store]
  cases c <;> first | exact Store.modify_id | cases hc

theorem execute_hits (hr : r.Keyed) (hfresh : r.get? (fresh 0) = none)
    (hx : s.session? handle = some x) (hc : c.editsNearest = true)
    (h : r.closest? x.avatar.location reach = some p) :
    let o := c.execute s r handle fresh
    Hits r p (fresh 0) c o.result o.registry := by
  cases c with
  | removeNearest otherDirection => exact hits_removeNearest hr hx h
  | rename name => exact hits_rename hr hfresh hx h
  | setAllowsNonPlayers allow => exact hits_setAllowsNonPlayers hr hx h
  | _ => cases hc

/-- A command that found its portal does not answer that there is none. -/
theorem Hits.kind_ne {id : Uuid} {result : Except Failure String} {t : Registry}
    {e : PortalError} (h : Hits r p id c result t) (he : result = .error (.refused e)) :
    e.kind ≠ .notFound := by
  cases h <;> cases he
  decide

/-- A portal is found if one is in reach, then one to which none in reach is nearer, and the same in
every order of the portals unless two are equally near. The commands that go for the nearest portal
answer that there is none if none is in reach, and then nothing changes; else they hit just this
portal. -/
theorem hits_nearest (hr : r.Keyed) :
    (∀ l limit,
      ((r.closest? l limit).isSome ↔ ∃ p ∈ r.all, r.InReach l limit p) ∧
      (∀ p, r.closest? l limit = some p → ∃ d, r.Nearest l limit p d) ∧
      (r.Graded l limit → ∀ portals : Table Uuid Portal, portals.entries.Perm r.portals.entries →
        closest? { r with portals } l limit = r.closest? l limit)) ∧
    ∀ (s : Store) (handle : Handle) (x : Session) (fresh : Nat → Uuid) (c : Command),
      s.session? handle = some x → r.get? (fresh 0) = none → c.editsNearest = true →
      let here := x.avatar.location
      let o := c.execute s r handle fresh
      o.store = s ∧ (r.Accounted → o.registry.Accounted) ∧
      ((∃ e : PortalError, o.result = .error e ∧ e.kind = .notFound) ↔
        ∀ p ∈ r.all, ¬ r.InReach here reach p) ∧
      ((∃ e : PortalError, o.result = .error e ∧ e.kind = .notFound) → r.Consulted o.registry) ∧
      ∀ p, r.closest? here reach = some p → Hits r p (fresh 0) c o.result o.registry := by
  refine ⟨fun l limit => ⟨closest?_isSome_iff, fun p => nearest_of_closest?,
    fun h portals hperm => h.closest?_reorder hperm⟩, ?_⟩
  intro s handle x fresh c hx hfresh hc here o
  have hnone : (∀ p ∈ r.all, ¬ r.InReach here reach p) ↔ r.closest? here reach = none := by
    rw [← Option.not_isSome_iff_eq_none, closest?_isSome_iff]
    simp only [not_exists, not_and]
  have hmissed : (∃ e : PortalError, o.result = .error e ∧ e.kind = .notFound) ↔
      r.closest? here reach = none := by
    constructor
    · rintro ⟨e, he, hkind⟩
      cases hclosest : r.closest? here reach with
      | none => rfl
      | some p => exact absurd hkind ((execute_hits hr hfresh hx hc hclosest).kind_ne he)
    · intro h
      have ho : o = _ := execute_missed hx hc h
      exact ⟨_, congrArg Outcome.result ho, rfl⟩
  refine ⟨execute_store_of_editsNearest hc, runsTo_execute.accounted, hmissed.trans hnone.symm, ?_,
    fun p => execute_hits hr hfresh hx hc⟩
  rintro ⟨e, he, -⟩
  exact (harmless_execute c fresh _ he).2

end Command

open Sample in
/-- One of the two portals is in the world of the player, and it alone is closed to all others. -/
theorem portal_here_closed :
    let r := registryOf crowd
    let p := passing 8 here there true
    let c := Command.setAllowsNonPlayers false
    let o := c.execute traveller r 1 fun _ => player
    r.Keyed ∧ (∃ d, r.Nearest avatar.location Registry.reach p d) ∧
    Command.Hits r p player c o.result o.registry ∧
    o.registry.all.map (·.allowsNonPlayers) = [false, true] := by
  intro r p c o
  have hr : r.Keyed := ((Registry.Accounted.empty.register rfl).register rfl).keyed
  have hp : r.closest? avatar.location Registry.reach = some p := by decide +kernel
  obtain ⟨hclosest, hcommand⟩ := Command.hits_nearest hr
  obtain ⟨-, -, -, -, hhits⟩ :=
    hcommand traveller 1 _ (fun _ => player) c rfl (by decide +kernel) rfl
  exact ⟨hr, (hclosest _ _).2.1 p hp, hhits p hp, by decide +kernel⟩

end PortalNet
