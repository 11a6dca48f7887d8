import PortalNet.Proofs.Portal.Record
import PortalNet.Proofs.Registry.Steps
import PortalNet.Registry.Link

/-! # Runs of the registry

Everything that can happen to a registry, one event after the other. Worlds come and go without it.
Whatever portals are linked or read from a file come in as portals that keep nothing loaded, and
their numbers are finite, but for those that another server sends.
-/

namespace PortalNet

namespace Registry

inductive Event where
  /-- A portal that was just built or decoded keeps nothing loaded. -/
  | register (p : Portal) (idle : p.held = none)
  | remove (id : Uuid) (otherDirection : Bool)
  | removeAt (l : Location)
  | removeNearest (l : Location) (otherDirection : Bool)
  | removeNamed (name : String)
  | rename (id : Uuid) (name : Option String) (fresh : Uuid)
  | setAllowsNonPlayers (id : Uuid) (allow : Bool)
  | activate (id : Uuid)
  | deactivate (id : Uuid)
  | viewActivate (id : Uuid)
  | viewDeactivate (id : Uuid)
  | observe (range : ActivationRange) (observers : List Observer)
  | update
  /-- Some portals are asked where they start, and some where they lead. -/
  | look (origins dests : Uuid → Portal → Bool)
  /-- The portal that leads back is searched for. -/
  | pair (p : Portal)
  /-- Worlds are loaded, unloaded or built in. -/
  | host (worlds : Worlds)

def Event.registered : Event → List Portal
  | .register p _ => [p]
  | _ => []

def look (r : Registry) (origins dests : Uuid → Portal → Bool) : Registry :=
  { r with
    portals := r.portals.mapValues fun k p =>
      let q := if dests k p then p.resolveDest r.worlds else p
      if origins k p then q.resolveOrigin r.worlds else q }

def after (r : Registry) : Event → Registry
  | .register p _ => r.register p
  | .remove id otherDirection => (r.remove id otherDirection).2
  | .removeAt l => (r.removeAt l).2
  | .removeNearest l otherDirection => (r.removeNearest l otherDirection).2
  | .removeNamed name => (r.removeNamed name).2
  | .rename id name fresh => (r.rename id name fresh).2
  | .setAllowsNonPlayers id allow => (r.setAllowsNonPlayers id allow).2
  | .activate id => r.activate id
  | .deactivate id => r.deactivate id
  | .viewActivate id => r.viewActivate id
  | .viewDeactivate id => r.viewDeactivate id
  | .observe range observers => (r.observe range observers).1
  | .update => r.update.2
  | .look origins dests => r.look origins dests
  | .pair p => r.resolvePair p
  | .host worlds => { r with worlds }

def run (r : Registry) (es : List Event) : Registry :=
  es.foldl after r

/-- What becomes of a registry in one event: it takes some steps, a portal comes in or takes the
place of its original, or the worlds change. -/
inductive Change (r : Registry) : Event → Registry → Prop where
  | steps {e : Event} {s : Registry} : r.Steps s → Change r e s
  | register (p : Portal) (idle : p.held = none) : Change r (.register p idle) (r.register p)
  | replace {e : Event} {id : Uuid} {p : Portal} (fresh : Uuid) (name : Option String) :
      r.get? id = some p → Change r e ((r.take id).2.register (p.replacement fresh name))
  | host {e : Event} (worlds : Worlds) : Change r e { r with worlds }

variable {r s t : Registry} {e : Event} {es : List Event} {k id : Uuid} {p : Portal}

theorem step_look {origins dests : Uuid → Portal → Bool} : r.Step (r.look origins dests) := by
  refine .retouch _ fun k p _ => ?_
  dsimp only
  split <;> split
  · exact Portal.Retouched.resolveDest.trans .resolveOrigin
  · exact .resolveOrigin
  · exact .resolveDest
  · exact .refl

theorem steps_resolvePair : r.Steps (r.resolvePair p) := by
  have hdest : r.Step
      { r with portals := r.portals.modify p.id (·.resolveDest r.worlds) } :=
    step_modify fun _ => .resolveDest
  simp only [resolvePair]
  split
  · exact .refl
  · split
    · exact (Relation.ReflTransGen.single hdest).tail step_resolveOrigins
    · exact .single hdest

theorem change_rename {name : Option String} {fresh : Uuid} :
    r.Change e (r.rename id name fresh).2 := by
  unfold Registry.rename
  cases hp : r.get? id with
  | none => exact .steps .refl
  | some p =>
    dsimp only
    split
    · exact .steps (.single (step_insert hp .rename))
    · exact .replace fresh name hp

/-- A portal that cannot carry a name stays as it was. -/
theorem rename_failed {name : Option String} {fresh : Uuid} {err : PortalError} :
    (r.rename id name fresh).1 = .error err → (r.rename id name fresh).2 = r := by
  unfold Registry.rename
  cases hp : r.get? id with
  | none => exact fun _ => rfl
  | some p =>
    dsimp only
    split
    · unfold Portal.rename
      split
      · intro _
        exact congrArg (fun portals => { r with portals }) (Table.insert_of_get? hp)
      · nofun
    · nofun

theorem setAllowsNonPlayers_failed {allow : Bool} {err : PortalError} :
    (r.setAllowsNonPlayers id allow).1 = .error err → (r.setAllowsNonPlayers id allow).2 = r := by
  unfold Registry.setAllowsNonPlayers
  cases r.get? id with
  | none => exact fun _ => rfl
  | some p => nofun

theorem change_after : r.Change e (r.after e) := by
  cases e with
  | register p idle => exact .register p idle
  | remove id otherDirection => exact .steps steps_remove
  | removeAt l => exact .steps steps_removeAt
  | removeNearest l otherDirection => exact .steps steps_removeNearest
  | removeNamed name => exact .steps steps_removeNamed
  | rename id name fresh => exact change_rename
  | setAllowsNonPlayers id allow => exact .steps steps_setAllowsNonPlayers
  | activate id => exact .steps (.single (.activate id))
  | deactivate id => exact .steps (.single (.deactivate id))
  | viewActivate id => exact .steps (.single step_viewActivate)
  | viewDeactivate id => exact .steps (.single step_viewDeactivate)
  | observe range observers => exact .steps steps_observe
  | update => exact .steps steps_update
  | look origins dests => exact .steps (.single step_look)
  | pair p => exact .steps steps_resolvePair
  | host worlds => exact .host worlds

/-- What every change keeps is kept by a whole run. -/
theorem run_induction {motive : Registry → Prop} (h : motive r)
    (hchange : ∀ r e s, motive r → r.Change e s → motive s) : motive (r.run es) := by
  induction es generalizing r with
  | nil => exact h
  | cons e es ih => exact ih (hchange r e _ h change_after)

/-- The second registry comes from the first by a run in which only grounded portals come in. -/
def RunsTo (r s : Registry) : Prop :=
  ∃ es, s = r.run es ∧ ∀ p ∈ es.flatMap Event.registered, p.Grounded

section link

variable {options : LinkOptions} {origin : Selection} {size : Size Double} {near far : Position}

/-- What a link between two windows is made of. -/
theorem of_linkEnds {destination : Selection}
    (h : linkEnds origin destination options = .ok (size, near, far)) :
    origin.size = .ok size ∧ origin.position = .ok near ∧
      (if options.invert then destination.invert else destination).position = .ok far := by
  unfold linkEnds at h
  obtain ⟨m, hm, h⟩ := Failure.bind_eq_ok_iff.1 h
  obtain ⟨n, -, h⟩ := Failure.bind_eq_ok_iff.1 h
  dsimp only at h
  split at h
  · cases h
  · obtain ⟨p, hp, h⟩ := Failure.bind_eq_ok_iff.1 h
    obtain ⟨q, hq, h⟩ := Failure.bind_eq_ok_iff.1 h
    cases h
    exact ⟨hm, hp, hq⟩

/-- What a link to another server is made of. -/
theorem of_linkEndsAbroad {external : ExternalSelection}
    (h : linkEndsAbroad origin external options = .ok (size, near, far)) :
    origin.size = .ok size ∧ origin.position = .ok near ∧ external.position.isExternal = true ∧
      far = if options.invert then external.position.inverted else external.position := by
  unfold linkEndsAbroad at h
  obtain ⟨m, hm, h⟩ := Failure.bind_eq_ok_iff.1 h
  dsimp only at h
  split at h
  · cases h
  · split at h
    · cases h
    · next hexternal =>
      obtain ⟨p, hp, h⟩ := Failure.bind_eq_ok_iff.1 h
      cases h
      exact ⟨hm, hp, Decidable.not_not.1 hexternal, rfl⟩

/-- A link that fails leaves the registry as it was. -/
theorem link_failed {destination : Selection} {fresh : Nat → Uuid} {f : Failure} :
    (r.link origin destination options fresh).1 = .error f →
      (r.link origin destination options fresh).2 = r := by
  unfold Registry.link
  cases linkEnds origin destination options with
  | error e => exact fun _ => rfl
  | ok found =>
    dsimp only
    split <;> nofun

theorem linkExternal_failed {external : ExternalSelection} {fresh : Uuid} {f : Failure} :
    (r.linkExternal origin external options fresh).1 = .error f →
      (r.linkExternal origin external options fresh).2 = r := by
  unfold Registry.linkExternal
  cases linkEndsAbroad origin external options with
  | error e => exact fun _ => rfl
  | ok found => nofun

end link

end Registry

namespace Selections

variable {l : Selections} {r : Registry} {options : LinkOptions} {f : Failure}

theorem link_failed {fresh : Nat → Uuid} (h : (l.link r options fresh).1 = .error f) :
    (l.link r options fresh).2 = r := by
  unfold link at h ⊢
  split
  · rfl
  · rfl
  · next ho hd =>
    rw [ho, hd] at h
    exact Registry.link_failed h

theorem linkExternal_failed {fresh : Uuid} (h : (l.linkExternal r options fresh).1 = .error f) :
    (l.linkExternal r options fresh).2 = r := by
  unfold linkExternal at h ⊢
  split
  · rfl
  · rfl
  · next ho hx =>
    rw [ho, hx] at h
    exact Registry.linkExternal_failed h

end Selections

namespace Registry

variable {r s t : Registry} {id : Uuid}

namespace RunsTo

theorem refl : r.RunsTo r :=
  ⟨[], rfl, by rintro _ ⟨⟩⟩

theorem trans (h : r.RunsTo s) (h' : s.RunsTo t) : r.RunsTo t := by
  obtain ⟨es, rfl, hes⟩ := h
  obtain ⟨fs, rfl, hfs⟩ := h'
  refine ⟨es ++ fs, (List.foldl_append ..).symm, ?_⟩
  rw [List.flatMap_append, List.forall_mem_append]
  exact ⟨hes, hfs⟩

theorem event (e : Event) (h : ∀ p ∈ e.registered, p.Grounded) : r.RunsTo (r.after e) :=
  ⟨[e], rfl, by simpa using h⟩

theorem quiet (e : Event) (h : e.registered = []) : r.RunsTo (r.after e) :=
  event e (by rw [h]; rintro _ ⟨⟩)

theorem resolveOrigins : r.RunsTo r.resolveOrigins :=
  quiet (.look (fun _ _ => true) fun _ _ => false) rfl

theorem register (h : p.held = none) (hp : p.Grounded) : r.RunsTo (r.register p) :=
  event (.register p h) (List.forall_mem_singleton.2 hp)

theorem registerAll {ps : List Portal} (h : ∀ p ∈ ps, p.held = none ∧ p.Grounded) :
    r.RunsTo (ps.foldl Registry.register r) := by
  induction ps generalizing r with
  | nil => exact refl
  | cons p ps ih =>
    obtain ⟨hp, hps⟩ := List.forall_mem_cons.1 h
    exact (register hp.1 hp.2).trans (ih hps)

/-- Linking registers one new portal or two, or none. -/
theorem link {origin destination : Selection} {options : LinkOptions} {fresh : Nat → Uuid} :
    r.RunsTo (r.link origin destination options fresh).2 := by
  unfold Registry.link
  split
  · exact refl
  · next size near far h =>
    obtain ⟨hsize, hnear, hfar⟩ := of_linkEnds h
    have hsize := Selection.finite_size hsize
    have hnear := Selection.finite_position hnear
    have hfar := Selection.finite_position hfar
    dsimp only
    split
    · exact (register rfl ⟨hfar, fun _ => hnear, hsize⟩).trans
        (register rfl ⟨hnear, fun _ => hfar, hsize⟩)
    · exact register rfl ⟨hnear, fun _ => hfar, hsize⟩

theorem linkExternal {origin : Selection} {external : ExternalSelection} {options : LinkOptions}
    {fresh : Uuid} : r.RunsTo (r.linkExternal origin external options fresh).2 := by
  unfold Registry.linkExternal
  split
  · exact refl
  · next size near far h =>
    obtain ⟨hsize, hnear, hexternal, rfl⟩ := of_linkEndsAbroad h
    refine register rfl ⟨Selection.finite_position hnear, fun hlocal => ?_,
      Selection.finite_size hsize⟩
    have hfar :
        (if options.invert then external.position.inverted else external.position).isExternal =
        true := by
      split <;> exact hexternal
    exact absurd (hfar.symm.trans hlocal) (by decide)

theorem rename {name : Option String} {fresh : Uuid} :
    r.RunsTo (r.rename id name fresh).2 :=
  quiet (.rename id name fresh) rfl

theorem setAllowsNonPlayers {allow : Bool} : r.RunsTo (r.setAllowsNonPlayers id allow).2 :=
  quiet (.setAllowsNonPlayers id allow) rfl

end RunsTo

end Registry

/-- A portal that was just read keeps nothing loaded. -/
theorem Portal.held_of_ofJson? {fresh : Uuid} {j : Json} {p : Portal}
    (h : Portal.ofJson? fresh j = some p) : p.held = none := by
  unfold Portal.ofJson? at h
  obtain ⟨fields, -, h⟩ := Option.bind_eq_some_iff.1 h
  split at h
  · simp only [Option.bind_eq_bind, Option.bind_eq_some_iff] at h
    obtain ⟨_, -, _, -, _, -, _, -, _, -, _, -, _, -, _, -, _, -, h⟩ := h
    cases h
    rfl
  · cases h

end PortalNet
