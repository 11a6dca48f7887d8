import Mathlib.Data.List.Nodup
import PortalNet.Proofs.Backend.Portals
import PortalNet.Proofs.Backend.Transfers
import PortalNet.Proofs.Registry.Recall

/-! # Portals that survive a restart

The numbers of a registered portal are finite but for those of a place on another server, which are
whatever that server sent. A portal that leads to a place that is not finite is written into the
file and is not there when the file is read.
-/

namespace PortalNet

namespace Portal.Grounded

variable {ws : Worlds} {p q : Portal}

theorem of_revised (hp : p.Grounded) (h : p.Revised ws q) : q.Grounded := by
  have horigin : q.origin.position = p.origin.position := by
    rcases h.origin with ho | ho <;> simp [ho]
  have hdest : q.dest.position = p.dest.position := by
    rcases h.dest with hd | hd <;> simp [hd]
  refine ⟨?_, fun hlocal => ?_, ?_⟩
  · rw [horigin]
    exact hp.origin
  · rw [isCrossServer, hdest] at hlocal
    rw [hdest]
    exact hp.dest hlocal
  · rw [h.size]
    exact hp.size

theorem replacement (hp : p.Grounded) (id : Uuid) (name : Option String) :
    (p.replacement id name).Grounded :=
  ⟨hp.origin, hp.dest, hp.size⟩

/-- Only where it leads to can keep a portal from being read. -/
theorem reread?_isSome_iff (hp : p.Grounded) : (p.reread? Floating.reread?).isSome ↔
    (p.isCrossServer = true → ∀ x ∈ p.dest.position.numbers, x.isFinite = true) := by
  simp only [reread?_isSome, Floating.reread?_isSome, numbers, List.forall_mem_append]
  constructor
  · exact fun h _ => h.1.2
  · intro h
    refine ⟨⟨hp.origin, ?_⟩, hp.size⟩
    cases hcross : p.isCrossServer with
    | true => exact h hcross
    | false => exact hp.dest hcross

end Portal.Grounded

namespace Registry

variable {r s : Registry} {e : Event} {es : List Event}

theorem grounded_change (h : r.Change e s) (hr : ∀ p ∈ r.all, p.Grounded)
    (he : ∀ p ∈ e.registered, p.Grounded) : ∀ q ∈ s.all, q.Grounded := by
  have hnarrows : ∀ {t : Registry}, r.Narrows t → ∀ q ∈ t.all, q.Grounded := by
    intro t ht q hq
    obtain ⟨k, hq⟩ := mem_all_iff.1 hq
    obtain ⟨p, hp, hrevised⟩ := ht.portal k q hq
    exact (hr p (mem_all_iff.2 ⟨k, hp⟩)).of_revised hrevised
  intro q hq
  cases h with
  | steps hs => exact hnarrows (.of_steps hs) q hq
  | register p idle =>
    rcases mem_all_insert hq with rfl | hq
    · exact he q (List.mem_singleton_self q)
    · exact hr q hq
  | replace fresh name hp =>
    rcases mem_all_insert hq with rfl | hq
    · exact (hr _ (mem_all_iff.2 ⟨_, hp⟩)).replacement fresh name
    · exact hnarrows .take q hq
  | host worlds => exact hr q hq

theorem grounded_run (hr : ∀ p ∈ r.all, p.Grounded)
    (hes : ∀ p ∈ es.flatMap Event.registered, p.Grounded) : ∀ q ∈ (r.run es).all, q.Grounded := by
  induction es generalizing r with
  | nil => exact hr
  | cons e es ih =>
    rw [List.flatMap_cons, List.forall_mem_append] at hes
    exact ih (grounded_change change_after hr hes.1) hes.2

end Registry

namespace Archive

variable {ps : List Portal} {p : Portal}

/-- What whoever reads the file of some portals has. -/
def kept (ps : List Portal) : List Portal :=
  ps.filterMap (Portal.reread? Floating.reread?)

theorem mem_ids_kept_iff (distinct : (ps.map (·.id)).Nodup) (hp : p ∈ ps) :
    p.id ∈ (kept ps).map (·.id) ↔ (p.reread? Floating.reread?).isSome := by
  constructor
  · intro h
    obtain ⟨q, hq, hid⟩ := List.mem_map.1 h
    obtain ⟨o, ho, hread⟩ := List.mem_filterMap.1 hq
    have heq : o = p :=
      List.inj_on_of_nodup_map distinct ho hp ((Portal.id_of_reread? hread).symm.trans hid)
    rw [← heq, hread]
    rfl
  · intro h
    obtain ⟨q, hq⟩ := Option.isSome_iff_exists.1 h
    exact List.mem_map.2 ⟨q, List.mem_filterMap.2 ⟨p, hp, hq⟩, Portal.id_of_reread? hq⟩

end Archive

namespace Backend

variable {b : Backend} {settings : Settings} {relay : Option Address} {file : Option String}
  {fresh : Nat → Uuid}

/-- After any run of a server, the portals that are read from its file are those that do not lead to
a place on another server that is not finite. Each has all that it had, but for its clocks and what
it remembers and with its numbers as their texts are read. -/
theorem survivors (hstart : start settings relay file fresh = .ok b) (steps : List BackendStep) :
    let s := b.run steps
    (∀ supply, Archive.decode? supply s.file = some (Archive.kept s.registry.all)) ∧
    ∀ p ∈ s.registry.all, p.id ∈ (Archive.kept s.registry.all).map (·.id) ↔
      (p.isCrossServer = true → ∀ x ∈ p.dest.position.numbers, x.isFinite = true) := by
  intro s
  obtain ⟨ws, hstart'⟩ := runsTo_start hstart
  have hrun : b.registry.RunsTo s.registry := runsTo_run
  obtain ⟨es, hes, hregistered⟩ := hstart'.trans hrun
  have hgrounded : ∀ p ∈ s.registry.all, p.Grounded := by
    rw [hes]
    exact Registry.grounded_run (by rintro _ ⟨⟩) hregistered
  have hdistinct : (s.registry.all.map (·.id)).Nodup :=
    (accounted_after_start hstart).keyed.nodup_ids
  refine ⟨fun supply => Archive.decode?_encode_eq supply s.registry.all, fun p hp => ?_⟩
  rw [Archive.mem_ids_kept_iff hdistinct hp, (hgrounded p hp).reread?_isSome_iff]

end Backend

open Sample in
/-- A player links a window to a place that another server claims to be nowhere. The portal is
registered, and the file that is written then has no portals for whoever reads it. -/
theorem lost_on_restart :
    let b := outpost.run (gateway ⟨.nan, .halves 129, .halves 1⟩)
    b.registry.ids = [supply 10] ∧ ∀ ids, Archive.decode? ids b.file = some [] := by
  intro b
  have hkept : Archive.kept b.registry.all = [] := by decide +kernel
  refine ⟨by decide +kernel, fun ids => ?_⟩
  rw [← hkept]
  exact Archive.decode?_encode_eq ids b.registry.all

open Sample in
theorem gateway_survives :
    let s := outpost.run (gateway ⟨.halves 3, .halves 129, .halves 1⟩)
    s.registry.ids = [supply 10] ∧
      ∃ read, Archive.decode? supply s.file = some read ∧ supply 10 ∈ read.map (·.id) := by
  intro s
  have hfinite : ∃ p ∈ s.registry.all, p.id = supply 10 ∧
      ∀ x ∈ p.dest.position.numbers, x.isFinite = true := by
    decide +kernel
  obtain ⟨p, hp, hid, hfinite⟩ := hfinite
  obtain ⟨hfile, hsurvivors⟩ :=
    Backend.survivors start_outpost (gateway ⟨.halves 3, .halves 129, .halves 1⟩)
  exact ⟨by decide +kernel, _, hfile supply, hid ▸ (hsurvivors p hp).2 fun _ => hfinite⟩

end PortalNet
