import PortalNet.Proofs.Registry.Run

/-! # Regions are held exactly

A chunk has as many holders as there are registered portals that keep it loaded. A portal that ends
its activation releases the place that it took, wherever it would lead by then.
-/

namespace PortalNet

/-- There are `n c` holders of each chunk `c`, and no release missed its hold. -/
structure Regions.Counts (g : Regions) (n : Chunk → Nat) : Prop where
  holders : ∀ c, g.holders.get? c = if n c = 0 then none else some (n c)
  unmatched : g.unmatched = 0

/-- Whether the place that the portal keeps loaded lies in this chunk. -/
def Portal.holds (p : Portal) (c : Chunk) : Bool :=
  p.held.map Chunk.containing = some c

/-- Only an activated portal keeps something loaded. -/
def Portal.HoldsActive (p : Portal) : Prop :=
  p.held.isSome → p.isActivated

variable {g : Regions} {n : Chunk → Nat} {l : Location} {c : Chunk} {p q : Portal} {ws : Worlds}

namespace Portal

theorem holds_of_idle (h : p.held = none) : p.holds c = false := by
  simp [holds, h]

theorem holds_of_held (h : p.held = some l) : p.holds c = decide (Chunk.containing l = c) := by
  simp [holds, h]

theorem Retouched.holds (h : p.Retouched ws q) : q.holds c = p.holds c := by
  rw [Portal.holds, Portal.holds, h.held]

theorem HoldsActive.retouched (hp : p.HoldsActive) (h : p.Retouched ws q) : q.HoldsActive := by
  intro hq
  rw [h.active]
  exact hp (h.held ▸ hq)

theorem holdsActive_of_idle (h : p.held = none) : p.HoldsActive := by
  intro hp
  rw [h] at hp
  cases hp

theorem isActivated_activate : (p.activate ws g).1.isActivated = true := by
  simp only [activate]
  repeat' split
  all_goals rfl

end Portal

namespace Regions.Counts

theorem hold (h : g.Counts n) :
    (g.hold l).Counts fun c => n c + if Chunk.containing l = c then 1 else 0 := by
  refine ⟨fun c => ?_, h.unmatched⟩
  rw [Regions.hold, Table.get?_insert, h.holders]
  split
  · next hc =>
    subst hc
    split <;> simp_all
  · simpa using h.holders c

theorem release (h : g.Counts fun c => n c + if Chunk.containing l = c then 1 else 0) :
    (g.release l).Counts n := by
  have hl := h.holders (.containing l)
  rw [if_pos rfl, if_neg (Nat.succ_ne_zero _)] at hl
  have hne : ∀ c, Chunk.containing l ≠ c →
      g.holders.get? c = if n c = 0 then none else some (n c) := by
    intro c hc
    have hg := h.holders c
    rwa [if_neg hc, Nat.add_zero] at hg
  simp only [Regions.release, hl]
  cases hn : n (.containing l) with
  | zero =>
    refine ⟨fun c => ?_, h.unmatched⟩
    dsimp only
    rw [Table.get?_erase]
    split
    · next hc => rw [hc, hn, if_pos rfl]
    · next hc => exact hne c (Ne.symm hc)
  | succ m =>
    refine ⟨fun c => ?_, h.unmatched⟩
    dsimp only
    rw [Table.get?_insert]
    split
    · next hc => rw [← hc, hn, if_neg (Nat.succ_ne_zero m)]
    · next hc => exact hne c hc

theorem activate (h : g.Counts fun c => n c + if p.holds c then 1 else 0) :
    (p.activate ws g).2.Counts fun c => n c + if (p.activate ws g).1.holds c then 1 else 0 := by
  unfold Portal.activate
  cases hp : p.held with
  | some l => simpa [hp, Portal.holds] using h
  | none =>
    simp only [Portal.holds_of_idle hp, Bool.false_eq_true, if_false, Nat.add_zero] at h
    cases hl : p.dest.location? ws with
    | none => simpa [hp, hl, Portal.holds] using h
    | some l => simpa [hp, hl, Portal.holds] using h.hold (l := l)

theorem deactivate (h : g.Counts fun c => n c + if p.holds c then 1 else 0) :
    (p.deactivate g).2.Counts n := by
  cases hp : p.held with
  | none =>
    simpa [Portal.deactivate, hp, Portal.holds_of_idle hp] using h
  | some l =>
    simp only [Portal.holds_of_held hp, decide_eq_true_eq] at h
    simpa [Portal.deactivate, hp] using h.release

theorem shutDown (h : g.Counts fun c => n c + if p.holds c then 1 else 0) (hp : p.HoldsActive) :
    (p.shutDown g).2.Counts n := by
  simp only [Portal.shutDown]
  split
  · exact deactivate (p := p.viewDeactivate) h
  · next ha =>
    have hidle : p.held = none := by
      rw [← Option.not_isSome_iff_eq_none]
      exact mt hp ha
    simpa [Portal.holds_of_idle hidle] using h

end Regions.Counts

namespace Registry

/-- How many portals keep a chunk loaded. -/
def holding (r : Registry) (c : Chunk) : Nat :=
  r.all.countP (·.holds c)

/-- How many portals besides one keep a chunk loaded. -/
def holdingBeside (r : Registry) (id : Uuid) (c : Chunk) : Nat :=
  (r.portals.erase id).values.countP (·.holds c)

structure Accounted (r : Registry) : Prop where
  keyed : r.Keyed
  active : ∀ k p, r.get? k = some p → p.HoldsActive
  counts : r.regions.Counts r.holding

variable {r s : Registry} {k id : Uuid} {e : Event}

theorem holding_of_get? (hp : r.get? k = some p) :
    r.holding c = r.holdingBeside k c + if p.holds c then 1 else 0 := by
  rw [holding, all, (Table.perm_values_erase hp).countP_eq, List.countP_cons]
  rfl

theorem holding_insert :
    holding { r with portals := r.portals.insert k p, regions := g } c =
      r.holdingBeside k c + if p.holds c then 1 else 0 := by
  rw [holding, all, Table.perm_values_insert.countP_eq, List.countP_cons]
  rfl

theorem holdingBeside_of_none (h : r.get? k = none) : r.holdingBeside k c = r.holding c := by
  have he : r.portals.erase k = r.portals :=
    Table.ext_entries (Table.filter_of_not_mem (Table.get?_eq_none_iff.1 h))
  rw [holdingBeside, he, holding, all]

namespace Accounted

theorem counts_beside (h : r.Accounted) (hp : r.get? k = some p) :
    r.regions.Counts fun c => r.holdingBeside k c + if p.holds c then 1 else 0 := by
  simpa only [← holding_of_get? hp] using h.counts

theorem insert (h : r.Accounted) (hk : p.id = k) (ha : p.HoldsActive)
    (hg : g.Counts fun c => r.holdingBeside k c + if p.holds c then 1 else 0) :
    Accounted { r with portals := r.portals.insert k p, regions := g } where
  keyed := by
    intro j q hq
    have hq : (r.portals.insert k p).get? j = some q := hq
    rw [Table.get?_insert] at hq
    split at hq
    · next hj => cases hq; exact hk.trans hj
    · exact h.keyed j q hq
  active := by
    intro j q hq
    have hq : (r.portals.insert k p).get? j = some q := hq
    rw [Table.get?_insert] at hq
    split at hq
    · cases hq; exact ha
    · exact h.active j q hq
  counts := by simpa only [← holding_insert (g := g)] using hg

theorem activate (h : r.Accounted) : (r.activate id).Accounted := by
  unfold Registry.activate
  split
  · exact h
  · next p hp =>
    split
    · exact h
    · have hid : (p.activate r.worlds r.regions).1.id = p.id := Portal.Revised.activate.id
      exact insert h (hid.trans (h.keyed id p hp)) (fun _ => Portal.isActivated_activate)
        (h.counts_beside hp).activate

theorem deactivate (h : r.Accounted) : (r.deactivate id).Accounted := by
  unfold Registry.deactivate
  split
  · exact h
  · next p hp =>
    split
    · have hidle : (p.deactivate r.regions).1.held = none := rfl
      have hcounts : (p.deactivate r.regions).2.Counts fun c =>
          r.holdingBeside id c + if (p.deactivate r.regions).1.holds c then 1 else 0 := by
        simpa only [Portal.holds_of_idle hidle, Bool.false_eq_true, if_false, Nat.add_zero] using
          (h.counts_beside hp).deactivate
      exact insert h (h.keyed id p hp) (Portal.holdsActive_of_idle hidle) hcounts
    · exact h

theorem take (h : r.Accounted) : (r.take id).2.Accounted := by
  unfold Registry.take
  split
  · exact h
  · next p hp =>
    have hold : ∀ j q, (r.portals.erase id).get? j = some q → r.get? j = some q := by
      intro j q hq
      rw [Table.get?_erase] at hq
      split at hq
      · cases hq
      · exact hq
    exact {
      keyed := fun j q hq => h.keyed j q (hold j q hq)
      active := fun j q hq => h.active j q (hold j q hq)
      counts := (h.counts_beside hp).shutDown (h.active id p hp) }

theorem retouch {f : Uuid → Portal → Portal} (h : r.Accounted)
    (hf : ∀ k p, r.get? k = some p → p.Retouched r.worlds (f k p)) :
    Accounted { r with portals := r.portals.mapValues f } := by
  have hget : ∀ k q, (r.portals.mapValues f).get? k = some q →
      ∃ p, r.get? k = some p ∧ p.Retouched r.worlds q := by
    intro k q hq
    rw [Table.get?_mapValues] at hq
    obtain ⟨p, hp, rfl⟩ := Option.map_eq_some_iff.1 hq
    exact ⟨p, hp, hf k p hp⟩
  refine ⟨?_, ?_, ?_⟩
  · intro k q hq
    obtain ⟨p, hp, hr⟩ := hget k q hq
    exact hr.id.trans (h.keyed k p hp)
  · intro k q hq
    obtain ⟨p, hp, hr⟩ := hget k q hq
    exact (h.active k p hp).retouched hr
  · have hholding : holding { r with portals := r.portals.mapValues f } = r.holding := by
      funext c
      change ((r.portals.entries.map fun e => (e.1, f e.1 e.2)).map Prod.snd).countP _ =
        (r.portals.entries.map Prod.snd).countP _
      rw [List.map_map, List.countP_map, List.countP_map]
      refine List.countP_congr fun e he => ?_
      have hr := hf e.1 e.2 (Table.get?_eq_some_iff.2 he)
      simp only [Function.comp_apply, hr.holds]
    rw [hholding]
    exact h.counts

theorem of_worlds {vs : Worlds} (h : r.Accounted) : Accounted { r with worlds := vs } :=
  ⟨h.keyed, h.active, h.counts⟩

theorem register (h : r.Accounted) (hp : p.held = none) : (r.register p).Accounted := by
  have hidle : ∀ c, p.holds c = false := fun c => Portal.holds_of_idle hp
  refine insert h rfl (Portal.holdsActive_of_idle hp) ?_
  simp only [hidle, Bool.false_eq_true, if_false, Nat.add_zero]
  cases ho : r.get? p.id with
  | some old => exact (h.counts_beside ho).shutDown (h.active p.id old ho)
  | none => simpa only [holdingBeside_of_none ho] using h.counts

theorem of_step (h : r.Accounted) (hs : r.Step s) : s.Accounted := by
  cases hs with
  | retouch f hf => exact h.retouch hf
  | activate id => exact h.activate
  | deactivate id => exact h.deactivate
  | take id => exact h.take
  | rebuild ws hws => exact h.of_worlds

theorem of_steps (h : r.Accounted) (hs : r.Steps s) : s.Accounted := by
  induction hs with
  | refl => exact h
  | tail _ hstep ih => exact ih.of_step hstep

theorem of_change (h : r.Accounted) (hs : r.Change e s) : s.Accounted := by
  cases hs with
  | steps hs => exact h.of_steps hs
  | register p idle => exact h.register idle
  | replace fresh name hp => exact h.take.register rfl
  | host worlds => exact h.of_worlds

theorem empty : Accounted { worlds := ws } where
  keyed := by rintro k p ⟨⟩
  active := by rintro k p ⟨⟩
  counts := ⟨fun _ => rfl, rfl⟩

end Accounted

/-- Whatever happens to the portals and to the worlds, the holders of every chunk are counted, only
activated portals hold one, and no chunk is released that nobody held. -/
theorem accounted_run (ws : Worlds) (es : List Event) : (run { worlds := ws } es).Accounted :=
  run_induction .empty fun _ _ _ => .of_change

end Registry

end PortalNet
