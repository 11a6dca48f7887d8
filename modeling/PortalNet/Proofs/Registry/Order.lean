import PortalNet.Proofs.Registry.Sweep
import PortalNet.Proofs.Session.Run

/-! # Whether the order of the portals matters to a tick

A tick leaves what it would leave if every broken portal removed itself exactly when those that are
taken along would add nothing. Where that is settled by the portals themselves, all orders of the
table lead to the same portals, blocks and held regions.
-/

namespace PortalNet

namespace Registry

/-- Whatever goes with a broken portal that does not act goes without it, too. -/
def Covered (r : Registry) (acted : List Portal) : Prop :=
  ∀ p ∈ r.broken, p ∉ acted → r.led p ⊆ r.goes acted ∧
    ∀ x ∈ p.dest.place? r.worlds, x ∈ r.clears acted ∨ r.worlds.materialAt x.1 x.2 = .air

/-- A broken portal that starts where another one leads has nothing to take along or to clear but
what goes with broken portals anyway. -/
def Settled (r : Registry) : Prop :=
  ∀ p ∈ r.broken, ∀ q ∈ r.broken, p ≠ q → r.leads p q = true →
    (∀ o ∈ r.all, r.leads q o = true → o ∈ r.broken) ∧
    ∀ x ∈ q.dest.place? r.worlds,
      r.worlds.materialAt x.1 x.2 = .air ∨ ∃ o ∈ r.broken, x ∈ o.mark? r.worlds

/-- The same registry, up to the order of its tables. -/
structure Alike (r s : Registry) : Prop where
  portal : ∀ k, r.get? k = s.get? k
  loaded : r.worlds.loaded = s.worlds.loaded
  material : ∀ w b, r.worlds.materialAt w b = s.worlds.materialAt w b
  holders : ∀ c, r.regions.holders.get? c = s.regions.holders.get? c

variable {r s t : Registry} {ps acted : List Portal} {p q : Portal} {k : Uuid}
  {portals : Table Uuid Portal}

section covered

theorem goes_mono (h : ∀ p ∈ acted, p ∈ ps) : r.goes acted ⊆ r.goes ps := by
  rintro k ⟨p, hp, hk⟩
  exact ⟨p, h p hp, hk⟩

theorem marked_mono {ids js : Set Uuid} (h : ids ⊆ js) : r.marked ids ⊆ r.marked js := by
  rintro x ⟨k, hk, hx⟩
  exact ⟨k, h hk, hx⟩

theorem clears_mono (h : ∀ p ∈ acted, p ∈ ps) : r.clears acted ⊆ r.clears ps := by
  rintro x (hx | ⟨p, hp, hx⟩)
  · exact .inl (marked_mono (goes_mono h) hx)
  · exact .inr ⟨p, h p hp, hx⟩

/-- Every broken portal goes, whether it acts or not. -/
theorem id_mem_goes (hr : r.Keyed) (hp : p ∈ r.broken) : p.id ∈ r.goes (r.acting [] r.broken) := by
  have hget := hr.get?_of_mem (List.mem_filter.1 hp).1
  rw [mem_goes_iff hget]
  by_cases ha : p ∈ r.acting [] r.broken
  · exact ⟨p, ha, .inl rfl⟩
  · obtain ⟨a, ha, hl⟩ := taken_of_not_acting hp ha
    exact ⟨a, ha, .inr hl⟩

theorem Covered.goes_eq (hr : r.Keyed) (h : r.Covered (r.acting [] r.broken)) :
    r.goes r.broken = r.goes (r.acting [] r.broken) := by
  refine Set.Subset.antisymm ?_ (goes_mono fun p => mem_of_acting)
  rintro k ⟨p, hp, hk⟩
  by_cases ha : p ∈ r.acting [] r.broken
  · exact ⟨p, ha, hk⟩
  · rcases hk with rfl | hk
    · exact id_mem_goes hr hp
    · exact (h p hp ha).1 hk

theorem swept_broken_iff (hr : r.Keyed) (h : r.Swept (r.acting [] r.broken) s) :
    r.Swept r.broken s ↔ r.Covered (r.acting [] r.broken) := by
  have hsub : ∀ p ∈ r.acting [] r.broken, p ∈ r.broken := fun p => mem_of_acting
  constructor
  · intro hb p hp _
    constructor
    · rintro k ⟨q, hq, hl⟩
      by_contra hk
      have hkept := h.kept k hk
      rw [hb.gone k ⟨p, hp, .inr ⟨q, hq, hl⟩⟩, get?_ticked, hq] at hkept
      cases hkept
    · intro x hx
      by_cases hc : x ∈ r.clears (r.acting [] r.broken)
      · exact .inl hc
      · exact .inr ((h.same x hc).symm.trans (hb.air x (.inr ⟨p, hp, hx⟩)))
  · intro hcov
    have hgoes := hcov.goes_eq hr
    refine ⟨h.loaded, ?_, ?_, ?_, ?_⟩
    · rw [hgoes]
      exact h.gone
    · rw [hgoes, ← asks_acting]
      exact h.kept
    · rintro x (hx | ⟨p, hp, hx⟩)
      · rw [hgoes] at hx
        exact h.air x (.inl hx)
      · by_cases hc : x ∈ r.clears (r.acting [] r.broken)
        · exact h.air x hc
        · have hp' : p ∉ r.acting [] r.broken := fun ha => hc (.inr ⟨p, ha, hx⟩)
          exact (h.same x hc).trans (((hcov p hp hp').2 x hx).resolve_left hc)
    · intro x hx
      exact h.same x fun hc => hx (clears_mono hsub hc)

theorem Settled.covered (hr : r.Keyed) (h : r.Settled) : r.Covered (r.acting [] r.broken) := by
  intro p hp hp'
  obtain ⟨a, ha, hl⟩ := taken_of_not_acting hp hp'
  have hne : a ≠ p := by
    rintro rfl
    exact hp' ha
  obtain ⟨hled, hdest⟩ := h a (mem_of_acting ha) p hp hne hl
  constructor
  · rintro k ⟨o, ho, hpo⟩
    have hid : o.id = k := hr k o ho
    exact hid ▸ id_mem_goes hr (hled o (Table.mem_values_iff.2 ⟨k, ho⟩) hpo)
  · intro x hx
    rcases hdest x hx with hair | ⟨o, ho, hx⟩
    · exact .inr hair
    · exact .inl (.inl ⟨o.id, id_mem_goes hr ho, o, hr.get?_of_mem (List.mem_filter.1 ho).1, hx⟩)

end covered

section order

theorem get?_reorder (h : portals.entries.Perm r.portals.entries) :
    get? { r with portals } k = r.get? k :=
  Table.get?_perm h

theorem Accounted.reorder (h : r.Accounted) (hp : portals.entries.Perm r.portals.entries) :
    Accounted { r with portals } where
  keyed := by
    intro k p
    rw [get?_reorder hp]
    exact h.keyed k p
  active := by
    intro k p
    rw [get?_reorder hp]
    exact h.active k p
  counts := by
    have hholding : holding { r with portals } = r.holding := by
      funext c
      exact (hp.map Prod.snd).countP_eq _
    rw [hholding]
    exact h.counts

theorem mem_broken_reorder (h : portals.entries.Perm r.portals.entries) :
    p ∈ broken { r with portals } ↔ p ∈ r.broken :=
  ((h.map Prod.snd).filter _).mem_iff

theorem Settled.reorder (h : r.Settled) (hp : portals.entries.Perm r.portals.entries) :
    Settled { r with portals } := by
  intro p hpb q hqb hne hl
  obtain ⟨hled, hdest⟩ :=
    h p ((mem_broken_reorder hp).1 hpb) q ((mem_broken_reorder hp).1 hqb) hne hl
  constructor
  · intro o ho hqo
    exact (mem_broken_reorder hp).2 (hled o ((hp.map Prod.snd).mem_iff.1 ho) hqo)
  · intro x hx
    refine (hdest x hx).imp_right ?_
    rintro ⟨o, ho, hx⟩
    exact ⟨o, (mem_broken_reorder hp).2 ho, hx⟩

theorem led_reorder (h : portals.entries.Perm r.portals.entries) :
    led { r with portals } p = r.led p := by
  ext k
  simp only [led, Set.mem_ofPred_eq, get?_reorder h]
  rfl

theorem goes_reorder (h : portals.entries.Perm r.portals.entries) :
    goes { r with portals } (broken { r with portals }) = r.goes r.broken := by
  ext k
  simp only [goes, Set.mem_ofPred_eq, mem_broken_reorder h, led_reorder h]

theorem clears_reorder (h : portals.entries.Perm r.portals.entries) :
    clears { r with portals } (broken { r with portals }) = r.clears r.broken := by
  rw [clears, goes_reorder h]
  ext x
  simp only [marked, Set.mem_union, Set.mem_ofPred_eq, get?_reorder h, mem_broken_reorder h]
  rfl

theorem asks_reorder (h : portals.entries.Perm r.portals.entries) :
    asks { r with portals } (broken { r with portals }) = r.asks r.broken := by
  rw [Bool.eq_iff_iff, asks, asks, List.any_eq_true, List.any_eq_true]
  simp only [mem_broken_reorder h]
  rfl

theorem Swept.of_reorder (h : Swept { r with portals } (broken { r with portals }) s)
    (hp : portals.entries.Perm r.portals.entries) : r.Swept r.broken s := by
  unfold Swept at h
  rw [goes_reorder hp, clears_reorder hp, asks_reorder hp] at h
  refine ⟨h.loaded, h.gone, ?_, h.air, h.same⟩
  intro k hk
  rw [h.kept k hk, get?_ticked, get?_ticked, get?_reorder hp]
  rfl

/-- What is left is determined by what goes. -/
theorem Cut.alike {ids : Set Uuid} {places : Set (Uuid × Block)} {asked : Bool}
    (hs : r.Cut ids places asked s) (ht : r.Cut ids places asked t) (hs' : s.Accounted)
    (ht' : t.Accounted) : s.Alike t := by
  have hget : ∀ k, s.get? k = t.get? k := by
    intro k
    by_cases hk : k ∈ ids
    · rw [hs.gone k hk, ht.gone k hk]
    · rw [hs.kept k hk, ht.kept k hk]
  refine ⟨hget, hs.loaded.trans ht.loaded.symm, ?_, ?_⟩
  · intro w b
    by_cases hx : (w, b) ∈ places
    · exact (hs.air _ hx).trans (ht.air _ hx).symm
    · exact (hs.same _ hx).trans (ht.same _ hx).symm
  · intro c
    have hholding : s.holding c = t.holding c :=
      ((Table.perm_entries hget).map Prod.snd).countP_eq _
    rw [hs'.counts.holders, ht'.counts.holders, hholding]

end order

/-- A tick removes the broken portals that act and what goes with them. This is what would go with
all broken portals exactly if those that do not act add nothing to it, and then, if the portals
settle that, all orders of the table lead to the same registry. -/
theorem sweep_order (h : r.Accounted) :
    let acted := r.acting [] r.broken
    r.update.1 = acted.map (·.id) ∧ r.Swept acted r.update.2 ∧
    (∀ p ∈ r.broken, r.update.2.get? p.id = none) ∧
    (r.Swept r.broken r.update.2 ↔ r.Covered acted) ∧
    (r.Settled → ∀ portals : Table Uuid Portal, portals.entries.Perm r.portals.entries →
      r.Swept r.broken (update { r with portals }).2 ∧
      (update { r with portals }).2.Alike r.update.2) := by
  intro acted
  obtain ⟨hids, hswept⟩ := swept_update h.keyed
  refine ⟨hids, hswept, fun p hp => hswept.gone _ (id_mem_goes h.keyed hp),
    swept_broken_iff h.keyed hswept, ?_⟩
  intro hsettled portals hp
  have ht : Accounted { r with portals } := h.reorder hp
  have hall : r.Swept r.broken r.update.2 :=
    (swept_broken_iff h.keyed hswept).2 (hsettled.covered h.keyed)
  have hall' : r.Swept r.broken (update { r with portals }).2 :=
    .of_reorder ((swept_broken_iff ht.keyed (swept_update ht.keyed).2).2
      ((hsettled.reorder hp).covered ht.keyed)) hp
  exact ⟨hall', hall'.alike hall (ht.of_steps steps_update) (h.of_steps steps_update)⟩

end Registry

namespace Sample

def here : Location := ⟨world, origin⟩

def there : Location := ⟨nether, origin⟩

/-- A portal that was lit in a frame, or one that a player made, from one place to another. -/
def passing (n : UInt8) (origin dest : Location) (isCustom : Bool) : Portal where
  id := ⟨.replicate 16 n⟩
  origin := { position := .ofLocation origin .north }
  dest := { position := .ofLocation dest .north }
  size := ⟨(2 : Int), (3 : Int)⟩
  isCustom

/-- Only one of the two places still has its portal block. -/
def registryOf (portals : List Portal) : Registry :=
  portals.foldl .register
    { worlds := (worlds.load world).setMaterial nether.id there.block .portal }

/-- Two lit portals that lead to each other. -/
def pair : List Portal :=
  [passing 6 here there false, passing 7 there here false]

theorem accounted_pair : (registryOf pair).Accounted :=
  (Registry.Accounted.empty.register rfl).register rfl

/-- With two more portals, one at each place. -/
def crowd : List Portal :=
  [passing 8 here there true, passing 9 there here true]

end Sample

open Sample in
theorem pair_swept_backwards :
    (registryOf pair).Accounted ∧ (registryOf pair).Settled ∧
    (registryOf pair).Swept (registryOf pair).broken (registryOf pair.reverse).update.2 ∧
    (registryOf pair.reverse).update.2.Alike (registryOf pair).update.2 := by
  have hsettled : (registryOf pair).Settled := by
    unfold Registry.Settled
    decide +kernel
  obtain ⟨-, -, -, -, h⟩ := Registry.sweep_order accounted_pair
  obtain ⟨hswept, halike⟩ := h hsettled (registryOf pair.reverse).portals (by decide +kernel)
  exact ⟨accounted_pair, hsettled, hswept, halike⟩

open Sample in
/-- Which of the two portals beside a broken pair stays depends on which of the pair acts first. -/
theorem order_matters_in_crowd :
    let r := registryOf (pair ++ crowd)
    let t := registryOf (pair.reverse ++ crowd)
    t.portals.entries.Perm r.portals.entries ∧ r.broken = pair ∧
    (∀ q ∈ crowd, ∃ p ∈ pair, r.leads p q = true) ∧
    r.update.2.ids = [(passing 8 here there true).id] ∧
    t.update.2.ids = [(passing 9 there here true).id] := by
  decide +kernel

end PortalNet
