import PortalNet.Proofs.Traversal

/-! # The nearest portal

The portal that is found is one of those in reach, and none of them is nearer. Distances stand in
one line, so two portals are equally near only if their distances are the same word.
-/

namespace PortalNet

namespace Floating

variable {f : FloatFormat} {x y : Floating f}

/-- A word is its sign and its magnitude. -/
theorem bits_eq : x.bits = (if x.negative then 2 ^ (f.width - 1) else 0) + x.magnitude := by
  have hpow : 2 ^ f.width = 2 ^ (f.width - 1) * 2 := Nat.pow_succ ..
  have hlt : x.bits < 2 ^ (f.width - 1) * 2 := hpow ▸ x.word.isLt
  have hsign : x.negative = decide (2 ^ (f.width - 1) ≤ x.bits) := BitVec.msb_eq_decide ..
  rw [magnitude, hsign]
  by_cases h : 2 ^ (f.width - 1) ≤ x.bits
  · rw [if_pos (decide_eq_true h), Nat.mod_eq_sub_mod h, Nat.mod_eq_of_lt (by omega)]
    omega
  · rw [if_neg (by simpa using h), Nat.mod_eq_of_lt (Nat.not_le.1 h), Nat.zero_add]

/-- Different words have different places in the line. -/
theorem rank_inj (h : x.rank = y.rank) : x = y := by
  have hparts : x.negative = y.negative ∧ x.magnitude = y.magnitude := by
    unfold rank at h
    cases hx : x.negative <;> cases hy : y.negative <;>
      simp only [hx, hy, if_true, Bool.false_eq_true, if_false] at h
    · exact ⟨rfl, by omega⟩
    · omega
    · omega
    · exact ⟨rfl, by omega⟩
  have hbits : x.bits = y.bits := by rw [bits_eq, bits_eq, hparts.1, hparts.2]
  cases x
  cases y
  exact congrArg Floating.mk (BitVec.eq_of_toNat_eq hbits)

end Floating

namespace Registry

variable {r : Registry} {l : Location} {limit d : Double} {p q : Portal}
  {es : List (Portal × Double)} {e : Portal × Double}

theorem nearest?_mem (h : nearest? es = some e) : e ∈ es := by
  induction es generalizing e with
  | nil => cases h
  | cons x es ih =>
    unfold nearest? at h
    split at h
    · next best hbest =>
      split at h
      · cases h
        exact List.mem_cons_of_mem _ (ih hbest)
      · cases h
        exact List.mem_cons_self
    · cases h
      exact List.mem_cons_self

theorem nearest?_eq_none (h : nearest? es = none) : es = [] := by
  cases es with
  | nil => rfl
  | cons x es =>
    unfold nearest? at h
    split at h
    · split at h <;> cases h
    · cases h

theorem rank_nearest?_le (h : nearest? es = some e) : ∀ x ∈ es, e.2.rank ≤ x.2.rank := by
  induction es generalizing e with
  | nil => exact fun x hx => absurd hx List.not_mem_nil
  | cons x es ih =>
    rw [List.forall_mem_cons]
    unfold nearest? at h
    split at h
    · next best hbest =>
      split at h
      · next hlt =>
        cases h
        exact ⟨Int.le_of_lt hlt, ih hbest⟩
      · next hle =>
        cases h
        exact ⟨Int.le_refl _, fun y hy => Int.le_trans (Int.not_lt.1 hle) (ih hbest y hy)⟩
    · next hnone =>
      cases h
      rw [nearest?_eq_none hnone]
      exact ⟨Int.le_refl _, fun y hy => absurd hy List.not_mem_nil⟩

/-- Which portals can be found from a place. -/
def Reached (r : Registry) (l : Location) (limit : Double) (p : Portal) (d : Double) : Prop :=
  p ∈ r.all ∧ r.distance? l p = some d ∧ d ≤ limit

def near (r : Registry) (l : Location) (limit : Double) : List (Portal × Double) :=
  r.all.filterMap fun p =>
    match r.distance? l p with
    | some d => if d ≤ limit then some (p, d) else none
    | none => none

theorem mem_near_iff : (p, d) ∈ r.near l limit ↔ r.Reached l limit p d := by
  rw [near, List.mem_filterMap]
  constructor
  · rintro ⟨q, hq, h⟩
    split at h
    · next d' hd =>
      split at h
      · next hle =>
        cases h
        exact ⟨hq, hd, hle⟩
      · cases h
    · cases h
  · rintro ⟨hp, hd, hle⟩
    exact ⟨p, hp, by simp only [hd, if_pos hle]⟩

theorem closest?_eq : r.closest? l limit = (nearest? (r.near l limit)).map (·.1) := rfl

/-- The portal that is found is in reach, and none in reach is nearer. -/
theorem closest?_spec (h : r.closest? l limit = some p) :
    ∃ d, r.Reached l limit p d ∧ ∀ q d', r.Reached l limit q d' → d.rank ≤ d'.rank := by
  rw [closest?_eq] at h
  obtain ⟨⟨q, d⟩, hq, rfl⟩ := Option.map_eq_some_iff.1 h
  have hleast : ∀ o d', r.Reached l limit o d' → d.rank ≤ d'.rank := fun o d' ho =>
    rank_nearest?_le hq (o, d') (mem_near_iff.2 ho)
  exact ⟨d, mem_near_iff.1 (nearest?_mem hq), hleast⟩

theorem exists_closest? (h : r.Reached l limit p d) : ∃ q, r.closest? l limit = some q := by
  rw [closest?_eq]
  cases hnear : nearest? (r.near l limit) with
  | some e => exact ⟨e.1, rfl⟩
  | none =>
    have hp := mem_near_iff.2 h
    rw [nearest?_eq_none hnear] at hp
    exact absurd hp List.not_mem_nil

end Registry

end PortalNet
