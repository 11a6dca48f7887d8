import PortalNet.Proofs.Registry.Steps

/-! # Outlines of portals

The outline of a portal is what decides whom it takes and where to. Activation, the clocks and the
removal of broken portals leave the outline of every portal that stays as it was.
-/

namespace PortalNet

structure Outline where
  id : Uuid
  origin : Position
  /-- The world that the origin resolves to. -/
  world : Option World
  dest : Position
  size : Size Double
  relocatesPlayers : Bool
  deriving DecidableEq

namespace Portal

def outline (p : Portal) (ws : Worlds) : Outline :=
  ⟨p.id, p.origin.position, p.origin.world? ws, p.dest.position, p.size, p.relocatesPlayers⟩

variable {p q : Portal} {ws : Worlds}

theorem Revised.outline (h : p.Revised ws q) : q.outline ws = p.outline ws := by
  have hworld : q.origin.position = p.origin.position ∧
      q.origin.world? ws = p.origin.world? ws := by
    rcases h.origin with ho | ho <;> simp [ho]
  have hdest : q.dest.position = p.dest.position := by
    rcases h.dest with hd | hd <;> simp [hd]
  simp only [Portal.outline, h.id, hworld, hdest, h.size, h.relocatesPlayers]

theorem outline_congr {vs : Worlds} (h : vs.loaded = ws.loaded) : p.outline vs = p.outline ws := by
  rw [outline, outline, Anchor.world?_congr h]

end Portal

namespace Registry

/-- Every portal of `s` stands in `r` with the same outline. -/
structure Within (s r : Registry) : Prop where
  loaded : s.worlds.loaded = r.worlds.loaded
  outline : ∀ k p, s.get? k = some p →
    ∃ q, r.get? k = some q ∧ p.outline s.worlds = q.outline r.worlds

namespace Within

variable {r s : Registry}

theorem of_steps (h : r.Steps s) : s.Within r := by
  have hn := Narrows.of_steps h
  refine ⟨hn.loaded, ?_⟩
  intro k q hq
  obtain ⟨p, hp, hr⟩ := hn.portal k q hq
  exact ⟨p, hp, (Portal.outline_congr hn.loaded).trans hr.outline⟩

end Within

end Registry

end PortalNet
