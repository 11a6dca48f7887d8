import Mathlib.Data.Int.Interval
import Mathlib.Data.Set.Card
import PortalNet.Proofs.Selection.Linking

/-! # Measures of windows

The size of a window counts its blocks and its place is the middle of them, as long as the words of
blocks have room for what is reckoned on the way. Corners far apart have too many blocks between
them for that, and corners far out have too great a sum. Both are accepted all the same, and nothing
comes of a link between such windows.
-/

namespace PortalNet

namespace Row

/-- How many blocks there are in the row. -/
noncomputable def count (r : Row) : Int :=
  Set.ncard { k : Int | r.first.toInt ≤ k ∧ k ≤ r.last.toInt }

def middle (r : Row) : ℚ :=
  (r.first.toInt + (r.last.toInt + 1)) / 2

variable {r : Row}

theorem count_eq (h : r.first ≤ r.last) : r.count = r.length := by
  have hrow : { k : Int | r.first.toInt ≤ k ∧ k ≤ r.last.toInt } =
      Finset.Icc r.first.toInt r.last.toInt := (Finset.coe_Icc ..).symm
  rw [Int32.le_iff_toInt_le] at h
  rw [count, hrow, Set.ncard_coe_finset, Int.card_Icc, length]
  omega

theorem count_pos (h : r.first ≤ r.last) : 0 < r.count := by
  rw [count_eq h, length]
  rw [Int32.le_iff_toInt_le] at h
  omega

/-- Blocks can be counted in words if there are not too many of them. -/
theorem countFits_iff (h : r.first ≤ r.last) : r.CountFits ↔ r.count < 2 ^ 31 := by
  rw [count_eq h]
  rw [Int32.le_iff_toInt_le] at h
  unfold CountFits length InWord
  omega

theorem half_sum : Scalar.half (r.sum : ℚ) = r.middle := by
  rw [middle, Scalar.half_eq, sum]
  push_cast
  ring

/-- The middle can be found in words if it is not too far out. -/
theorem sumFits_iff : r.SumFits ↔ |r.middle| < 2 ^ 30 := by
  have hcast : |r.middle| < 2 ^ 30 ↔ -2 ^ 31 < r.sum ∧ r.sum < 2 ^ 31 := by
    rw [← half_sum, Scalar.half_eq, abs_lt, lt_div_iff₀ two_pos, div_lt_iff₀ two_pos]
    norm_num
    exact_mod_cast Iff.rfl
  rw [hcast]
  unfold SumFits sum InWord
  omega

theorem face_eq (h : r.first = r.last) : Bounds.face r.first = r.middle := by
  rw [Bounds.face, Scalar.half_eq, middle, ← h]
  push_cast
  ring

end Row

/-- What the words of a size stand for. -/
def Size.exact (s : Size Double) : Size ℚ :=
  ⟨s.width.value, s.height.value⟩

namespace Bounds

/-- How many blocks the window has in its two directions. -/
noncomputable def trueSize (b : Bounds) : Size ℚ :=
  ⟨b.across.count, b.upward.count⟩

/-- The middle of the box. -/
def trueCenter (b : Bounds) : Vec3 ℚ :=
  ⟨Row.middle ⟨b.low.x, b.high.x⟩, Row.middle ⟨b.low.y, b.high.y⟩, Row.middle ⟨b.low.z, b.high.z⟩⟩

variable {b c : Bounds}

theorem value_length (r : Row) : (r.length : Double).value = r.length :=
  (Floating.standsFor_ofInt ((natAbs_length_lt r).trans (by decide))).value_eq

theorem Upright.exact_blocks (h : b.Upright) : (b.blocks : Size Double).exact = b.trueSize := by
  rw [trueSize, Row.count_eq h.across_le, Row.count_eq (r := b.upward) h.le_y, Size.exact, blocks,
    value_length, value_length]

theorem Upright.trueSize_pos (h : b.Upright) : 0 < b.trueSize.width ∧ 0 < b.trueSize.height :=
  ⟨Int.cast_pos.2 (Row.count_pos h.across_le), Int.cast_pos.2 (Row.count_pos h.le_y)⟩

theorem Upright.heart_eq (h : b.Upright) : b.heart = b.trueCenter := by
  unfold heart
  cases hplane : b.facing.isXPlane with
  | true =>
    rw [if_pos rfl, across_of_xPlane hplane, Row.half_sum, Row.half_sum,
      Row.face_eq (r := ⟨b.low.x, b.high.x⟩) (flat_x hplane)]
    rfl
  | false =>
    rw [if_neg Bool.false_ne_true, across_of_zPlane hplane, Row.half_sum, Row.half_sum,
      Row.face_eq (r := ⟨b.low.z, b.high.z⟩) (h.flat_z hplane)]
    rfl

theorem Upright.countsFit_iff (h : b.Upright) :
    b.CountsFit ↔ b.trueSize.width < 2 ^ 31 ∧ b.trueSize.height < 2 ^ 31 := by
  have hcast : ∀ n : Int, n < 2 ^ 31 ↔ (n : ℚ) < 2 ^ 31 := fun n => by exact_mod_cast Iff.rfl
  rw [CountsFit, Row.countFits_iff h.across_le, Row.countFits_iff (r := b.upward) h.le_y, hcast,
    hcast, trueSize]

/-- Sizes are told apart by the counts. -/
theorem Upright.same_iff (hb : b.Upright) (hc : c.Upright) :
    (b.blocks : Size Double).Same c.blocks ↔ b.trueSize = c.trueSize := by
  have hfinite : ∀ d : Bounds, (d.blocks : Size Double).width.isFinite = true ∧
      (d.blocks : Size Double).height.isFinite = true := by
    intro d
    have hhalf := isHalf_blocks d
    simp only [Size.numbers, List.forall_mem_cons] at hhalf
    exact ⟨hhalf.1.isFinite, hhalf.2.1.isFinite⟩
  rw [Size.Same, Floating.same_iff (hfinite b).1 (hfinite c).1,
    Floating.same_iff (hfinite b).2 (hfinite c).2, ← hb.exact_blocks, ← hc.exact_blocks,
    Size.exact, Size.exact, Size.mk.injEq]

end Bounds

namespace Selection

variable {s d : Selection} {b c : Bounds}

theorem upright_of_bounds (hs : s.bounds = .ok b) : b.Upright := by
  obtain ⟨a, c, ha, hc⟩ := corners_of_bounds hs
  obtain ⟨-, hline, rfl⟩ := (bounds_eq_ok_iff ha hc).1 hs
  exact Bounds.upright_around hline

section link

variable {r : Registry} {options : LinkOptions} {fresh : Nat → Uuid} (hs : s.bounds = .ok b)
  (hd : d.bounds = .ok c)

include hs hd

/-- What is found out about the ends of a link before anything is registered. -/
theorem linkEnds_eq : Registry.linkEnds s d options =
    if b.CountsFit ∧ c.CountsFit then
      if b.trueSize = c.trueSize then
        if b.SumsFit ∧ c.SumsFit then
          .ok (b.blocks, .ofLocation ⟨b.world, b.heart⟩ (s.facing b), .ofLocation ⟨c.world, c.heart⟩
            ((if options.invert then d.invert else d).facing c))
        else .error .overflow
      else .error (.refused (.differentSizes b.blocks c.blocks))
    else .error .overflow := by
  have hturned : (if options.invert then d.invert else d).bounds = .ok c := by
    split <;> exact hd
  have hsize := size_of_bounds (α := Double) hs
  have hsize' := size_of_bounds (α := Double) hd
  by_cases hcounts : b.CountsFit ∧ c.CountsFit
  · rw [if_pos hcounts, Registry.linkEnds_of_sizes (hsize.trans (if_pos hcounts.1))
      (hsize'.trans (if_pos hcounts.2)), position_of_bounds hs, position_of_bounds hturned,
      ite_overflow_bind, ite_overflow_bind, ← ite_and]
    simp only [(upright_of_bounds hs).same_iff (upright_of_bounds hd)]
    rfl
  · rw [if_neg hcounts, Registry.linkEnds, hsize, hsize', ite_overflow_bind, ite_overflow_bind,
      ← ite_and, if_neg hcounts]

/-- What a link between two accepted windows comes to. -/
theorem link_outcome : (r.link s d options fresh).1 =
    if b.CountsFit ∧ c.CountsFit then
      if b.trueSize = c.trueSize then
        if b.SumsFit ∧ c.SumsFit then
          .ok (if options.twoWay then [fresh 0, fresh 1] else [fresh 0])
        else .error .overflow
      else .error (.refused (.differentSizes b.blocks c.blocks))
    else .error .overflow := by
  rw [Registry.link, linkEnds_eq hs hd]
  split_ifs <;> rfl

end link

/-- Every window that is accepted can be picked for either end of a link. It has a size if there are
not too many blocks in a row, and that counts them, and it has a place if its middle is not too far
out, and that is the middle; otherwise the arithmetic of blocks overflows. A link between two such
windows asks for the sizes first and, if they are the same, for the places. So it overflows if one
of these is missing, and the registry stays as it is. Near the middle of the world nothing is
missing. -/
theorem measured_iff (hs : s.bounds = .ok b) :
    (∀ l : Selections, l.current = s →
      l.selectOrigin = (.ok (), { l with origin := some s }) ∧
      l.selectDestination = (.ok (), { l with destination := some s })) ∧
    ((s.size = if b.CountsFit then .ok (b.blocks : Size Double) else .error .overflow) ∧
      (b.CountsFit ↔ b.trueSize.width < 2 ^ 31 ∧ b.trueSize.height < 2 ^ 31) ∧
      (b.blocks : Size Double).exact = b.trueSize ∧
      0 < b.trueSize.width ∧ 0 < b.trueSize.height) ∧
    ((s.position = if b.SumsFit then .ok (.ofLocation ⟨b.world, b.heart⟩ (s.facing b))
        else .error .overflow) ∧
      (b.SumsFit ↔ |b.upward.middle| < 2 ^ 30 ∧ |b.across.middle| < 2 ^ 30) ∧
      (b.heart : Vec3 Double).exact = b.trueCenter) ∧
    (∀ d c, d.bounds = .ok c → ∀ (l : Selections) (r : Registry) options fresh,
      l.origin = some s → l.destination = some d →
      let linked := l.link r options fresh
      (linked.1 = if b.CountsFit ∧ c.CountsFit then
          if b.trueSize = c.trueSize then
            if b.SumsFit ∧ c.SumsFit then
              .ok (if options.twoWay then [fresh 0, fresh 1] else [fresh 0])
            else .error .overflow
          else .error (.refused (.differentSizes b.blocks c.blocks))
        else .error .overflow) ∧
      ∀ f, linked.1 = .error f → linked.2 = r) ∧
    (b.low.Central → b.high.Central → b.Fits) := by
  have hb := upright_of_bounds hs
  refine ⟨?_, ⟨size_of_bounds hs, hb.countsFit_iff, hb.exact_blocks, hb.trueSize_pos⟩,
    ⟨position_of_bounds hs, and_congr Row.sumFits_iff Row.sumFits_iff,
      b.exact_heart.trans hb.heart_eq⟩, ?_, Bounds.fits_of_central⟩
  · rintro l rfl
    rw [Selections.selectOrigin, Selections.selectDestination, hs]
    exact ⟨rfl, rfl⟩
  · intro d c hd l r options fresh ho hdest
    refine ⟨?_, fun _ => Selections.link_failed⟩
    rw [Selections.link, ho, hdest]
    exact link_outcome hs hd

end Selection

namespace Sample

/-- A wall with as many blocks in a row as can be counted. -/
def wall : Selection :=
  .ofCorners world ⟨-1073741824, 64, 0⟩ ⟨1073741822, 66, 0⟩

/-- Blocks in a row round the whole range of words, at its upper end. -/
def girdle : Selection :=
  .ofCorners world ⟨-2147483648, 2147483647, 0⟩ ⟨2147483647, 2147483647, 0⟩

/-- A player sets the corners of the girdle and picks it for both ends of a link. -/
def girdled : Selections :=
  Selections.run {} [.corner true ⟨world, ⟨-2147483648, 2147483647, 0⟩⟩,
    .corner false ⟨world, ⟨2147483647, 2147483647, 0⟩⟩, .pick .origin, .pick .destination]

end Sample

open Sample in
theorem wall_measured :
    ∃ (b : Bounds) (size : Size Double) (q : Position), wall.bounds = .ok b ∧
      wall.size = .ok size ∧ wall.position = .ok q ∧ size.exact = b.trueSize ∧
      q.frame.center.exact = b.trueCenter ∧
      (Selections.link { origin := some wall, destination := some wall } {} {}
        fun _ => player).1 = .ok [player] := by
  let b : Bounds := ⟨world, ⟨-1073741824, 64, 0⟩, ⟨1073741822, 66, 0⟩⟩
  have hs : wall.bounds = .ok b := rfl
  have hcounts : b.CountsFit := by decide +kernel
  have hsums : b.SumsFit := by decide +kernel
  obtain ⟨-, ⟨hsize, -, hexact, -⟩, ⟨hposition, -, hheart⟩, hlink, -⟩ := Selection.measured_iff hs
  rw [if_pos hcounts] at hsize
  rw [if_pos hsums] at hposition
  obtain ⟨hlinked, -⟩ := hlink wall b hs { origin := some wall, destination := some wall } {} {}
    (fun _ => player) rfl rfl
  rw [if_pos ⟨hcounts, hcounts⟩, if_pos rfl, if_pos ⟨hsums, hsums⟩] at hlinked
  exact ⟨b, _, _, hs, hsize, hposition, hexact, hheart, hlinked⟩

open Sample in
/-- The blocks cannot be counted and the middle is not found. The window can be picked all the same,
and then nothing comes of the link. -/
theorem girdle_overflows :
    ∃ b, girdle.bounds = .ok b ∧ b.trueSize = ⟨2 ^ 32, 1⟩ ∧ b.trueCenter.y = 2 ^ 31 - 1 / 2 ∧
    girdled.origin = some girdle ∧ girdled.destination = some girdle ∧
    (girdle.size : Except Failure (Size Double)) = .error .overflow ∧
    girdle.position = .error .overflow ∧
    (girdled.link {} {} fun _ => player).1 = .error .overflow := by
  let b : Bounds := ⟨world, ⟨-2147483648, 2147483647, 0⟩, ⟨2147483647, 2147483647, 0⟩⟩
  have hwidth : b.across.count = 2 ^ 32 :=
    (Row.count_eq (by decide +kernel)).trans (by decide +kernel)
  have hheight : b.upward.count = 1 :=
    (Row.count_eq (by decide +kernel)).trans (by decide +kernel)
  have hsize : b.trueSize = ⟨2 ^ 32, 1⟩ := by
    rw [Bounds.trueSize, hwidth, hheight]
    norm_num
  exact ⟨b, rfl, hsize, by decide +kernel, rfl, rfl, rfl, rfl, rfl⟩

end PortalNet
