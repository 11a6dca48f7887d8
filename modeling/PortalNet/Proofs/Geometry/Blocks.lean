import Mathlib.Algebra.Order.Floor.Ring
import Mathlib.Data.Nat.Find
import PortalNet.Proofs.Floating.Value
import PortalNet.Proofs.Geometry.Exact
import PortalNet.Proofs.Portal.Record
import PortalNet.Proofs.Session.Run

/-! # Windows of blocks

The window of a selection has the points of the blocks between its corners, and no others. Only the
blocks count, not which of their corners were picked, and not the way in which the window faces.
-/

namespace PortalNet

/-- The block number is on the way from the one to the other, whichever comes first. -/
def Between (m n k : Int32) : Prop :=
  m ≤ k ∧ k ≤ n ∨ n ≤ k ∧ k ≤ m

instance (m n k : Int32) : Decidable (Between m n k) :=
  inferInstanceAs (Decidable (_ ∨ _))

namespace Block

/-- The block is in the box that has the other two for opposite corners. -/
def InBox (a b c : Block) : Prop :=
  Between a.x b.x c.x ∧ Between a.y b.y c.y ∧ Between a.z b.z c.z

instance (a b c : Block) : Decidable (a.InBox b c) :=
  inferInstanceAs (Decidable (_ ∧ _))

theorem inBox_comm {a b c : Block} : a.InBox b c ↔ b.InBox a c := by
  simp only [InBox, Between, or_comm]

/-- So near to the middle of the world that sums of coordinates are blocks still. -/
def Central (b : Block) : Prop :=
  b.x.toInt.natAbs < 2 ^ 30 ∧ b.y.toInt.natAbs < 2 ^ 30 ∧ b.z.toInt.natAbs < 2 ^ 30

instance (b : Block) : Decidable b.Central :=
  inferInstanceAs (Decidable (_ ∧ _))

end Block

section numbers

variable {k l m n : Int32} {K : Type} [Field K] [LinearOrder K] [IsStrictOrderedRing K] {x : K}

theorem between_iff :
    Between m n k ↔ Selection.least m n ≤ k ∧ k ≤ Selection.greatest m n := by
  simp only [Between, Selection.least, Selection.greatest, Int32.le_iff_toInt_le]
  split <;> omega

theorem least_eq_greatest_iff : Selection.least m n = Selection.greatest m n ↔ m = n := by
  unfold Selection.least Selection.greatest
  split
  · exact Iff.rfl
  · exact eq_comm

theorem least_le_greatest : Selection.least m n ≤ Selection.greatest m n := by
  simp only [Selection.least, Selection.greatest, Int32.le_iff_toInt_le]
  split <;> omega

theorem between_left : Between m n m := by
  simp only [Between, Int32.le_iff_toInt_le]
  omega

/-- The numbers on the way say where it ends. -/
theorem ends_eq_of_between {m' n' : Int32} (h : ∀ k, Between m' n' k ↔ Between m n k) :
    Selection.least m' n' = Selection.least m n ∧
      Selection.greatest m' n' = Selection.greatest m n := by
  simp only [between_iff, Int32.le_iff_toInt_le] at h
  have hle : (Selection.least m n).toInt ≤ (Selection.greatest m n).toInt :=
    Int32.le_iff_toInt_le.1 least_le_greatest
  have hle' : (Selection.least m' n').toInt ≤ (Selection.greatest m' n').toInt :=
    Int32.le_iff_toInt_le.1 least_le_greatest
  rw [← Int32.toInt_inj, ← Int32.toInt_inj]
  have hlow := h (Selection.least m n)
  have hlow' := h (Selection.least m' n')
  have hhigh := h (Selection.greatest m n)
  have hhigh' := h (Selection.greatest m' n')
  omega

/-- The points of the blocks with these numbers, along one axis. -/
def Reaches (m n : Int32) (x : K) : Prop :=
  (m.toInt : K) ≤ x ∧ x ≤ n.toInt + 1

instance (m n : Int32) (x : K) : Decidable (Reaches m n x) :=
  inferInstanceAs (Decidable (_ ∧ _))

/-- Blocks in a row leave no gap. -/
theorem exists_reaches_iff (h : m ≤ n) :
    (∃ k, (m ≤ k ∧ k ≤ n) ∧ Reaches k k x) ↔ Reaches m n x := by
  rw [Int32.le_iff_toInt_le] at h
  constructor
  · rintro ⟨k, ⟨hm, hn⟩, hlow, hhigh⟩
    rw [Int32.le_iff_toInt_le] at hm hn
    have hm : (m.toInt : K) ≤ k.toInt := Int.cast_le.2 hm
    have hn : (k.toInt : K) ≤ n.toInt := Int.cast_le.2 hn
    constructor <;> linarith
  · rintro ⟨hlow, hhigh⟩
    have hlength : m.toInt + (n.toInt - m.toInt).toNat = n.toInt := by omega
    have hends : ∃ i : Nat, x ≤ (m.toInt + i : Int) + 1 := ⟨_, by rwa [hlength]⟩
    classical
    have hlast : m.toInt + Nat.find hends ≤ n.toInt := by
      have hle := Nat.find_min' hends (by rwa [hlength])
      omega
    have hmin := m.le_toInt
    have hmax := n.toInt_lt
    have hk : (Int32.ofInt (m.toInt + Nat.find hends)).toInt = m.toInt + Nat.find hends :=
      Int32.toInt_ofInt_of_le (by omega) (by omega)
    -- the first block that ends behind the point has it
    refine ⟨.ofInt (m.toInt + Nat.find hends), ?_, ?_, ?_⟩
    · rw [Int32.le_iff_toInt_le, Int32.le_iff_toInt_le, hk]
      omega
    · rw [hk]
      cases hi : Nat.find hends with
      | zero => simpa using hlow
      | succ i =>
        have hbefore := not_le.1 (Nat.find_min hends (show i < Nat.find hends by omega))
        push_cast at hbefore ⊢
        linarith
    · rw [hk]
      exact Nat.find_spec hends

/-- The points from the middle of a row up to half of its length away are those of its blocks. -/
theorem reaches_iff_row (r : Row) :
    |x - r.sum / 2| ≤ (r.length : K) / 2 ↔ Reaches r.first r.last x := by
  rw [abs_le, Reaches, Row.sum, Row.length]
  push_cast
  constructor <;> rintro ⟨hlow, hhigh⟩ <;> constructor <;> linarith

theorem reaches_iff_face : |x - Bounds.face m| ≤ (1 : Int) / 2 ↔ Reaches m m x := by
  rw [Bounds.face, Scalar.half_eq, Int.cast_one, abs_le, Reaches]
  constructor <;> rintro ⟨hlow, hhigh⟩ <;> constructor <;> linarith

end numbers

namespace Frame

variable {α : Type} [Scalar α] {w : Frame α} {size : Size α} {p : Vec3 α}

theorem contains_iff_of_xPlane (h : w.facing.isXPlane = true) :
    w.Contains size p ↔ Scalar.Within (p.x - w.center.x) (Scalar.half ((1 : Int) : α)) ∧
      Scalar.Within (p.z - w.center.z) (Scalar.half size.width) ∧
      Scalar.Within (p.y - w.center.y) (Scalar.half size.height) := by
  simp [Contains, h]

theorem contains_iff_of_zPlane (h : w.facing.isXPlane = false) :
    w.Contains size p ↔ Scalar.Within (p.z - w.center.z) (Scalar.half ((1 : Int) : α)) ∧
      Scalar.Within (p.x - w.center.x) (Scalar.half size.width) ∧
      Scalar.Within (p.y - w.center.y) (Scalar.half size.height) := by
  simp [Contains, h]

theorem contains_inverted : w.inverted.Contains size p ↔ w.Contains size p := by
  have hplane : w.facing.opposite.isXPlane = w.facing.isXPlane := by cases w.facing <;> rfl
  simp only [Contains, inverted, hplane]

end Frame

section words

open Floating

/-- What the words of a point stand for. -/
def Vec3.exact (p : Vec3 Double) : Vec3 ℚ :=
  ⟨p.x.value, p.y.value, p.z.value⟩

def Vec3.numbers (p : Vec3 Double) : List Double :=
  [p.x, p.y, p.z]

/-- The word of half a size. -/
structure Radius (r : Double) (q : ℚ) : Prop where
  isHalf : IsHalf r
  not_negative : r.negative = false
  value_eq : r.value = q / 2

theorem radius_half {n : Int} (hn : n.natAbs < 2 ^ 34) (h : 0 ≤ n) :
    Radius (Scalar.half (n : Double)) n := by
  have hword : Scalar.half (n : Double) = halves n := half_ofInt (by omega)
  rw [hword]
  exact ⟨⟨n, hn, rfl⟩, by simpa [negative_halves] using h, value_halves (by omega)⟩

theorem radius_one : Radius (Scalar.half ((1 : Int) : Double)) (1 : Int) :=
  radius_half (by decide) (by decide)

section radius

variable {x c r : Double} {q : ℚ} (hr : Radius r q) (hx : x.isFinite = true) (hc : IsHalf c)

include hr hx hc

theorem Radius.within (h : Scalar.Within (x.value - c.value) (Scalar.half q)) :
    Scalar.Within (x - c) r := by
  rw [Scalar.within_iff, Scalar.half_eq, ← hr.value_eq] at h
  exact within_sub hx hc.isFinite hr.isHalf.isFinite hr.not_negative h

theorem Radius.exact (hk : ∃ k : Int, x.value = k / 2) (h : Scalar.Within (x - c) r) :
    Scalar.Within (x.value - c.value) (Scalar.half q) := by
  obtain ⟨k, hk⟩ := hk
  rw [Scalar.within_iff, Scalar.half_eq, ← hr.value_eq]
  exact abs_sub_le_of_within hx hc hr.isHalf hr.not_negative hk h

end radius

namespace Frame

def exact (w : Frame Double) : Frame ℚ :=
  ⟨w.center.exact, w.facing⟩

variable {w : Frame Double} {size : Size Double} {size' : Size ℚ} {p : Vec3 Double}
  (hp : ∀ x ∈ p.numbers, x.isFinite = true) (hc : ∀ x ∈ w.center.numbers, IsHalf x)
  (hwidth : Radius (Scalar.half size.width) size'.width)
  (hheight : Radius (Scalar.half size.height) size'.height)

include hp hc hwidth hheight

/-- The words of a window have all the points that the window has. -/
theorem contains_of_exact (h : w.exact.Contains size' p.exact) : w.Contains size p := by
  simp only [Vec3.numbers, List.forall_mem_cons] at hp hc
  cases hplane : w.facing.isXPlane with
  | true =>
    obtain ⟨hdepth, hacross, hup⟩ := (contains_iff_of_xPlane (w := w.exact) hplane).1 h
    rw [contains_iff_of_xPlane hplane]
    exact ⟨radius_one.within hp.1 hc.1 hdepth, hwidth.within hp.2.2.1 hc.2.2.1 hacross,
      hheight.within hp.2.1 hc.2.1 hup⟩
  | false =>
    obtain ⟨hdepth, hacross, hup⟩ := (contains_iff_of_zPlane (w := w.exact) hplane).1 h
    rw [contains_iff_of_zPlane hplane]
    exact ⟨radius_one.within hp.2.2.1 hc.2.2.1 hdepth, hwidth.within hp.1 hc.1 hacross,
      hheight.within hp.2.1 hc.2.1 hup⟩

/-- They have no other whole numbers and halves. -/
theorem exact_of_contains (hk : ∀ x ∈ p.numbers, ∃ k : Int, x.value = k / 2)
    (h : w.Contains size p) : w.exact.Contains size' p.exact := by
  simp only [Vec3.numbers, List.forall_mem_cons] at hp hc hk
  cases hplane : w.facing.isXPlane with
  | true =>
    obtain ⟨hdepth, hacross, hup⟩ := (contains_iff_of_xPlane hplane).1 h
    rw [contains_iff_of_xPlane (w := w.exact) hplane]
    exact ⟨radius_one.exact hp.1 hc.1 hk.1 hdepth, hwidth.exact hp.2.2.1 hc.2.2.1 hk.2.2.1 hacross,
      hheight.exact hp.2.1 hc.2.1 hk.2.1 hup⟩
  | false =>
    obtain ⟨hdepth, hacross, hup⟩ := (contains_iff_of_zPlane hplane).1 h
    rw [contains_iff_of_zPlane (w := w.exact) hplane]
    exact ⟨radius_one.exact hp.2.2.1 hc.2.2.1 hk.2.2.1 hdepth, hwidth.exact hp.1 hc.1 hk.1 hacross,
      hheight.exact hp.2.1 hc.2.1 hk.2.1 hup⟩

end Frame

end words

section window

variable {K : Type} [Field K] [LinearOrder K]

/-- The cube of a block, with its faces. -/
def Block.Holds (b : Block) (p : Vec3 K) : Prop :=
  Reaches b.x b.x p.x ∧ Reaches b.y b.y p.y ∧ Reaches b.z b.z p.z

instance (b : Block) (p : Vec3 K) : Decidable (b.Holds p) :=
  inferInstanceAs (Decidable (_ ∧ _))

/-- One of the blocks between the two has the point. -/
def Block.BoxHolds (a b : Block) (p : Vec3 K) : Prop :=
  ∃ c, a.InBox b c ∧ c.Holds p

namespace Bounds

/-- The bounds are in order and do not go round a corner. -/
structure Upright (b : Bounds) : Prop where
  le_x : b.low.x ≤ b.high.x
  le_y : b.low.y ≤ b.high.y
  le_z : b.low.z ≤ b.high.z
  flat : b.low.x = b.high.x ∨ b.low.z = b.high.z

/-- The box of the bounds, with its faces. -/
def Holds (b : Bounds) (p : Vec3 K) : Prop :=
  Reaches b.low.x b.high.x p.x ∧ Reaches b.low.y b.high.y p.y ∧ Reaches b.low.z b.high.z p.z

variable {b : Bounds} {d : Direction}

theorem flat_x (hx : b.facing.isXPlane = true) : b.low.x = b.high.x := by
  unfold facing at hx
  split at hx
  · next hplane => exact hplane.1
  · cases hx

theorem Upright.flat_z (h : b.Upright) (hx : b.facing.isXPlane = false) : b.low.z = b.high.z := by
  unfold facing at hx
  split at hx
  · cases hx
  · next hplane =>
    by_contra hne
    exact hplane ⟨h.flat.resolve_right hne, hne⟩

/-- The box is made of the cubes of its blocks. -/
theorem Upright.holds_iff [IsStrictOrderedRing K] (h : b.Upright) {p : Vec3 K} :
    b.Holds p ↔ ∃ c : Block, ((b.low.x ≤ c.x ∧ c.x ≤ b.high.x) ∧
      (b.low.y ≤ c.y ∧ c.y ≤ b.high.y) ∧ b.low.z ≤ c.z ∧ c.z ≤ b.high.z) ∧ c.Holds p := by
  simp only [Holds, ← exists_reaches_iff h.le_x, ← exists_reaches_iff h.le_y,
    ← exists_reaches_iff h.le_z]
  constructor
  · rintro ⟨⟨x, hx, hpx⟩, ⟨y, hy, hpy⟩, z, hz, hpz⟩
    exact ⟨⟨x, y, z⟩, ⟨hx, hy, hz⟩, hpx, hpy, hpz⟩
  · rintro ⟨c, ⟨hx, hy, hz⟩, hpx, hpy, hpz⟩
    exact ⟨⟨c.x, hx, hpx⟩, ⟨c.y, hy, hpy⟩, c.z, hz, hpz⟩

/-- The window has the points of the box. -/
theorem Upright.contains_iff_holds [IsStrictOrderedRing K] (h : b.Upright)
    (hd : d.isXPlane = b.facing.isXPlane) {p : Vec3 K} :
    (⟨b.heart, d⟩ : Frame K).Contains b.blocks p ↔ b.Holds p := by
  have hup := reaches_iff_row (x := p.y) b.upward
  cases hplane : b.facing.isXPlane with
  | true =>
    have hz := reaches_iff_row (x := p.z) ⟨b.low.z, b.high.z⟩
    rw [Frame.contains_iff_of_xPlane (hd.trans hplane)]
    simp only [Scalar.within_iff, Scalar.half_eq, blocks, heart, hplane, if_true,
      across_of_xPlane hplane]
    rw [reaches_iff_face, hup, hz, Holds, ← flat_x hplane]
    exact and_congr_right' and_comm
  | false =>
    have hx := reaches_iff_row (x := p.x) ⟨b.low.x, b.high.x⟩
    rw [Frame.contains_iff_of_zPlane (hd.trans hplane)]
    simp only [Scalar.within_iff, Scalar.half_eq, blocks, heart, hplane, Bool.false_eq_true,
      if_false, across_of_zPlane hplane]
    rw [reaches_iff_face, hx, hup, Holds, ← h.flat_z hplane]
    tauto

end Bounds

end window

namespace Bounds

open Floating

theorem value_half_sum (r : Row) :
    (Scalar.half (r.sum : Double)).value = Scalar.half (r.sum : ℚ) := by
  rw [half_sum_eq_halves, value_halves ((natAbs_sum_lt r).trans (by decide)), Scalar.half_eq]

theorem value_face (m : Int32) : (face m : Double).value = face m := by
  have hle := natAbs_toInt_le m
  rw [face_eq_halves, value_halves (by omega), face, Scalar.half_eq]
  push_cast
  ring

variable {b : Bounds}

theorem exact_heart (b : Bounds) : (b.heart : Vec3 Double).exact = b.heart := by
  unfold heart
  split <;> simp only [Vec3.exact, value_half_sum, value_face]

theorem Upright.across_le (h : b.Upright) : b.across.first ≤ b.across.last := by
  unfold across
  split
  · exact h.le_z
  · exact h.le_x

theorem radius_length {r : Row} (h : r.first ≤ r.last) :
    Radius (Scalar.half (r.length : Double)) r.length := by
  rw [Int32.le_iff_toInt_le] at h
  refine radius_half ((natAbs_length_lt r).trans (by decide)) ?_
  unfold Row.length
  omega

theorem Upright.radius_blocks (h : b.Upright) :
    Radius (Scalar.half (b.blocks : Size Double).width) (b.blocks : Size ℚ).width ∧
      Radius (Scalar.half (b.blocks : Size Double).height) (b.blocks : Size ℚ).height :=
  ⟨radius_length h.across_le, radius_length h.le_y⟩

theorem fits_of_central (hlow : b.low.Central) (hhigh : b.high.Central) : b.Fits := by
  have hup := Row.fits_of_near (r := b.upward) hlow.2.1 hhigh.2.1
  have hacross : b.across.CountFits ∧ b.across.SumFits := by
    unfold across
    split
    · exact Row.fits_of_near hlow.2.2 hhigh.2.2
    · exact Row.fits_of_near hlow.1 hhigh.1
  exact ⟨⟨hacross.1, hup.1⟩, hup.2, hacross.2⟩

/-- The bounds of two corners. -/
def around (world : World) (a b : Block) : Bounds where
  world
  low := ⟨Selection.least a.x b.x, Selection.least a.y b.y, Selection.least a.z b.z⟩
  high := ⟨Selection.greatest a.x b.x, Selection.greatest a.y b.y, Selection.greatest a.z b.z⟩

variable {w : World} {a b a' b' c : Block}

theorem inBox_iff : a.InBox b c ↔ ((around w a b).low.x ≤ c.x ∧ c.x ≤ (around w a b).high.x) ∧
    ((around w a b).low.y ≤ c.y ∧ c.y ≤ (around w a b).high.y) ∧
    (around w a b).low.z ≤ c.z ∧ c.z ≤ (around w a b).high.z := by
  simp only [Block.InBox, between_iff, around]

theorem upright_around (h : a.x = b.x ∨ a.z = b.z) : (around w a b).Upright where
  le_x := least_le_greatest
  le_y := least_le_greatest
  le_z := least_le_greatest
  flat := h.imp least_eq_greatest_iff.2 least_eq_greatest_iff.2

theorem central_around (ha : a.Central) (hb : b.Central) :
    (around w a b).low.Central ∧ (around w a b).high.Central := by
  simp only [Block.Central, around, Selection.least, Selection.greatest] at *
  grind

/-- Bounds depend on the blocks of the box only. -/
theorem around_congr (h : ∀ c, a'.InBox b' c ↔ a.InBox b c) : around w a' b' = around w a b := by
  obtain ⟨hx, hy, hz⟩ := (h a).2 ⟨between_left, between_left, between_left⟩
  obtain ⟨hlowx, hhighx⟩ := ends_eq_of_between fun k => by
    simpa [Block.InBox, hy, hz, between_left] using h ⟨k, a.y, a.z⟩
  obtain ⟨hlowy, hhighy⟩ := ends_eq_of_between fun k => by
    simpa [Block.InBox, hx, hz, between_left] using h ⟨a.x, k, a.z⟩
  obtain ⟨hlowz, hhighz⟩ := ends_eq_of_between fun k => by
    simpa [Block.InBox, hx, hy, between_left] using h ⟨a.x, a.y, k⟩
  simp only [around, hlowx, hhighx, hlowy, hhighy, hlowz, hhighz]

end Bounds

namespace Selection

variable {s : Selection} {a c : Corner} {b : Bounds}

theorem bounds_eq_ok_iff (ha : s.a = some a) (hc : s.b = some c) :
    s.bounds = .ok b ↔ a.world.id = c.world.id ∧
      (a.block.x = c.block.x ∨ a.block.z = c.block.z) ∧ b = .around a.world a.block c.block := by
  unfold bounds
  rw [ha, hc]
  dsimp only
  split
  · next hw => simp [hw, throw, throwThe, MonadExceptOf.throw]
  · next hw =>
    split
    · next hne => simp [hne, throw, throwThe, MonadExceptOf.throw]
    · next hline =>
      have hw := not_not.1 hw
      have hline : a.block.x = c.block.x ∨ a.block.z = c.block.z := by tauto
      simp [hw, hline, pure, Except.pure, Bounds.around, eq_comm]

theorem corners_of_bounds (hs : s.bounds = .ok b) : ∃ a c, s.a = some a ∧ s.b = some c := by
  cases ha : s.a with
  | none =>
    rw [bounds, ha] at hs
    cases hs
  | some a =>
    cases hc : s.b with
    | none =>
      rw [bounds, ha, hc] at hs
      cases hs
    | some c => exact ⟨a, c, rfl, rfl⟩

theorem bounds_congr {t : Selection} {a' c' : Corner} (ha : s.a = some a) (hc : s.b = some c)
    (ha' : t.a = some a') (hc' : t.b = some c') (hs : s.bounds = .ok b)
    (hw : a'.world.id = c'.world.id)
    (hbox : ∀ d, a'.block.InBox c'.block d ↔ a.block.InBox c.block d) :
    t.bounds = .ok { b with world := a'.world } := by
  obtain ⟨-, hline, rfl⟩ := (bounds_eq_ok_iff ha hc).1 hs
  have haround : Bounds.around a'.world a'.block c'.block =
      Bounds.around a'.world a.block c.block := Bounds.around_congr hbox
  rw [bounds_eq_ok_iff ha' hc']
  refine ⟨hw, ?_, haround.symm⟩
  have hflat := (Bounds.upright_around (w := a'.world) hline).flat
  rw [← haround] at hflat
  exact hflat.imp least_eq_greatest_iff.1 least_eq_greatest_iff.1

theorem isXPlane_facing : (s.facing b).isXPlane = b.facing.isXPlane := by
  unfold facing
  split
  · cases b.facing <;> rfl
  · rfl

theorem facing_invert : s.invert.facing b = (s.facing b).opposite := by
  unfold facing invert
  cases s.inverted <;> simp

/-- The same corners the other way round. -/
def swapped (s : Selection) : Selection :=
  { s with a := s.b, b := s.a }

/-- Other blocks for the corners. -/
def withBlocks (s : Selection) (a b : Block) : Selection :=
  { s with a := s.a.map ({ · with block := a }), b := s.b.map ({ · with block := b }) }

/-- A selection that is accepted has the points of the blocks between its corners for its window:
all of them in exact numbers and, of the points that words stand for, those of the blocks and no
whole numbers and halves beyond. Other corners of the same blocks give the same window, and so do
the same corners the other way round, but for the name of the world, which is the one that the first
corner has. To invert the selection turns the window and leaves its points. -/
theorem window_of_blocks {K : Type} [Field K] [LinearOrder K] [IsStrictOrderedRing K]
    (ha : s.a = some a) (hc : s.b = some c) (hs : s.bounds = .ok b)
    (hcentral : a.block.Central ∧ c.block.Central) :
    (∃ (w : Frame K) (size : Size K), s.frame = .ok w ∧ s.size = .ok size ∧
      ∀ p, w.Contains size p ↔ a.block.BoxHolds c.block p) ∧
    (∃ (q : Position) (size : Size Double), s.position = .ok q ∧ s.size = .ok size ∧
      ∀ p : Vec3 Double, (∀ x ∈ p.numbers, x.isFinite = true) →
        (a.block.BoxHolds c.block p.exact → q.frame.Contains size p) ∧
        ((∀ x ∈ p.numbers, ∃ k : Int, x.value = k / 2) →
          q.frame.Contains size p → a.block.BoxHolds c.block p.exact)) ∧
    (∀ a' c', (∀ d, a'.InBox c' d ↔ a.block.InBox c.block d) →
      (s.withBlocks a' c').position = s.position ∧
      ((s.withBlocks a' c').size : Except Failure (Size Double)) = s.size ∧
      (s.withBlocks a' c').direction = s.direction) ∧
    (s.swapped.position = s.position.map ({ · with worldName := some c.world.name }) ∧
      (c.world.name = a.world.name → s.swapped.position = s.position) ∧
      (s.swapped.size : Except Failure (Size Double)) = s.size ∧
      s.swapped.direction = s.direction) ∧
    (s.invert.position = s.position.map (·.inverted) ∧
      (s.invert.size : Except Failure (Size Double)) = s.size ∧
      s.invert.direction = s.direction.map (·.opposite)) ∧
    ∀ (w : Frame Double) size p, w.inverted.Contains size p ↔ w.Contains size p := by
  obtain ⟨hw, hline, hb⟩ := (bounds_eq_ok_iff ha hc).1 hs
  have hupright : b.Upright := hb ▸ Bounds.upright_around hline
  obtain ⟨hlow, hhigh⟩ : b.low.Central ∧ b.high.Central :=
    hb ▸ Bounds.central_around hcentral.1 hcentral.2
  obtain ⟨hcounts, hsums⟩ := Bounds.fits_of_central hlow hhigh
  have hfill : ∀ {F : Type} [Field F] [LinearOrder F] [IsStrictOrderedRing F] (p : Vec3 F),
      (⟨b.heart, s.facing b⟩ : Frame F).Contains b.blocks p ↔ a.block.BoxHolds c.block p := by
    intro F _ _ _ p
    rw [hupright.contains_iff_holds isXPlane_facing, hupright.holds_iff, hb]
    simp only [Block.BoxHolds, Bounds.inBox_iff (w := a.world)]
  refine ⟨⟨_, _, (frame_of_bounds hs).trans (if_pos hsums), (size_of_bounds hs).trans
    (if_pos hcounts), hfill⟩, ?_, ?_, ?_, ?_, ?_⟩
  · refine ⟨_, _, (position_of_bounds hs).trans (if_pos hsums), (size_of_bounds hs).trans
      (if_pos hcounts), fun p hp => ?_⟩
    obtain ⟨hwidth, hheight⟩ := hupright.radius_blocks
    have hexact : Frame.exact ⟨b.heart, s.facing b⟩ = ⟨b.heart, s.facing b⟩ := by
      rw [Frame.exact, Bounds.exact_heart]
    rw [← hfill, ← hexact]
    exact ⟨Frame.contains_of_exact hp b.isHalf_heart hwidth hheight,
      Frame.exact_of_contains hp b.isHalf_heart hwidth hheight⟩
  · intro a' c' hbox
    have ha' : (s.withBlocks a' c').a = some { a with block := a' } := by rw [withBlocks, ha]; rfl
    have hc' : (s.withBlocks a' c').b = some { c with block := c' } := by rw [withBlocks, hc]; rfl
    have ht := bounds_congr ha hc ha' hc' hs hw hbox
    rw [← show b.world = a.world from congrArg Bounds.world hb] at ht
    rw [position_of_bounds hs, position_of_bounds ht, size_of_bounds hs, size_of_bounds ht,
      direction_of_bounds hs, direction_of_bounds ht]
    exact ⟨rfl, rfl, rfl⟩
  · have ht := bounds_congr (t := s.swapped) ha hc hc ha hs hw.symm fun d => Block.inBox_comm
    have hswapped :
        s.swapped.position = s.position.map ({ · with worldName := some c.world.name }) := by
      rw [position_of_bounds hs, position_of_bounds ht, if_pos hsums, hb]
      refine (if_pos (hb ▸ hsums)).trans ?_
      simp only [Except.map, Position.ofLocation, Bounds.around, hw]
      rfl
    refine ⟨hswapped, fun hname => ?_, ?_, ?_⟩
    · rw [hswapped, position_of_bounds hs, if_pos hsums, hname, hb]
      rfl
    · rw [size_of_bounds hs, size_of_bounds ht]
      rfl
    · rw [direction_of_bounds hs, direction_of_bounds ht]
      rfl
  · have ht : s.invert.bounds = .ok b := hs
    rw [position_of_bounds hs, position_of_bounds ht, size_of_bounds hs, size_of_bounds ht,
      direction_of_bounds hs, direction_of_bounds ht, facing_invert, if_pos hsums, if_pos hsums]
    exact ⟨rfl, rfl, rfl⟩
  · exact fun w size p => Frame.contains_inverted

end Selection

namespace Sample

/-- The second corner was picked after the world had another name. -/
def gate : Selection where
  a := some ⟨world, ⟨0, 66, 1⟩⟩
  b := some ⟨{ world with name := "renamed" }, ⟨0, 64, -2⟩⟩
  inverted := true

/-- The corner of the last block of the gate that is farthest from the others. -/
def edge : Vec3 ℚ := ⟨1, 67, 2⟩

end Sample

open Sample in
theorem gate_has_blocks :
    gate.bounds = .ok ⟨world, ⟨0, 64, -2⟩, ⟨0, 66, 1⟩⟩ ∧
    (∃ (w : Frame ℚ) (size : Size ℚ), gate.frame = .ok w ∧ gate.size = .ok size ∧
      w.Contains size edge ∧ ¬ w.Contains size { edge with z := 17 / 8 }) ∧
    (gate.withBlocks ⟨0, 64, 1⟩ ⟨0, 66, -2⟩).position = gate.position ∧
    gate.swapped.position = gate.position.map ({ · with worldName := some "renamed" }) ∧
    gate.invert.direction = .ok .east := by
  have hbounds : gate.bounds = .ok ⟨world, ⟨0, 64, -2⟩, ⟨0, 66, 1⟩⟩ := rfl
  obtain ⟨⟨w, size, hw, hsize, hfill⟩, -, hblocks, ⟨hswapped, -⟩, ⟨-, -, hinvert⟩, -⟩ :=
    Selection.window_of_blocks (K := ℚ) (a := ⟨world, ⟨0, 66, 1⟩⟩)
      (c := ⟨{ world with name := "renamed" }, ⟨0, 64, -2⟩⟩) rfl rfl hbounds
      ⟨by decide, by decide⟩
  have hbox : ∀ d, Block.InBox ⟨0, 64, 1⟩ ⟨0, 66, -2⟩ d ↔ Block.InBox ⟨0, 66, 1⟩ ⟨0, 64, -2⟩ d :=
    fun d => by simp only [Block.InBox, Between, or_comm]
  refine ⟨hbounds, ⟨w, size, hw, hsize, ?_, ?_⟩, (hblocks _ _ hbox).1, hswapped, hinvert⟩
  · exact (hfill _).2 ⟨⟨0, 66, 1⟩, by decide, by decide +kernel⟩
  · intro h
    obtain ⟨d, ⟨-, -, hz⟩, -, -, -, hhigh⟩ := (hfill _).1 h
    have hlast : d.z.toInt ≤ 1 := by
      simp only [Between, Int32.le_iff_toInt_le] at hz
      exact hz.elim (fun h => absurd (h.1.trans h.2) (by decide)) And.right
    have hcast : (d.z.toInt : ℚ) ≤ 1 := by exact_mod_cast hlast
    norm_num at hhigh
    linarith

open Sample in
/-- The other way round, the gate is in a world of another name. -/
theorem gate_renamed_by_swap :
    (∃ b, gate.bounds = .ok b) ∧ (∃ b, gate.swapped.bounds = .ok b) ∧
      (∀ c ∈ gate.a.toList ++ gate.b.toList, c.block.Central) ∧
      gate.swapped.position ≠ gate.position := by
  refine ⟨⟨_, rfl⟩, ⟨_, rfl⟩, by decide, fun h => ?_⟩
  have hname := congrArg (fun p => p.toOption.bind (·.worldName)) h
  exact absurd hname (by decide)

end PortalNet
