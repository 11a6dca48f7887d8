import Mathlib.Data.Rat.Floor
import PortalNet.Proofs.Geometry.Exact

/-! # Passages through windows

In exact numbers a passage is a change of place between two windows: two in a row are one, and
the way back undoes it. Whoever goes through is as far across, as high and as deep in the window
that they leave by as in the one that they entered.
-/

namespace PortalNet

namespace Vec3

variable {α : Type} [InvolutiveNeg α] {v : Vec3 α} {m n : Nat}

@[simp] theorem rotate_zero : v.rotate 0 = v := rfl

theorem rotate_congr (h : m % 4 = n % 4) : v.rotate m = v.rotate n := by
  simp only [rotate, h]

theorem rotate_succ : v.rotate (n + 1) = (v.rotate n).rotate 1 := by
  have h : n % 4 = 0 ∨ n % 4 = 1 ∨ n % 4 = 2 ∨ n % 4 = 3 := by omega
  rcases h with h | h | h | h <;> simp [rotate, h, Nat.add_mod]

theorem rotate_rotate : (v.rotate m).rotate n = v.rotate (m + n) := by
  induction n with
  | zero => rfl
  | succ n ih =>
    rw [rotate_succ, ih]
    exact rotate_succ.symm

end Vec3

namespace Direction

variable {a b c : Direction}

@[simp] theorem turnsTo_self : a.turnsTo a = 0 := by
  cases a <;> rfl

theorem turnsTo_add : (a.turnsTo b + b.turnsTo c) % 4 = a.turnsTo c % 4 := by
  cases a <;> cases b <;> cases c <;> rfl

theorem turns_add_turnsTo : (a.turns + a.turnsTo b) % 4 = b.turns % 4 := by
  cases a <;> cases b <;> rfl

end Direction

section exact

variable {K L : Type} [Field K] [LinearOrder K] [Field L] [LinearOrder L] [FloorRing L]

namespace Vec3

theorem add_sub_left (v w : Vec3 K) : v + w - v = w := by
  change mk (v.x + w.x - v.x) (v.y + w.y - v.y) (v.z + w.z - v.z) = w
  simp only [add_sub_cancel_left]

theorem add_sub_right (v w : Vec3 K) : v + (w - v) = w := by
  change mk (v.x + (w.x - v.x)) (v.y + (w.y - v.y)) (v.z + (w.z - v.z)) = w
  simp only [add_sub_cancel]

end Vec3

theorem Direction.rotate_normal (a b : Direction) :
    (a.normal : Vec3 K).rotate (a.turnsTo b) = b.normal := by
  cases a <;> cases b <;> simp [normal, turnsTo, turns, Vec3.rotate]

namespace Frame

variable {o d e w : Frame K} {size : Size K} {p : Vec3 K} {m : Motion K L}

/-- Where a point is for someone who looks out of the window: how far across, how high and how far
in front of it. -/
def view (w : Frame K) (p : Vec3 K) : Vec3 K :=
  (p - w.center).rotate (w.facing.turnsTo .south)

theorem view_carry : d.view (carry o d m).position = o.view m.position := by
  rw [view, carry, Vec3.add_sub_left, Vec3.rotate_rotate]
  exact Vec3.rotate_congr Direction.turnsTo_add

theorem carry_self : carry o o m = { m with yaw := Angle.wrap m.yaw } := by
  simp only [carry, Direction.turnsTo_self, Vec3.rotate_zero, Vec3.add_sub_right]
  simp

section window

variable [IsStrictOrderedRing K]

theorem contains_iff :
    w.Contains size p ↔
      |(w.view p).z| ≤ 1 / 2 ∧ |(w.view p).x| ≤ size.width / 2 ∧
        |(w.view p).y| ≤ size.height / 2 := by
  simp only [Contains, Scalar.within_iff, Scalar.half_eq, view]
  cases w.facing <;> simp [Direction.isXPlane, Direction.turnsTo, Direction.turns, Vec3.rotate,
    abs_sub_comm w.center.x, abs_sub_comm w.center.z]

theorem contains_carry : d.Contains size (carry o d m).position ↔ o.Contains size m.position := by
  rw [contains_iff, contains_iff, view_carry]

end window

section yaw

variable [IsStrictOrderedRing L]

theorem carry_carry : carry d e (carry o d m) = carry o e m := by
  have hturns := Direction.turnsTo_add (a := o.facing) (b := d.facing) (c := e.facing)
  have hrotate : ∀ v : Vec3 K, (v.rotate (o.facing.turnsTo d.facing)).rotate
      (d.facing.turnsTo e.facing) = v.rotate (o.facing.turnsTo e.facing) := fun v =>
    Vec3.rotate_rotate.trans (Vec3.rotate_congr hturns)
  have hyaw := Angle.wrap_quarters_congr m.yaw hturns
  simp only [carry, Vec3.add_sub_left, hrotate, Angle.wrap_wrap_add, Angle.add_quarters, hyaw]

/-- Whoever goes in the way that the one window faces comes out in the way that the other does. -/
theorem yaw_carry (h : m.yaw = o.facing.yaw) : (carry o d m).yaw = d.facing.yaw := by
  have hturns := Angle.wrap_quarters_congr (0 : L)
    (Direction.turns_add_turnsTo (a := o.facing) (b := d.facing))
  have hlt : (((90 * d.facing.turns : Nat) : Int) : L) < 360 := by
    have hturns := d.facing.turns_lt
    exact_mod_cast (show 90 * d.facing.turns < 360 by omega)
  rw [← Angle.add_quarters, zero_add, zero_add] at hturns
  rw [carry, h, Direction.yaw, hturns]
  exact Angle.wrap_of_lt (Int.cast_nonneg (Int.natCast_nonneg _)) hlt

end yaw

/-- Passages compose, the one from a window to itself only wraps the yaw, and so the way there and
back restores all but whole turns. Windows of one size have the same points through a passage, and
facings keep to the passage. -/
theorem passages_compose [IsStrictOrderedRing K] [IsStrictOrderedRing L] (o d e : Frame K)
    (m : Motion K L) :
    carry d e (carry o d m) = carry o e m ∧
    carry o o m = { m with yaw := Angle.wrap m.yaw } ∧
    carry d o (carry o d m) = { m with yaw := Angle.wrap m.yaw } ∧
    (0 ≤ Angle.wrap m.yaw ∧ Angle.wrap m.yaw < 360 ∧
      ∃ turns : Int, m.yaw = Angle.wrap m.yaw + 360 * turns) ∧
    (∀ size : Size K, o.Contains size m.position ↔ d.Contains size (carry o d m).position) ∧
    (m.yaw = o.facing.yaw → (carry o d m).yaw = d.facing.yaw) ∧
    (m.velocity = o.facing.normal → (carry o d m).velocity = d.facing.normal) := by
  refine ⟨carry_carry, carry_self, carry_carry.trans carry_self, ?_, ?_, yaw_carry, ?_⟩
  · refine ⟨Angle.wrap_nonneg _, Angle.wrap_lt _, ⌊m.yaw / 360⌋, ?_⟩
    rw [Angle.wrap_eq, sub_add_cancel]
  · intro size
    exact contains_carry.symm
  · intro h
    rw [carry, h]
    exact o.facing.rotate_normal d.facing

end Frame

end exact

namespace Sample

def doorway : Frame ℚ := ⟨⟨0, 64, 0⟩, .south⟩

def balcony : Frame ℚ := ⟨⟨100, 70, 100⟩, .west⟩

/-- Walks backwards through the doorway, looking to the east. -/
def walker : Motion ℚ ℚ := ⟨⟨1, 129 / 2, 1 / 4⟩, -90, 5, ⟨0, 0, 1 / 2⟩, false, true⟩

end Sample

open Sample in
theorem walker_restored :
    doorway.carry balcony walker =
      ⟨⟨399 / 4, 141 / 2, 101⟩, 0, 5, ⟨-(1 / 2), 0, 0⟩, false, true⟩ ∧
    balcony.carry doorway (doorway.carry balcony walker) = { walker with yaw := 270 } ∧
    balcony.Contains ⟨2, 3⟩ (doorway.carry balcony walker).position := by
  obtain ⟨-, -, hback, -, hwindow, -⟩ := Frame.passages_compose doorway balcony doorway walker
  have hyaw : Angle.wrap walker.yaw = 270 := by decide +kernel
  refine ⟨by decide +kernel, ?_, (hwindow ⟨2, 3⟩).1 (by decide +kernel)⟩
  rw [hback, hyaw]

end PortalNet
