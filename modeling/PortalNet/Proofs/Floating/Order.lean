import PortalNet.Proofs.Floating.Exact

/-! # Rounding keeps the order

A word that comes later stands for a greater number, and the word nearest to a greater number does
not come earlier. Greater factors have a greater product, therefore, however it is rounded.
-/

namespace PortalNet

namespace FloatFormat

variable {f : FloatFormat} {n d n' d' m : Nat} {e : Int}

theorem ratio_le_iff (hd : 0 < d) (hd' : 0 < d') : (n / d : ℚ) ≤ n' / d' ↔ n * d' ≤ n' * d := by
  rw [div_le_div_iff₀ (Nat.cast_pos.2 hd) (Nat.cast_pos.2 hd')]
  exact_mod_cast Iff.rfl

theorem divEven_bounds : n / d ≤ divEven n d ∧ divEven n d ≤ n / d + 1 := by
  simp only [divEven]
  split <;> omega

theorem divEven_le_of_le (h : n ≤ n') : divEven n d ≤ divEven n' d := by
  have hquotient : n / d ≤ n' / d := Nat.div_le_div_right h
  rcases Nat.eq_or_lt_of_le hquotient with heq | hlt
  · have hremainder : n % d ≤ n' % d := by
      have hn := Nat.div_add_mod n d
      have hn' := Nat.div_add_mod n' d
      rw [heq] at hn
      omega
    simp only [divEven, heq]
    split <;> split <;> omega
  · exact divEven_bounds.2.trans (Nat.le_trans hlt divEven_bounds.1)

theorem divEven_mono (hd : 0 < d) (hd' : 0 < d') (h : (n / d : ℚ) ≤ n' / d') :
    divEven n d ≤ divEven n' d' := by
  rw [← divEven_mul_right (n := n) hd', ← divEven_mul_right (n := n') hd, Nat.mul_comm d' d]
  exact divEven_le_of_le ((ratio_le_iff hd hd').1 h)

theorem le_divEven (hd : 0 < d) (h : (m : ℚ) ≤ n / d) : m ≤ divEven n d := by
  have hmono : divEven m 1 ≤ divEven n d := divEven_mono Nat.one_pos hd (by simpa using h)
  rwa [divEven_one] at hmono

theorem divEven_le (hd : 0 < d) (h : (n / d : ℚ) ≤ m) : divEven n d ≤ m := by
  have hmono : divEven n d ≤ divEven m 1 := divEven_mono hd Nat.one_pos (by simpa using h)
  rwa [divEven_one] at hmono

/-- A number has at most as many digits before its last place as the format has. -/
theorem divEven_scale_le (hn : 0 < n) (hd : 0 < d)
    (h : Int.log 2 (n / d : ℚ) ≤ f.fractionBits + e) :
    divEven (scale n d e).1 (scale n d e).2 ≤ 2 ^ (f.fractionBits + 1) := by
  have hr : (0 : ℚ) < n / d := div_pos (Nat.cast_pos.2 hn) (Nat.cast_pos.2 hd)
  refine divEven_le (scale_pos hd) ?_
  rw [ratio_scale]
  calc (n / d : ℚ) * 2 ^ (-e) ≤ 2 ^ ((f.fractionBits : Int) + 1 + e) * 2 ^ (-e) := by
        refine mul_le_mul_of_nonneg_right ?_ (zpow_nonneg two_pos.le _)
        exact ((lt_two_zpow_iff hr).2 (by omega)).le
    _ = ((2 ^ (f.fractionBits + 1) : Nat) : ℚ) := by
        rw [← zpow_add₀ two_ne_zero, add_neg_cancel_right]
        push_cast
        exact_mod_cast rfl

/-- A number whose last place is not the least one has all the digits of the format. -/
theorem le_divEven_scale (hn : 0 < n) (hd : 0 < d)
    (h : Int.log 2 (n / d : ℚ) = f.fractionBits + e) :
    2 ^ f.fractionBits ≤ divEven (scale n d e).1 (scale n d e).2 := by
  have hr : (0 : ℚ) < n / d := div_pos (Nat.cast_pos.2 hn) (Nat.cast_pos.2 hd)
  refine le_divEven (scale_pos hd) ?_
  rw [ratio_scale]
  calc ((2 ^ f.fractionBits : Nat) : ℚ) = 2 ^ ((f.fractionBits : Int) + e) * 2 ^ (-e) := by
        rw [← zpow_add₀ two_ne_zero, add_neg_cancel_right]
        push_cast
        exact_mod_cast rfl
    _ ≤ (n / d : ℚ) * 2 ^ (-e) := by
        refine mul_le_mul_of_nonneg_right ?_ (zpow_nonneg two_pos.le _)
        exact (two_zpow_le_iff hr).2 h.ge

theorem magnitudeOf_mono (hd : 0 < d) (hd' : 0 < d') (h : (n / d : ℚ) ≤ n' / d') :
    f.magnitudeOf n d ≤ f.magnitudeOf n' d' := by
  rcases Nat.eq_zero_or_pos n with rfl | hn
  · simp [magnitudeOf]
  have hr : (0 : ℚ) < n / d := div_pos (Nat.cast_pos.2 hn) (Nat.cast_pos.2 hd)
  have hn' : 0 < n' := by
    rcases Nat.eq_zero_or_pos n' with rfl | hn'
    · exact absurd (hr.trans_le h) (by simp)
    · exact hn'
  have hlog : Int.log 2 (n / d : ℚ) ≤ Int.log 2 (n' / d' : ℚ) := Int.log_mono_right hr h
  have he := lastPlace_eq (f := f) hn hd
  have he' := lastPlace_eq (f := f) hn' hd'
  simp only [magnitudeOf, hn.ne', hn'.ne', if_false]
  refine min_le_min_left _ ?_
  rcases eq_or_lt_of_le (show f.lastPlace n d ≤ f.lastPlace n' d' by omega) with heq | hlt
  · rw [heq]
    refine Nat.add_le_add_left (divEven_mono (scale_pos hd) (scale_pos hd') ?_) _
    rw [ratio_scale, ratio_scale]
    exact mul_le_mul_of_nonneg_right h (zpow_nonneg two_pos.le _)
  · have hhigh := divEven_scale_le (f := f) (e := f.lastPlace n d) hn hd (by omega)
    have hlow := le_divEven_scale (f := f) (e := f.lastPlace n' d') hn' hd' (by omega)
    obtain ⟨k, hk⟩ : ∃ k, (f.lastPlace n' d' - f.least).toNat =
        (f.lastPlace n d - f.least).toNat + 1 + k := Nat.exists_eq_add_of_le (by omega)
    rw [hk, Nat.add_mul, Nat.add_mul]
    omega

/-- The magnitude nearest to a number that is not negative. -/
def nearest (f : FloatFormat) (r : ℚ) : Nat :=
  f.magnitudeOf r.num.toNat r.den

theorem num_div_den {r : ℚ} (h : 0 ≤ r) : (r.num.toNat / r.den : ℚ) = r := by
  have hnum : ((r.num.toNat : Int) : ℚ) = r.num :=
    congrArg Int.cast (Int.toNat_of_nonneg (Rat.num_nonneg.2 h))
  rw [← Int.cast_natCast, hnum, Rat.num_div_den]

theorem magnitudeOf_eq_nearest (hd : 0 < d) : f.magnitudeOf n d = f.nearest (n / d) :=
  magnitudeOf_congr hd (Rat.den_pos _) (num_div_den (by positivity)).symm

theorem nearest_le_nearest {r r' : ℚ} (h : 0 ≤ r) (hr : r ≤ r') : f.nearest r ≤ f.nearest r' := by
  refine magnitudeOf_mono (Rat.den_pos _) (Rat.den_pos _) ?_
  rwa [num_div_den h, num_div_den (h.trans hr)]

/-- The number that a finite magnitude stands for: its last digits, as many as the format has, at
the place that the first ones give. -/
def valueOf (f : FloatFormat) (magnitude : Nat) : ℚ :=
  let place := magnitude / 2 ^ f.fractionBits - 1
  (magnitude - place * 2 ^ f.fractionBits : Nat) * 2 ^ (f.least + place)

theorem valueOf_nonneg : 0 ≤ f.valueOf m :=
  mul_nonneg (Nat.cast_nonneg _) (zpow_nonneg two_pos.le _)

/-- Where a new place begins, there are half as many digits before it, each counting twice. -/
theorem valueOf_strictMono : StrictMono f.valueOf := by
  refine strictMono_nat_of_lt_succ fun m => ?_
  simp only [valueOf]
  have hfield := Nat.div_mul_le_self m (2 ^ f.fractionBits)
  generalize hplace : m / 2 ^ f.fractionBits - 1 = p
  generalize hplace' : (m + 1) / 2 ^ f.fractionBits - 1 = p'
  have hpow : ∀ e : Int, (0 : ℚ) < 2 ^ e := fun _ => zpow_pos two_pos _
  have hbefore : p * 2 ^ f.fractionBits ≤ m :=
    (Nat.mul_le_mul_right _ (hplace ▸ Nat.sub_le ..)).trans hfield
  rcases eq_or_ne p' p with rfl | hne
  · exact mul_lt_mul_of_pos_right (Nat.cast_lt.2 (by omega)) (hpow _)
  · obtain ⟨hp, hm⟩ : p' = p + 1 ∧ m + 1 = 2 ^ f.fractionBits * (p + 2) := by
      rw [Nat.succ_div] at hplace'
      split at hplace'
      · next hdvd =>
        have hquotient := Nat.succ_div_of_dvd hdvd
        exact ⟨by omega, (Nat.mul_div_cancel' hdvd).symm.trans (by rw [hquotient]; congr 1; omega)⟩
      · omega
    have hdigits : m - p * 2 ^ f.fractionBits < 2 * 2 ^ f.fractionBits := by
      have hsplit :
          2 ^ f.fractionBits * (p + 2) = p * 2 ^ f.fractionBits + 2 * 2 ^ f.fractionBits := by
        ring
      omega
    have hdigits' : m + 1 - p' * 2 ^ f.fractionBits = 2 ^ f.fractionBits := by
      rw [hm, hp, Nat.mul_comm (p + 1), ← Nat.mul_sub]
      simp
    rw [hdigits', hp]
    calc ((m - p * 2 ^ f.fractionBits : Nat) : ℚ) * 2 ^ (f.least + p)
        < ((2 * 2 ^ f.fractionBits : Nat) : ℚ) * 2 ^ (f.least + p) :=
          mul_lt_mul_of_pos_right (Nat.cast_lt.2 hdigits) (hpow _)
      _ = ((2 ^ f.fractionBits : Nat) : ℚ) * 2 ^ (f.least + (p + 1 : Nat)) := by
          rw [Nat.cast_succ, ← add_assoc, zpow_add_one₀ two_ne_zero]
          push_cast
          ring

theorem valueOf_mono : Monotone f.valueOf :=
  valueOf_strictMono.monotone

@[simp] theorem valueOf_zero : f.valueOf 0 = 0 := by
  simp [valueOf]

theorem nearest_valueOf_of_normal (hlow : 2 ^ f.fractionBits ≤ m) (hhigh : m ≤ f.infinity) :
    f.nearest (f.valueOf m) = m := by
  have hdiv := Nat.div_add_mod m (2 ^ f.fractionBits)
  have hmod := Nat.mod_lt m (Nat.two_pow_pos f.fractionBits)
  obtain ⟨place, hplace⟩ : ∃ place, m / 2 ^ f.fractionBits = place + 1 :=
    Nat.exists_eq_succ_of_ne_zero (Nat.div_pos hlow (Nat.two_pow_pos _)).ne'
  rw [hplace, Nat.mul_add_one, Nat.mul_comm] at hdiv
  have hexact := magnitudeOf_exact (f := f) (e := f.least + place)
    (m := m - place * 2 ^ f.fractionBits) (by omega) (by rw [Nat.pow_succ]; omega) (by omega)
    (Rat.den_pos (f.valueOf m)) (by rw [num_div_den valueOf_nonneg, valueOf, hplace]; rfl)
  rw [nearest, hexact, add_sub_cancel_left, Int.toNat_natCast, Nat.add_sub_of_le (by omega),
    Nat.min_eq_right hhigh]

/-- Below the normal magnitudes, digits count at the least place of all. -/
theorem nearest_valueOf_of_lt (hlow : m < 2 ^ f.fractionBits) (hhigh : m ≤ f.infinity) :
    f.nearest (f.valueOf m) = m := by
  have hvalue : f.valueOf m = m * 2 ^ f.least := by
    rw [valueOf, Nat.div_eq_of_lt hlow]
    simp
  rcases Nat.eq_zero_or_pos m with rfl | hm
  · rw [valueOf_zero]
    rfl
  · have hpos : (0 : ℚ) < f.valueOf m := by
      rw [hvalue]
      exact mul_pos (Nat.cast_pos.2 hm) (zpow_pos two_pos _)
    generalize hr : f.valueOf m = r at hvalue hpos
    have hratio := num_div_den hpos.le
    have hlog : Int.log 2 r < f.fractionBits + f.least := by
      rw [← lt_two_zpow_iff hpos, hvalue, zpow_add₀ two_ne_zero, zpow_natCast]
      exact mul_lt_mul_of_pos_right (by exact_mod_cast hlow) (zpow_pos two_pos _)
    have hnum : 0 < r.num.toNat := Int.pos_iff_toNat_pos.1 (Rat.num_pos.2 hpos)
    have hlast : f.lastPlace r.num.toNat r.den = f.least := by
      rw [lastPlace_eq hnum r.den_pos, hratio]
      omega
    have hscaled : ((scale r.num.toNat r.den f.least).1 / (scale r.num.toNat r.den f.least).2 : ℚ) =
        m / (1 : Nat) := by
      rw [ratio_scale, hratio, hvalue, mul_assoc, ← zpow_add₀ two_ne_zero, add_neg_cancel,
        zpow_zero, mul_one, Nat.cast_one, div_one]
    rw [nearest, magnitudeOf, if_neg hnum.ne']
    simp only [hlast, sub_self, Int.toNat_zero, Nat.zero_mul, Nat.zero_add]
    rw [divEven_congr (scale_pos r.den_pos) Nat.one_pos hscaled, divEven_one,
      Nat.min_eq_right hhigh]

/-- What a magnitude stands for is rounded to that magnitude. -/
theorem nearest_valueOf (h : m ≤ f.infinity) : f.nearest (f.valueOf m) = m := by
  rcases Nat.lt_or_ge m (2 ^ f.fractionBits) with hlow | hlow
  · exact nearest_valueOf_of_lt hlow h
  · exact nearest_valueOf_of_normal hlow h

end FloatFormat

namespace Floating

variable {f : FloatFormat} {x y x' y' : Floating f} {n d : Nat}

/-- What a finite word stands for. -/
theorem exists_datum (h : x.isFinite = true) :
    ∃ m e, x.datum = .finite x.negative m e ∧ m * 2 ^ e = f.valueOf x.magnitude := by
  have hlt : x.magnitude < f.infinity := of_decide_eq_true h
  have hdiv := Nat.div_add_mod x.magnitude (2 ^ f.fractionBits)
  unfold datum FloatFormat.valueOf
  dsimp only
  rw [if_neg hlt.not_gt, if_neg hlt.ne]
  split
  · next hfield =>
    refine ⟨_, _, rfl, ?_⟩
    rw [hfield, Nat.mul_zero, Nat.zero_add] at hdiv
    rw [hfield, hdiv]
    simp
  · next hfield =>
    refine ⟨_, _, rfl, ?_⟩
    obtain ⟨k, hk⟩ := Nat.exists_eq_succ_of_ne_zero hfield
    rw [hk, Nat.succ_eq_add_one, Nat.mul_add_one, Nat.mul_comm] at hdiv
    rw [hk, Nat.succ_eq_add_one, Nat.add_sub_cancel]
    congr 2
    · omega
    · omega

theorem isFinite_ofParts {s : Bool} {m : Nat} (h : m < f.infinity) :
    (ofParts s m : Floating f).isFinite = true := by
  rw [isFinite, magnitude_ofParts (h.trans infinity_lt)]
  exact decide_eq_true h

theorem magnitude_ofQuotient {s : Bool} :
    (ofQuotient s n d : Floating f).magnitude = f.magnitudeOf n d :=
  magnitude_ofParts (Nat.lt_of_le_of_lt FloatFormat.magnitudeOf_le infinity_lt)

theorem magnitude_ofInt_le {m n : Int} (h : m.natAbs ≤ n.natAbs) :
    (m : Floating f).magnitude ≤ (n : Floating f).magnitude := by
  change (ofInt m).magnitude ≤ (ofInt n).magnitude
  rw [ofInt, ofInt, magnitude_ofQuotient, magnitude_ofQuotient]
  refine FloatFormat.magnitudeOf_mono Nat.one_pos Nat.one_pos ?_
  rw [Nat.cast_one, div_one, div_one]
  exact Nat.cast_le.2 h

theorem isFinite_of_le (h : x.magnitude ≤ y.magnitude) (hy : y.isFinite = true) :
    x.isFinite = true :=
  decide_eq_true (Nat.lt_of_le_of_lt h (of_decide_eq_true hy))

theorem isFinite_neg (h : x.isFinite = true) : (-x).isFinite = true :=
  isFinite_ofParts (of_decide_eq_true h)

theorem magnitude_mul (hx : x.isFinite = true) (hy : y.isFinite = true) :
    (x * y).magnitude = f.nearest (f.valueOf x.magnitude * f.valueOf y.magnitude) := by
  obtain ⟨m, e, hx, hm⟩ := exists_datum hx
  obtain ⟨m', e', hy, hm'⟩ := exists_datum hy
  change (Floating.mul x y).magnitude = _
  rw [Floating.mul, hx, hy]
  dsimp only
  rw [ofDyadic, magnitude_ofQuotient,
    FloatFormat.magnitudeOf_eq_nearest (FloatFormat.scale_pos Nat.one_pos),
    FloatFormat.ratio_scale, ← hm, ← hm', neg_neg, zpow_add₀ two_ne_zero]
  congr 1
  push_cast
  ring

theorem magnitude_div (hx : x.isFinite = true) (hy : y.isFinite = true)
    (hpos : f.valueOf y.magnitude ≠ 0) :
    (x / y).magnitude = f.nearest (f.valueOf x.magnitude / f.valueOf y.magnitude) := by
  obtain ⟨m, e, hx, hm⟩ := exists_datum hx
  obtain ⟨m', e', hy, hm'⟩ := exists_datum hy
  have hm0 : m' ≠ 0 := by
    rintro rfl
    rw [← hm', Nat.cast_zero, zero_mul] at hpos
    exact hpos rfl
  change (Floating.div x y).magnitude = _
  rw [Floating.div, hx, hy]
  dsimp only
  rw [if_neg hm0, magnitude_ofQuotient,
    FloatFormat.magnitudeOf_eq_nearest (FloatFormat.scale_pos (Nat.pos_of_ne_zero hm0)),
    FloatFormat.ratio_scale, ← hm, ← hm', neg_sub, zpow_sub₀ two_ne_zero]
  congr 1
  ring

theorem magnitude_mul_le (hx : x.isFinite = true) (hy : y.isFinite = true)
    (hx' : x'.isFinite = true) (hy' : y'.isFinite = true)
    (h : x.magnitude ≤ x'.magnitude) (h' : y.magnitude ≤ y'.magnitude) :
    (x * y).magnitude ≤ (x' * y').magnitude := by
  rw [magnitude_mul hx hy, magnitude_mul hx' hy']
  refine FloatFormat.nearest_le_nearest
    (mul_nonneg FloatFormat.valueOf_nonneg FloatFormat.valueOf_nonneg) ?_
  exact mul_le_mul (FloatFormat.valueOf_mono h) (FloatFormat.valueOf_mono h')
    FloatFormat.valueOf_nonneg FloatFormat.valueOf_nonneg

end Floating

end PortalNet
