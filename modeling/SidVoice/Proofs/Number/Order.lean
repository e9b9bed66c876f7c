import SidVoice.Proofs.Number.Operations

/-!
# The order of numbers

Comparing single-precision numbers compares their values, and what is not a number compares with
nothing. As rounding respects the order of exact results, so do the operations, as far as they have
a result: this is all that is needed to compare two computations step by step.

Zeros of both signs are equal here, and nothing is said about equal bits.
-/

namespace SidVoice.Number

open Float.Model
open Float.Model.UnpackedFloat

section Comparison

/-- Canonical magnitudes are compared by their exponents first. -/
theorem compares_magnitude {mantissa mantissa' : ℕ} {exponent exponent' : ℤ}
    (h : Canonical Format.binary32 mantissa exponent)
    (h' : Canonical Format.binary32 mantissa' exponent') :
    ((compare exponent exponent').then (compare mantissa mantissa')).Compares
      ((mantissa : ℝ) * 2 ^ exponent) (mantissa' * 2 ^ exponent') := by
  have hnonneg : ∀ (m : ℕ) (e : ℤ), 0 ≤ (m : ℝ) * 2 ^ e := magnitude_nonneg
  -- a number with a lower last place is smaller
  have hlower : ∀ {m m' : ℕ} {e e' : ℤ}, Canonical Format.binary32 m e →
      Canonical Format.binary32 m' e' → e < e' → (m : ℝ) * 2 ^ e < m' * 2 ^ e' := by
    intro m m' e e' hm hm' hlt
    by_contra hle
    rw [not_lt] at hle
    have habs : |(m' : ℝ) * 2 ^ e'| ≤ |(m : ℝ) * 2 ^ e| := by
      rwa [abs_of_nonneg (hnonneg m' e'), abs_of_nonneg (hnonneg m e)]
    exact (hm'.lastPlace.le hm.lastPlace habs).not_gt hlt
  rcases hexponent : compare exponent exponent' with _ | _ | _
  · exact hlower h h' (Int.compare_eq_lt.mp hexponent)
  · obtain rfl := Int.compare_eq_eq.mp hexponent
    have hpos := two_zpow_pos exponent
    rcases hmantissa : compare mantissa mantissa' with _ | _ | _
    · have hlt : (mantissa : ℝ) < mantissa' := by exact_mod_cast Nat.compare_eq_lt.mp hmantissa
      exact mul_lt_mul_of_pos_right hlt hpos
    · obtain rfl := Nat.compare_eq_eq.mp hmantissa
      exact rfl
    · have hgt : (mantissa' : ℝ) < mantissa := by exact_mod_cast Nat.compare_eq_gt.mp hmantissa
      exact mul_lt_mul_of_pos_right hgt hpos
  · exact hlower h' h (Int.compare_eq_gt.mp hexponent)

theorem StandsFor.compares {u v : UnpackedFloat} {x y : ℝ} (hu : StandsFor u x)
    (hv : StandsFor v y) : ∃ o, u.compare v = some o ∧ o.Compares x y := by
  have hpos : ∀ {m : ℕ} (e : ℤ), 0 < m → 0 < (m : ℝ) * 2 ^ e := fun e hm =>
    mul_pos (by exact_mod_cast hm) (two_zpow_pos e)
  cases hu with
  | zero sign =>
    cases hv with
    | zero sign' => exact ⟨.eq, rfl, rfl⟩
    | finite sign' mantissa' exponent' hpos' =>
      cases sign' with
      | negative => exact ⟨.gt, rfl, neg_neg_of_pos (hpos exponent' hpos')⟩
      | positive => exact ⟨.lt, rfl, hpos exponent' hpos'⟩
  | finite sign mantissa exponent hmantissa hcanonical =>
    cases hv with
    | zero sign' =>
      cases sign with
      | negative => exact ⟨.lt, rfl, neg_neg_of_pos (hpos exponent hmantissa)⟩
      | positive => exact ⟨.gt, rfl, hpos exponent hmantissa⟩
    | finite sign' mantissa' exponent' hmantissa' hcanonical' =>
      have hleft := hpos exponent hmantissa
      have hright := hpos exponent' hmantissa'
      have hmagnitude := compares_magnitude hcanonical hcanonical'
      cases sign <;> cases sign'
      · refine ⟨_, rfl, Ordering.compares_swap.mpr ?_⟩
        revert hmagnitude
        cases (compare exponent exponent').then (compare mantissa mantissa') with
        | lt => exact neg_lt_neg
        | eq => exact fun heq => congrArg Neg.neg heq.symm
        | gt => exact neg_lt_neg
      · exact ⟨.lt, rfl, (neg_neg_of_pos hleft).trans hright⟩
      · exact ⟨.gt, rfl, (neg_neg_of_pos hright).trans hleft⟩
      · exact ⟨_, rfl, hmagnitude⟩

theorem Denotes.compares {u v : UnpackedFloat} {a b : EReal} (hu : Denotes u a)
    (hv : Denotes v b) : ∃ o, u.compare v = some o ∧ o.Compares a b := by
  cases hu with
  | infinity sign =>
    cases hv with
    | infinity sign' =>
      cases sign <;> cases sign'
      · exact ⟨.eq, rfl, rfl⟩
      · exact ⟨.lt, rfl, bot_lt_top⟩
      · exact ⟨.gt, rfl, bot_lt_top⟩
      · exact ⟨.eq, rfl, rfl⟩
    | real hstands =>
      cases sign with
      | negative => cases hstands <;> exact ⟨.lt, rfl, EReal.bot_lt_coe _⟩
      | positive => cases hstands <;> exact ⟨.gt, rfl, EReal.coe_lt_top _⟩
  | real hstands =>
    cases hv with
    | infinity sign =>
      cases sign with
      | negative => cases hstands <;> exact ⟨.gt, rfl, EReal.bot_lt_coe _⟩
      | positive => cases hstands <;> exact ⟨.lt, rfl, EReal.coe_lt_top _⟩
    | real hstands' =>
      obtain ⟨o, hcompare, hcompares⟩ := hstands.compares hstands'
      refine ⟨o, hcompare, ?_⟩
      cases o with
      | lt => exact EReal.coe_lt_coe_iff.mpr hcompares
      | eq => exact congrArg Real.toEReal hcompares
      | gt => exact EReal.coe_lt_coe_iff.mpr hcompares

end Comparison

section Words

variable {x y : Float32}

theorem compare_notANumber (u : UnpackedFloat) : u.compare .notANumber = none := by
  cases u with
  | notANumber => rfl
  | infinity sign | zero sign | finite sign => cases sign <;> rfl

/-- Only numbers compare. -/
theorem isNumber_of_compare {o : Ordering}
    (h : x.toModel.unpack.compare y.toModel.unpack = some o) : IsNumber x ∧ IsNumber y := by
  constructor
  · change x.toModel.unpack.isNaN = false
    cases hx : x.toModel.unpack with
    | notANumber =>
      rw [hx] at h
      exact absurd (show none = some o from h) (Option.some_ne_none o).symm
    | infinity | zero | finite => rfl
  · change y.toModel.unpack.isNaN = false
    cases hy : y.toModel.unpack with
    | notANumber =>
      rw [hy, compare_notANumber] at h
      exact absurd h (Option.some_ne_none o).symm
    | infinity | zero | finite => rfl

theorem compare_values (hx : IsNumber x) (hy : IsNumber y) :
    ∃ o, x.toModel.unpack.compare y.toModel.unpack = some o ∧ o.Compares (value x) (value y) :=
  (denotes_value hx).compares (denotes_value hy)

/-- A number is at most another one if its value is. -/
theorem le_iff_value : x ≤ y ↔ IsNumber x ∧ IsNumber y ∧ value x ≤ value y := by
  have hle : x ≤ y ↔ (x.toModel.unpack.compare y.toModel.unpack).any (·.isLE) = true :=
    decide_eq_true_iff
  rw [hle, Option.any_eq_true]
  constructor
  · rintro ⟨o, hcompare, hisLE⟩
    obtain ⟨hx, hy⟩ := isNumber_of_compare hcompare
    obtain ⟨o', hcompare', hcompares⟩ := compare_values hx hy
    obtain rfl := Option.some.inj (hcompare.symm.trans hcompare')
    refine ⟨hx, hy, ?_⟩
    cases o with
    | lt => exact hcompares.le
    | eq => exact hcompares.le
    | gt => exact absurd hisLE Bool.false_ne_true
  · rintro ⟨hx, hy, hvalue⟩
    obtain ⟨o, hcompare, hcompares⟩ := compare_values hx hy
    refine ⟨o, hcompare, ?_⟩
    cases o with
    | lt | eq => rfl
    | gt => exact absurd hvalue hcompares.not_ge

/-- A number is less than another one if its value is. -/
theorem lt_iff_value : x < y ↔ IsNumber x ∧ IsNumber y ∧ value x < value y := by
  have hlt : x < y ↔ x.toModel.unpack.compare y.toModel.unpack = some .lt := by
    rw [lt_iff, UnpackedFloat.lt]
    exact beq_iff_eq
  rw [hlt]
  constructor
  · intro hcompare
    obtain ⟨hx, hy⟩ := isNumber_of_compare hcompare
    obtain ⟨o, hcompare', hcompares⟩ := compare_values hx hy
    obtain rfl := Option.some.inj (hcompare.symm.trans hcompare')
    exact ⟨hx, hy, hcompares⟩
  · rintro ⟨hx, hy, hvalue⟩
    obtain ⟨o, hcompare, hcompares⟩ := compare_values hx hy
    cases o with
    | lt => exact hcompare
    | eq => exact absurd hcompares hvalue.ne
    | gt => exact absurd hvalue hcompares.not_gt

theorem value_zero : value 0 = 0 := rfl

theorem le_trans_single {z : Float32} (h : x ≤ y) (h' : y ≤ z) : x ≤ z := by
  obtain ⟨hx, -, hxy⟩ := le_iff_value.mp h
  obtain ⟨-, hz, hyz⟩ := le_iff_value.mp h'
  exact le_iff_value.mpr ⟨hx, hz, hxy.trans hyz⟩

theorem lt_of_lt_of_le_single {z : Float32} (h : x < y) (h' : y ≤ z) : x < z := by
  obtain ⟨hx, -, hxy⟩ := lt_iff_value.mp h
  obtain ⟨-, hz, hyz⟩ := le_iff_value.mp h'
  exact lt_iff_value.mpr ⟨hx, hz, hxy.trans_le hyz⟩

theorem lt_of_le_of_lt_single {z : Float32} (h : x ≤ y) (h' : y < z) : x < z := by
  obtain ⟨hx, -, hxy⟩ := le_iff_value.mp h
  obtain ⟨-, hz, hyz⟩ := lt_iff_value.mp h'
  exact lt_iff_value.mpr ⟨hx, hz, hxy.trans_lt hyz⟩

theorem le_refl_single (hx : IsNumber x) : x ≤ x := le_iff_value.mpr ⟨hx, hx, le_rfl⟩

theorem le_of_lt_single (h : x < y) : x ≤ y := by
  obtain ⟨hx, hy, hxy⟩ := lt_iff_value.mp h
  exact le_iff_value.mpr ⟨hx, hy, hxy.le⟩

/-- Of two numbers one is at most the other. -/
theorem le_total_single (hx : IsNumber x) (hy : IsNumber y) : x ≤ y ∨ y ≤ x := by
  rcases le_total (value x) (value y) with h | h
  · exact Or.inl (le_iff_value.mpr ⟨hx, hy, h⟩)
  · exact Or.inr (le_iff_value.mpr ⟨hy, hx, h⟩)

theorem not_lt_of_le_single (h : x ≤ y) : ¬ y < x := by
  intro hlt
  obtain ⟨-, -, hxy⟩ := le_iff_value.mp h
  obtain ⟨-, -, hyx⟩ := lt_iff_value.mp hlt
  exact hxy.not_gt hyx

theorem isNumber_zero : IsNumber 0 := isNumber_of_isFinite (by decide)

theorem nonneg_iff_value : 0 ≤ x ↔ IsNumber x ∧ 0 ≤ value x := by
  rw [le_iff_value, and_iff_right isNumber_zero, value_zero]

theorem nonpos_iff_value : x ≤ 0 ↔ IsNumber x ∧ value x ≤ 0 := by
  rw [le_iff_value, and_iff_right isNumber_zero, value_zero]

/-- What is at most a number that is not infinite at the upper end is not so either. -/
theorem ne_top_of_le (h : x ≤ y) (hy : value y ≠ ⊤) : value x ≠ ⊤ := by
  obtain ⟨-, -, hvalue⟩ := le_iff_value.mp h
  exact (hvalue.trans_lt hy.lt_top).ne

end Words

section Operations

variable {x x' y y' : Float32} {a b : EReal}

/-- Numbers that round ordered results are ordered. -/
theorem IsRounding.le (hx : IsRounding a x) (hy : IsRounding b y) (h : a ≤ b) : x ≤ y :=
  le_iff_value.mpr ⟨hx.isNumber, hy.isNumber, hx.roundsTo.le hy.roundsTo h⟩

theorem isRounding_zero : IsRounding 0 0 := isRounding_self isNumber_zero

/-- What rounds something that is not negative is not negative. -/
theorem IsRounding.nonneg (hx : IsRounding a x) (ha : 0 ≤ a) : 0 ≤ x := isRounding_zero.le hx ha

/-- What rounds something that is not positive is not positive. -/
theorem IsRounding.nonpos (hx : IsRounding a x) (ha : a ≤ 0) : x ≤ 0 := hx.le isRounding_zero ha

theorem isRounding_add_of_nonneg (hx : 0 ≤ x) (hy : 0 ≤ y) :
    IsRounding (value x + value y) (x + y) := by
  obtain ⟨hx, hvalue⟩ := nonneg_iff_value.mp hx
  obtain ⟨hy, hvalue'⟩ := nonneg_iff_value.mp hy
  have hbot : value x ≠ ⊥ := (EReal.bot_lt_zero.trans_le hvalue).ne'
  have hbot' : value y ≠ ⊥ := (EReal.bot_lt_zero.trans_le hvalue').ne'
  exact isRounding_add hx hy (.inl hbot) (.inr hbot')

/-- A sum of numbers that are not negative is no smaller than the first of them. -/
theorem le_add_right_single (hx : 0 ≤ x) (hy : 0 ≤ y) : x ≤ x + y := by
  obtain ⟨hnumber, -⟩ := nonneg_iff_value.mp hx
  obtain ⟨-, hvalue⟩ := nonneg_iff_value.mp hy
  exact (isRounding_self hnumber).le (isRounding_add_of_nonneg hx hy)
    (le_add_of_nonneg_right hvalue)

/-- A sum of numbers that are not negative is no smaller than the second of them. -/
theorem le_add_left_single (hx : 0 ≤ x) (hy : 0 ≤ y) : y ≤ x + y := by
  obtain ⟨hnumber, -⟩ := nonneg_iff_value.mp hy
  obtain ⟨-, hvalue⟩ := nonneg_iff_value.mp hx
  exact (isRounding_self hnumber).le (isRounding_add_of_nonneg hx hy)
    (le_add_of_nonneg_left hvalue)

/-- A sum of numbers that are not positive is not positive. -/
theorem add_nonpos_single (hx : x ≤ 0) (hy : y ≤ 0) : x + y ≤ 0 := by
  obtain ⟨hx, hvalue⟩ := nonpos_iff_value.mp hx
  obtain ⟨hy, hvalue'⟩ := nonpos_iff_value.mp hy
  have htop : value x ≠ ⊤ := (hvalue.trans_lt EReal.zero_lt_top).ne
  have htop' : value y ≠ ⊤ := (hvalue'.trans_lt EReal.zero_lt_top).ne
  exact (isRounding_add hx hy (.inr htop') (.inl htop)).nonpos (add_nonpos hvalue hvalue')

/-- Adding a greater number to one that is not negative gives a greater sum, infinities included. -/
theorem add_le_add_left_single (hx : 0 ≤ x) (hy : 0 ≤ y) (h : y ≤ y') : x + y ≤ x + y' := by
  obtain ⟨-, -, hvalue⟩ := le_iff_value.mp h
  exact (isRounding_add_of_nonneg hx hy).le
    (isRounding_add_of_nonneg hx (le_trans_single hy h)) (add_le_add le_rfl hvalue)

/-- Sums of ordered numbers that are not infinite at the upper end are ordered. -/
theorem add_le_add_single (h : x ≤ x') (h' : y ≤ y') (htop : value x' ≠ ⊤) (htop' : value y' ≠ ⊤) :
    x + y ≤ x' + y' := by
  obtain ⟨hx, hx', hvalue⟩ := le_iff_value.mp h
  obtain ⟨hy, hy', hvalue'⟩ := le_iff_value.mp h'
  exact (isRounding_add hx hy (.inr (ne_top_of_le h' htop')) (.inl (ne_top_of_le h htop))).le
    (isRounding_add hx' hy' (.inr htop') (.inl htop)) (add_le_add hvalue hvalue')

/-- Taking a larger finite number off a smaller number leaves less. -/
theorem sub_le_sub_single (h : x ≤ x') (h' : y' ≤ y) (hfinite : y.isFinite = true)
    (hfinite' : y'.isFinite = true) : x - y ≤ x' - y' := by
  obtain ⟨hx, hx', hvalue⟩ := le_iff_value.mp h
  obtain ⟨hy', hy, hvalue'⟩ := le_iff_value.mp h'
  obtain ⟨-, hbot, htop⟩ := isFinite_iff_value.mp hfinite
  obtain ⟨-, hbot', htop'⟩ := isFinite_iff_value.mp hfinite'
  exact (isRounding_sub hx hy (.inr hbot) (.inr htop)).le
    (isRounding_sub hx' hy' (.inr hbot') (.inr htop')) (EReal.sub_le_sub hvalue hvalue')

/-- Taking a larger number off a finite number leaves less, infinities included. -/
theorem sub_le_sub_left_single (hfinite : x.isFinite = true) (h : y' ≤ y) : x - y ≤ x - y' := by
  obtain ⟨hy', hy, hvalue⟩ := le_iff_value.mp h
  obtain ⟨hx, hbot, htop⟩ := isFinite_iff_value.mp hfinite
  exact (isRounding_sub hx hy (.inl hbot) (.inl htop)).le
    (isRounding_sub hx hy' (.inl hbot) (.inl htop)) (EReal.sub_le_sub le_rfl hvalue)

/-- A finite number less itself is a zero. -/
theorem sub_self_nonpos (hx : x.isFinite = true) : x - x ≤ 0 := by
  obtain ⟨hnumber, hbot, htop⟩ := isFinite_iff_value.mp hx
  exact (isRounding_sub hnumber hnumber (.inl hbot) (.inl htop)).nonpos
    (EReal.sub_self htop hbot).le

theorem mul_nonneg_single (hx : x.isFinite = true) (hy : y.isFinite = true) (hnonneg : 0 ≤ x)
    (hnonneg' : 0 ≤ y) : 0 ≤ x * y := by
  obtain ⟨-, hvalue⟩ := nonneg_iff_value.mp hnonneg
  obtain ⟨-, hvalue'⟩ := nonneg_iff_value.mp hnonneg'
  exact (isRounding_mul hx hy).nonneg (mul_nonneg hvalue hvalue')

theorem mul_nonpos_single (hx : x.isFinite = true) (hy : y.isFinite = true) (hnonpos : x ≤ 0)
    (hnonneg : 0 ≤ y) : x * y ≤ 0 := by
  obtain ⟨-, hvalue⟩ := nonpos_iff_value.mp hnonpos
  obtain ⟨-, hvalue'⟩ := nonneg_iff_value.mp hnonneg
  exact (isRounding_mul hx hy).nonpos (mul_nonpos_of_nonpos_of_nonneg hvalue hvalue')

theorem mul_le_mul_right_single (hx : x.isFinite = true) (hx' : x'.isFinite = true)
    (hy : y.isFinite = true) (h : x ≤ x') (hnonneg : 0 ≤ y) : x * y ≤ x' * y := by
  obtain ⟨-, -, hvalue⟩ := le_iff_value.mp h
  obtain ⟨-, -, hpos⟩ := le_iff_value.mp hnonneg
  rw [value_zero] at hpos
  exact (isRounding_mul hx hy).le (isRounding_mul hx' hy) (mul_le_mul_of_nonneg_right hvalue hpos)

/-- A product of a positive finite number with one that is not negative is what single precision
makes of the exact one, also if that one is infinite. -/
theorem isRounding_mul_of_pos (hx : x.isFinite = true) (hpos : 0 < x) (hy : 0 ≤ y) :
    IsRounding (value x * value y) (x * y) := by
  obtain ⟨-, -, hvalue⟩ := lt_iff_value.mp hpos
  obtain ⟨hnumber, hvalue'⟩ := nonneg_iff_value.mp hy
  by_cases htop : value y = ⊤
  · exact isRounding_mul_top hx hvalue htop
  · have hfinite : y.isFinite = true :=
      isFinite_iff_value.mpr ⟨hnumber, (EReal.bot_lt_zero.trans_le hvalue').ne', htop⟩
    exact isRounding_mul hx hfinite

theorem mul_nonneg_of_pos (hx : x.isFinite = true) (hpos : 0 < x) (hy : 0 ≤ y) : 0 ≤ x * y := by
  obtain ⟨-, hvalue⟩ := nonneg_iff_value.mp (le_of_lt_single hpos)
  obtain ⟨-, hvalue'⟩ := nonneg_iff_value.mp hy
  exact (isRounding_mul_of_pos hx hpos hy).nonneg (mul_nonneg hvalue hvalue')

/-- Products of greater numbers are greater, if the first of them are positive and finite and the
second ones are not negative, infinities included. -/
theorem mul_le_mul_of_pos (hx : x.isFinite = true) (hx' : x'.isFinite = true) (hpos : 0 < x)
    (h : x ≤ x') (hy : 0 ≤ y) (h' : y ≤ y') : x * y ≤ x' * y' := by
  have hpos' : 0 < x' := lt_of_lt_of_le_single hpos h
  have hy' : 0 ≤ y' := le_trans_single hy h'
  obtain ⟨-, hvalue⟩ := nonneg_iff_value.mp hy
  obtain ⟨-, hvalue'⟩ := nonneg_iff_value.mp (le_of_lt_single hpos')
  obtain ⟨-, -, hle⟩ := le_iff_value.mp h
  obtain ⟨-, -, hle'⟩ := le_iff_value.mp h'
  exact (isRounding_mul_of_pos hx hpos hy).le (isRounding_mul_of_pos hx' hpos' hy')
    (mul_le_mul hle hle' hvalue hvalue')

/-- A product of zero with a finite number is a zero of either sign. -/
theorem zero_mul_single (hx : x.isFinite = true) : 0 ≤ 0 * x ∧ 0 * x ≤ 0 := by
  have hproduct := isRounding_mul (by decide : (0 : Float32).isFinite = true) hx
  rw [value_zero, zero_mul] at hproduct
  exact ⟨hproduct.nonneg le_rfl, hproduct.nonpos le_rfl⟩

theorem div_le_div_right_single (hy : y.isFinite = true) (hpos : 0 < y) (h : x ≤ x') :
    x / y ≤ x' / y := by
  obtain ⟨hx, hx', hvalue⟩ := le_iff_value.mp h
  obtain ⟨-, -, hvalue_pos⟩ := lt_iff_value.mp hpos
  rw [value_zero] at hvalue_pos
  exact (isRounding_div hx hy hvalue_pos).le (isRounding_div hx' hy hvalue_pos)
    (EReal.div_le_div_right_of_nonneg hvalue_pos.le hvalue)

theorem div_nonneg_single (hy : y.isFinite = true) (hpos : 0 < y) (h : 0 ≤ x) : 0 ≤ x / y := by
  obtain ⟨hx, hvalue⟩ := nonneg_iff_value.mp h
  obtain ⟨-, -, hvalue_pos⟩ := lt_iff_value.mp hpos
  rw [value_zero] at hvalue_pos
  exact (isRounding_div hx hy hvalue_pos).nonneg (EReal.div_nonneg hvalue hvalue_pos.le)

theorem div_nonpos_single (hy : y.isFinite = true) (hpos : 0 < y) (h : x ≤ 0) : x / y ≤ 0 := by
  obtain ⟨hx, hvalue⟩ := nonpos_iff_value.mp h
  obtain ⟨-, -, hvalue_pos⟩ := lt_iff_value.mp hpos
  rw [value_zero] at hvalue_pos
  exact (isRounding_div hx hy hvalue_pos).nonpos
    (EReal.div_nonpos_of_nonpos_of_nonneg hvalue hvalue_pos.le)

/-- A quotient of a finite number by a positive one is what single precision makes of the exact
one, also if the divisor is infinite. -/
theorem isRounding_div_of_pos (hx : x.isFinite = true) (hpos : 0 < y) :
    IsRounding (value x / value y) (x / y) := by
  obtain ⟨-, hnumber, hvalue⟩ := lt_iff_value.mp hpos
  rw [value_zero] at hvalue
  by_cases htop : value y = ⊤
  · exact isRounding_div_top hx htop
  · have hfinite : y.isFinite = true :=
      isFinite_iff_value.mpr ⟨hnumber, (EReal.bot_lt_zero.trans hvalue).ne', htop⟩
    exact isRounding_div (isNumber_of_isFinite hx) hfinite hvalue

/-- A quotient by a greater positive number is smaller, also if that is infinite. -/
theorem div_le_div_left_single (hx : x.isFinite = true) (hnonneg : 0 ≤ x) (hpos : 0 < y)
    (h : y ≤ y') : x / y' ≤ x / y := by
  have hpos' := lt_of_lt_of_le_single hpos h
  obtain ⟨-, hvalue⟩ := nonneg_iff_value.mp hnonneg
  obtain ⟨-, -, hy⟩ := lt_iff_value.mp hpos
  obtain ⟨-, -, hy'⟩ := lt_iff_value.mp hpos'
  obtain ⟨-, -, hle⟩ := le_iff_value.mp h
  exact (isRounding_div_of_pos hx hpos').le (isRounding_div_of_pos hx hpos)
    (mul_le_mul_of_nonneg_left (EReal.inv_strictAntiOn.antitoneOn hy hy' hle) hvalue)

end Operations

section Finite

variable {x y z : Float32}

/-- What lies between finite numbers is finite. -/
theorem isFinite_of_le_of_le (hx : x.isFinite = true) (hz : z.isFinite = true) (hxy : x ≤ y)
    (hyz : y ≤ z) : y.isFinite = true := by
  obtain ⟨-, hbot, -⟩ := isFinite_iff_value.mp hx
  obtain ⟨-, -, htop⟩ := isFinite_iff_value.mp hz
  obtain ⟨-, hy, hlower⟩ := le_iff_value.mp hxy
  exact isFinite_iff_value.mpr
    ⟨hy, (hbot.bot_lt.trans_le hlower).ne', ne_top_of_le hyz htop⟩

/-- The exponent of a finite number is at most the largest one: packing would make it infinite
otherwise. -/
theorem exponent_le_of_unpack {sign : Sign} {mantissa : ℕ} {exponent : ℤ} {hpos : 0 < mantissa}
    (h : x.toModel.unpack = .finite sign mantissa exponent hpos) : exponent ≤ 104 := by
  by_contra hlarge
  have hinfinite : (Float32.Model.pack x.toModel.unpack).unpack = .infinity sign := by
    rw [h]
    exact unpack_pack_of_large sign hpos (not_le.mp hlarge)
  rw [pack_unpack_toModel, h] at hinfinite
  cases hinfinite

/-- The value of a finite number is bounded. -/
theorem exists_abs_le (hx : x.isFinite = true) :
    ∃ z : ℝ, value x = z ∧ |z| ≤ magnitude 0xffffff 104 := by
  have hfinite : x.toModel.unpack.isFinite = true := hx
  rw [value]
  cases hunpack : x.toModel.unpack with
  | notANumber | infinity =>
    rw [hunpack] at hfinite
    exact absurd hfinite Bool.false_ne_true
  | zero sign =>
    refine ⟨0, rfl, ?_⟩
    rw [abs_zero]
    exact magnitude_nonneg 0xffffff 104
  | finite sign mantissa exponent hpos =>
    refine ⟨signed sign (magnitude mantissa exponent), rfl, ?_⟩
    have hmantissa : mantissa ≤ 0xffffff := by
      have := (canonical_of_unpack hunpack).cases hpos
      omega
    have hexponent := exponent_le_of_unpack hunpack
    rw [abs_signed, abs_of_nonneg (magnitude_nonneg mantissa exponent), magnitude, magnitude]
    exact mul_le_mul (by exact_mod_cast hmantissa) (zpow_le_zpow_right₀ one_le_two hexponent)
      (two_zpow_pos _).le (Nat.cast_nonneg _)

/-- The largest finite number. -/
def largest : Float32 := .ofModel (.pack (.finite .positive 0xffffff 104 (by decide)))

/-- Every finite number lies between the largest one and its negative. -/
theorem le_largest (hx : x.isFinite = true) : -largest ≤ x ∧ x ≤ largest := by
  have hlargest : IsNumber largest := isNumber_of_isFinite (by decide)
  have hneg : IsNumber (-largest) := isNumber_of_isFinite (by decide)
  have hnumber := isNumber_of_isFinite hx
  have hvalue : value largest = magnitude 0xffffff 104 := rfl
  have hnegValue : value (-largest) = ((-magnitude 0xffffff 104 : ℝ) : EReal) := rfl
  obtain ⟨z, hz, habs⟩ := exists_abs_le hx
  obtain ⟨hlower, hupper⟩ := abs_le.mp habs
  constructor
  · refine le_iff_value.mpr ⟨hneg, hnumber, ?_⟩
    rw [hz, hnegValue]
    exact EReal.coe_le_coe_iff.mpr hlower
  · refine le_iff_value.mpr ⟨hnumber, hlargest, ?_⟩
    rw [hz, hvalue]
    exact EReal.coe_le_coe_iff.mpr hupper

/-- One less a number that is not negative is at most one, infinities included. -/
theorem one_sub_le_one (hx : 0 ≤ x) : 1 - x ≤ 1 := by
  have hle : 1 - x ≤ 1 - 0 := sub_le_sub_left_single (by decide) hx
  rwa [show (1 : Float32) - 0 = 1 by decide] at hle

/-- One less a number that is not positive is at least one, infinities included. -/
theorem one_le_one_sub (hx : x ≤ 0) : 1 ≤ 1 - x := by
  have hle : 1 - 0 ≤ 1 - x := sub_le_sub_left_single (by decide) hx
  rwa [show (1 : Float32) - 0 = 1 by decide] at hle

/-- One less a number that is at most one is not negative. -/
theorem one_sub_nonneg (hx : x ≤ 1) : 0 ≤ 1 - x := by
  have hle : 1 - 1 ≤ 1 - x := sub_le_sub_left_single (by decide) hx
  rwa [show (1 : Float32) - 1 = 0 by decide] at hle

/-- One less a number that is at least one is not positive. -/
theorem one_sub_nonpos (hx : 1 ≤ x) : 1 - x ≤ 0 := by
  have hle : 1 - x ≤ 1 - 1 := sub_le_sub_left_single (by decide) hx
  rwa [show (1 : Float32) - 1 = 0 by decide] at hle

/-- One less a finite number is finite: rounding to the last place takes a one off the largest
number again. -/
theorem isFinite_one_sub (hx : x.isFinite = true) : (1 - x).isFinite = true := by
  obtain ⟨hlower, hupper⟩ := le_largest hx
  have hone : (1 : Float32).isFinite = true := by decide
  have hbelow : 1 - largest ≤ 1 - x := sub_le_sub_left_single hone hupper
  have habove : 1 - x ≤ 1 - -largest := sub_le_sub_left_single hone hlower
  exact isFinite_of_le_of_le (by decide +kernel) (by decide +kernel) hbelow habove

end Finite

end SidVoice.Number
