import SidVoice.Proofs.Number.Value

/-!
# Operations round the exact result

Sum, difference, product and quotient of single-precision numbers are what single precision makes
of the exact result. What would have no result is excluded: a sum of opposite infinities, and with
it the difference of equal ones. A product is taken of finite numbers, or of a positive finite one
with an infinite one. A quotient is taken by a positive number only, which is infinite at most if
the dividend is finite: this is all that the pulldown and its weights do. A whole number that is
converted is rounded as a result is.

Nothing is said about the sign of a zero.
-/

namespace SidVoice.Number

open Float.Model
open Float.Model.UnpackedFloat

section Sums

/-- Lowering the exponent keeps the number. -/
theorem decreaseExponent_fst (mantissa : ℕ) {exponent target : ℤ} (h : target ≤ exponent) :
    ((decreaseExponent mantissa exponent target).1 : ℝ) * 2 ^ target = mantissa * 2 ^ exponent := by
  have hsum : target + (exponent - target).toNat = exponent := by omega
  have hpow : (2 : ℝ) ^ exponent = 2 ^ (exponent - target).toNat * 2 ^ target := by
    rw [← two_zpow_add, hsum]
  rw [decreaseExponent, hpow, Nat.shiftLeft_eq]
  push_cast
  ring

theorem standsFor_add {u v : UnpackedFloat} {x y : ℝ} (hu : StandsFor u x) (hv : StandsFor v y) :
    ∃ z, Rounded (x + y) z ∧ StandsFor (UnpackedFloat.add Format.binary32 u v) z := by
  cases hu with
  | zero sign =>
    cases hv with
    | zero sign' =>
      rw [add_zero, UnpackedFloat.add]
      refine ⟨0, rounded_zero, ?_⟩
      split
      · exact .zero sign
      · exact .zero .positive
    | finite sign' mantissa' exponent' hpos' hcanonical' =>
      have hv := StandsFor.finite sign' mantissa' exponent' hpos' hcanonical'
      rw [zero_add]
      exact ⟨_, hv.rounded, hv⟩
  | finite sign mantissa exponent hpos hcanonical =>
    cases hv with
    | zero sign' =>
      have hu := StandsFor.finite sign mantissa exponent hpos hcanonical
      rw [add_zero]
      exact ⟨_, hu.rounded, hu⟩
    | finite sign' mantissa' exponent' hpos' hcanonical' =>
      set least := min exponent exponent' with hleast
      have hexact : signed sign (mantissa * 2 ^ exponent) +
          signed sign' (mantissa' * 2 ^ exponent') =
          ((sign.apply (decreaseExponent mantissa exponent least).1 +
            sign'.apply (decreaseExponent mantissa' exponent' least).1 : ℤ) : ℝ) * 2 ^ least := by
        rw [← decreaseExponent_fst mantissa (min_le_left exponent exponent'),
          ← decreaseExponent_fst mantissa' (min_le_right exponent exponent'), signed_mul,
          signed_mul, signed_eq_apply, signed_eq_apply, ← hleast]
        push_cast
        ring
      rw [hexact]
      exact standsFor_normalize _ least .positive

theorem delivers_add {u v : UnpackedFloat} {a b : EReal} (hu : Denotes u a) (hv : Denotes v b)
    (hleft : a ≠ ⊥ ∨ b ≠ ⊤) (hright : a ≠ ⊤ ∨ b ≠ ⊥) :
    Delivers (UnpackedFloat.add Format.binary32 u v) (a + b) := by
  cases hu with
  | infinity sign =>
    cases hv with
    | infinity sign' =>
      cases sign <;> cases sign'
      · exact .infinity .negative
      · exact absurd hleft (by simp [infinite])
      · exact absurd hright (by simp [infinite])
      · exact .infinity .positive
    | real hstands =>
      have hsum : ∀ y : ℝ, infinite sign + (y : EReal) = infinite sign := by
        intro y
        cases sign with
        | negative => exact EReal.bot_add _
        | positive => exact EReal.top_add_coe y
      rw [hsum]
      cases hstands <;> exact .infinity sign
  | real hstands =>
    cases hv with
    | infinity sign =>
      have hsum : ∀ x : ℝ, (x : EReal) + infinite sign = infinite sign := by
        intro x
        cases sign with
        | negative => exact EReal.add_bot _
        | positive => exact EReal.coe_add_top x
      rw [hsum]
      cases hstands <;> exact .infinity sign
    | real hstands' =>
      obtain ⟨z, hrounded, hsum⟩ := standsFor_add hstands hstands'
      rw [← EReal.coe_add]
      exact .rounded hrounded hsum

theorem StandsFor.neg {u : UnpackedFloat} {x : ℝ} (h : StandsFor u x) : StandsFor u.neg (-x) := by
  cases h with
  | zero sign =>
    rw [neg_zero]
    exact .zero (-sign)
  | finite sign mantissa exponent hpos hcanonical =>
    have hsign : -signed sign ((mantissa : ℝ) * 2 ^ exponent) =
        signed (-sign) (mantissa * 2 ^ exponent) := by
      cases sign with
      | negative => exact neg_neg _
      | positive => rfl
    rw [hsign]
    exact .finite (-sign) mantissa exponent hpos hcanonical

theorem Denotes.neg {u : UnpackedFloat} {a : EReal} (h : Denotes u a) : Denotes u.neg (-a) := by
  cases h with
  | infinity sign =>
    have hsign : -infinite sign = infinite (-sign) := by
      cases sign with
      | negative => exact EReal.neg_bot
      | positive => exact EReal.neg_top
    rw [hsign]
    exact .infinity (-sign)
  | real hstands =>
    rw [← EReal.coe_neg]
    exact .real hstands.neg

/-- A difference is the sum with the negated number. -/
theorem sub_eq_add_neg_unpacked (u v : UnpackedFloat) :
    UnpackedFloat.sub Format.binary32 u v = UnpackedFloat.add Format.binary32 u v.neg := by
  cases u with
  | notANumber | infinity | zero => cases v <;> rfl
  | finite sign mantissa exponent =>
    cases v with
    | notANumber | infinity | zero => rfl
    | finite sign' mantissa' exponent' =>
      have hsign : ∀ m n : ℤ, sign.apply m - sign'.apply n = sign.apply m + (-sign').apply n := by
        intro m n
        cases sign' with
        | negative => exact sub_neg_eq_add _ n
        | positive => exact sub_eq_add_neg _ n
      exact congrArg (normalize Format.binary32 · (min exponent exponent') .positive) (hsign _ _)

end Sums

section Products

theorem signed_mul_signed (sign sign' : Sign) (x y : ℝ) :
    signed sign x * signed sign' y = signed (sign * sign') (x * y) := by
  cases sign <;> cases sign'
  · exact neg_mul_neg x y
  · exact neg_mul x y
  · exact mul_neg x y
  · rfl

/-- The product of two canonical numbers has at least as many digits as are kept. -/
theorem exponent_mul_le {mantissa mantissa' : ℕ} {exponent exponent' : ℤ} (hpos : 0 < mantissa)
    (hpos' : 0 < mantissa') (h : Canonical Format.binary32 mantissa exponent)
    (h' : Canonical Format.binary32 mantissa' exponent') :
    exponent + exponent' ≤ Format.binary32.targetExponent
      (totalExponent (mantissa * mantissa') (exponent + exponent')) := by
  rw [targetExponent_binary32, totalExponent]
  have hlog : 0x800000 ≤ mantissa * mantissa' → 23 ≤ (mantissa * mantissa').log2 := by
    intro hlong
    exact (Nat.le_log2 (Nat.mul_pos hpos hpos').ne').mpr hlong
  obtain ⟨-, rfl⟩ | ⟨hlong, -, -⟩ := h.cases hpos
  · obtain ⟨-, rfl⟩ | ⟨hlong', -, -⟩ := h'.cases hpos'
    · omega
    · have := hlog (hlong'.trans (Nat.le_mul_of_pos_left mantissa' hpos))
      omega
  · have := hlog (hlong.trans (Nat.le_mul_of_pos_right mantissa hpos'))
    omega

theorem standsFor_mul {u v : UnpackedFloat} {x y : ℝ} (hu : StandsFor u x) (hv : StandsFor v y) :
    ∃ z, Rounded (x * y) z ∧ StandsFor (UnpackedFloat.mul Format.binary32 u v) z := by
  cases hu with
  | zero sign =>
    rw [zero_mul]
    refine ⟨0, rounded_zero, ?_⟩
    cases hv with
    | zero sign' => exact .zero (sign * sign')
    | finite sign' => exact .zero (sign * sign')
  | finite sign mantissa exponent hpos hcanonical =>
    cases hv with
    | zero sign' =>
      rw [mul_zero]
      exact ⟨0, rounded_zero, .zero (sign * sign')⟩
    | finite sign' mantissa' exponent' hpos' hcanonical' =>
      have hexact : signed sign (mantissa * 2 ^ exponent) *
          signed sign' (mantissa' * 2 ^ exponent') =
          signed (sign * sign') ((mantissa * mantissa' : ℕ) * 2 ^ (exponent + exponent')) := by
        rw [signed_mul_signed, zpow_add₀ two_ne_zero]
        congr 1
        push_cast
        ring
      rw [hexact]
      exact standsFor_roundWithAccuracy (truncates_exact _)
        (exponent_mul_le hpos hpos' hcanonical hcanonical') _

end Products

section Quotients

variable {mantissa mantissa' : ℕ} {exponent exponent' : ℤ}

/-- The quotient is worked out to at least as many digits as are kept. -/
theorem exponent_divCore_le (hpos : 0 < mantissa) (hpos' : 0 < mantissa') :
    let quotient := divCore Format.binary32 mantissa exponent mantissa' exponent'
    quotient.2.1 ≤ Format.binary32.targetExponent (totalExponent quotient.1 quotient.2.1) := by
  intro quotient
  set place := quotient.2.1 with hplace
  have hdef : place = min (exponent - exponent')
      (max (totalExponent mantissa exponent - totalExponent mantissa' exponent' - 24) (-149)) := rfl
  set amount := (exponent - exponent' - place).toNat with hamount
  have hquotient : quotient.1 = mantissa * 2 ^ amount / mantissa' := by
    rw [← Nat.shiftLeft_eq]
    rfl
  rw [targetExponent_binary32, totalExponent, hquotient]
  rw [totalExponent, totalExponent] at hdef
  by_cases hleast : place ≤ -149
  · omega
  · have hdigits : 24 + mantissa'.log2 ≤ mantissa.log2 + amount := by omega
    have hlong : 2 ^ 23 ≤ mantissa * 2 ^ amount / mantissa' := by
      rw [Nat.le_div_iff_mul_le hpos']
      calc 2 ^ 23 * mantissa' ≤ 2 ^ 23 * 2 ^ (mantissa'.log2 + 1) :=
            Nat.mul_le_mul_left _ Nat.lt_log2_self.le
        _ = 2 ^ (24 + mantissa'.log2) := by ring
        _ ≤ 2 ^ (mantissa.log2 + amount) := Nat.pow_le_pow_right two_pos hdigits
        _ = 2 ^ mantissa.log2 * 2 ^ amount := pow_add 2 _ _
        _ ≤ mantissa * 2 ^ amount := Nat.mul_le_mul_right _ (Nat.log2_self_le hpos.ne')
    have hlog : 23 ≤ (mantissa * 2 ^ amount / mantissa').log2 :=
      (Nat.le_log2 (by omega)).mpr hlong
    omega

/-- The quotient is cut off at its integer part, and nothing is lost. -/
theorem truncates_divCore (mantissa : ℕ) (exponent exponent' : ℤ) (hpos' : 0 < mantissa') :
    let quotient := divCore Format.binary32 mantissa exponent mantissa' exponent'
    ∃ x : ℝ, Truncates (.ofMantissaAndAccuracy quotient.1 quotient.2.2) x ∧
      x * 2 ^ quotient.2.1 = mantissa * 2 ^ exponent / (mantissa' * 2 ^ exponent') := by
  intro quotient
  set place := quotient.2.1 with hplace
  set amount := (exponent - exponent' - place).toNat with hamount
  have hle : place ≤ exponent - exponent' := min_le_left _ _
  have hdivisor : (mantissa' : ℝ) ≠ 0 := by exact_mod_cast hpos'.ne'
  refine ⟨_, truncates_fraction _ (Nat.mod_lt (mantissa <<< amount) hpos'), ?_⟩
  have hwhole : ((mantissa <<< amount / mantissa' : ℕ) : ℝ) +
      ((mantissa <<< amount % mantissa' : ℕ) : ℝ) / mantissa' =
        (mantissa * 2 ^ amount) / mantissa' := by
    have hdivision := Nat.div_add_mod (mantissa <<< amount) mantissa'
    have hreal : (mantissa' : ℝ) * (mantissa <<< amount / mantissa' : ℕ) +
        (mantissa <<< amount % mantissa' : ℕ) = mantissa * 2 ^ amount := by
      rw [Nat.shiftLeft_eq] at hdivision ⊢
      exact_mod_cast hdivision
    rw [eq_div_iff hdivisor, add_mul, div_mul_cancel₀ _ hdivisor, mul_comm, hreal]
  have hpow : (2 : ℝ) ^ amount * 2 ^ place * 2 ^ exponent' = 2 ^ exponent := by
    rw [← two_zpow_add, ← zpow_add₀ two_ne_zero]
    congr 1
    omega
  have hscale : (2 : ℝ) ^ exponent' ≠ 0 := (two_zpow_pos exponent').ne'
  change (((mantissa <<< amount / mantissa' : ℕ) : ℝ) +
      ((mantissa <<< amount % mantissa' : ℕ) : ℝ) / mantissa') * 2 ^ place = _
  rw [hwhole, ← hpow]
  field_simp

/-- What stands for a positive number is finite and has the positive sign. -/
theorem StandsFor.exists_of_pos {u : UnpackedFloat} {x : ℝ} (h : StandsFor u x) (hx : 0 < x) :
    ∃ (mantissa : ℕ) (exponent : ℤ) (hpos : 0 < mantissa),
      u = .finite .positive mantissa exponent hpos ∧ x = mantissa * 2 ^ exponent := by
  cases h with
  | zero => exact absurd hx (lt_irrefl 0)
  | finite sign mantissa exponent hpos hcanonical =>
    cases sign with
    | negative =>
      exact absurd hx (neg_nonpos.mpr (magnitude_nonneg mantissa exponent)).not_gt
    | positive => exact ⟨mantissa, exponent, hpos, rfl, rfl⟩

theorem standsFor_div {u v : UnpackedFloat} {x y : ℝ} (hu : StandsFor u x) (hv : StandsFor v y)
    (hy : 0 < y) :
    ∃ z, Rounded (x / y) z ∧ StandsFor (UnpackedFloat.div Format.binary32 u v) z := by
  obtain ⟨mantissa', exponent', hpos', rfl, rfl⟩ := hv.exists_of_pos hy
  cases hu with
  | zero sign =>
    rw [zero_div]
    exact ⟨0, rounded_zero, .zero (sign / Sign.positive)⟩
  | finite sign mantissa exponent hpos hcanonical =>
    obtain ⟨x, htruncates, hvalue⟩ := truncates_divCore mantissa exponent exponent' hpos'
    have hexact : signed sign ((mantissa : ℝ) * 2 ^ exponent) / (mantissa' * 2 ^ exponent') =
        signed (sign / Sign.positive)
          (x * 2 ^ (divCore Format.binary32 mantissa exponent mantissa' exponent').2.1) := by
      rw [hvalue]
      cases sign with
      | negative => exact neg_div _ _
      | positive => rfl
    rw [hexact]
    exact standsFor_roundWithAccuracy htruncates (exponent_divCore_le hpos hpos') _

theorem delivers_div {u v : UnpackedFloat} {a : EReal} {y : ℝ} (hu : Denotes u a)
    (hv : StandsFor v y) (hy : 0 < y) :
    Delivers (UnpackedFloat.div Format.binary32 u v) (a / y) := by
  cases hu with
  | infinity sign =>
    obtain ⟨mantissa', exponent', hpos', rfl, -⟩ := hv.exists_of_pos hy
    have hpos : (0 : EReal) < y := EReal.coe_pos.mpr hy
    cases sign with
    | negative =>
      rw [infinite, EReal.bot_div_of_pos_ne_top hpos (EReal.coe_ne_top y)]
      exact .infinity .negative
    | positive =>
      rw [infinite, EReal.top_div_of_pos_ne_top hpos (EReal.coe_ne_top y)]
      exact .infinity .positive
  | real hstands =>
    obtain ⟨z, hrounded, hquotient⟩ := standsFor_div hstands hv hy
    rw [← EReal.coe_div]
    exact .rounded hrounded hquotient

theorem delivers_div_top {u : UnpackedFloat} {x : ℝ} (hu : StandsFor u x) :
    Delivers (UnpackedFloat.div Format.binary32 u (.infinity .positive)) 0 := by
  cases hu <;> exact .rounded rounded_zero (.zero _)

end Quotients

section Words

variable {x y : Float32}

/-- A sum is what single precision makes of the exact one, unless opposite infinities meet. -/
theorem isRounding_add (hx : IsNumber x) (hy : IsNumber y) (hleft : value x ≠ ⊥ ∨ value y ≠ ⊤)
    (hright : value x ≠ ⊤ ∨ value y ≠ ⊥) : IsRounding (value x + value y) (x + y) :=
  (delivers_add (denotes_value hx) (denotes_value hy) hleft hright).isRounding

/-- A difference is what single precision makes of the exact one, unless equal infinities meet. -/
theorem isRounding_sub (hx : IsNumber x) (hy : IsNumber y) (hleft : value x ≠ ⊥ ∨ value y ≠ ⊥)
    (hright : value x ≠ ⊤ ∨ value y ≠ ⊤) : IsRounding (value x - value y) (x - y) := by
  have hdelivers := delivers_add (denotes_value hx) (denotes_value hy).neg
    (hleft.imp_right fun h => by rwa [ne_eq, EReal.neg_eq_top_iff])
    (hright.imp_right fun h => by rwa [ne_eq, EReal.neg_eq_bot_iff])
  rw [← sub_eq_add_neg_unpacked, ← sub_eq_add_neg] at hdelivers
  exact hdelivers.isRounding

/-- A product of finite numbers is what single precision makes of the exact one. -/
theorem isRounding_mul (hx : x.isFinite = true) (hy : y.isFinite = true) :
    IsRounding (value x * value y) (x * y) := by
  obtain ⟨a, hstands, ha⟩ := exists_standsFor hx
  obtain ⟨b, hstands', hb⟩ := exists_standsFor hy
  obtain ⟨z, hrounded, hproduct⟩ := standsFor_mul hstands hstands'
  rw [ha, hb, ← EReal.coe_mul]
  exact (Delivers.rounded hrounded hproduct).isRounding

/-- A product of a positive finite number with the upper end is what single precision makes of the
upper end. -/
theorem isRounding_mul_top (hx : x.isFinite = true) (hpos : 0 < value x) (hy : value y = ⊤) :
    IsRounding (value x * value y) (x * y) := by
  obtain ⟨a, hstands, ha⟩ := exists_standsFor hx
  rw [ha, EReal.coe_pos] at hpos
  obtain ⟨mantissa, exponent, hmantissa, hunpack, -⟩ := hstands.exists_of_pos hpos
  have hdelivers : Delivers (UnpackedFloat.mul .binary32 x.toModel.unpack y.toModel.unpack) ⊤ := by
    rw [hunpack, unpack_eq_infinity hy]
    exact .infinity .positive
  rw [hy, ha, EReal.coe_mul_top_of_pos hpos]
  exact hdelivers.isRounding

/-- A quotient by a positive finite number is what single precision makes of the exact one. -/
theorem isRounding_div (hx : IsNumber x) (hy : y.isFinite = true) (hpos : 0 < value y) :
    IsRounding (value x / value y) (x / y) := by
  obtain ⟨b, hstands, hb⟩ := exists_standsFor hy
  rw [hb] at hpos ⊢
  exact (delivers_div (denotes_value hx) hstands (EReal.coe_pos.mp hpos)).isRounding

/-- A quotient of a finite number by the upper end is what single precision makes of zero. -/
theorem isRounding_div_top (hx : x.isFinite = true) (hy : value y = ⊤) :
    IsRounding (value x / value y) (x / y) := by
  obtain ⟨a, hstands, -⟩ := exists_standsFor hx
  have hquotient := (delivers_div_top hstands).isRounding
  rw [← unpack_eq_infinity hy] at hquotient
  rw [hy, EReal.div_top]
  exact hquotient

/-- A whole number is converted to what single precision makes of it. -/
theorem isRounding_toFloat32 (n : UInt32) : IsRounding (n.toNat : ℝ) n.toFloat32 := by
  obtain ⟨z, hrounded, hstands⟩ := standsFor_normalize n.toNat 0 .positive
  rw [zpow_zero, mul_one, Int.cast_natCast] at hrounded
  exact (Delivers.rounded hrounded hstands).isRounding

end Words

end SidVoice.Number
