import SidVoice.Proofs.Number.Rounding
import SidVoice.Proofs.Number.Single

/-!
# Normalizing rounds to the nearest

The exact result of an operation is held as a mantissa with two further digits, the first digit
that was cut off and whether there is anything behind it. Cutting off more digits keeps these two
faithful, so that the mantissa taken at the last place is an integer nearest to the exact result.
If it has grown by a digit it is halved once more, which loses nothing.

The result is a zero or a canonical number, which may still be too large for single precision.
-/

namespace SidVoice.Number

open Float.Model
open Float.Model.UnpackedFloat

/-- The extended mantissa is the real number, cut off at the unit: its first digit behind the unit
counts a half, and what is behind that is less than a half. -/
inductive Truncates (extended : ExtendedMantissa) (x : ℝ) : Prop
  | intro (rest : ℝ) (nonneg : 0 ≤ rest) (lt_half : rest < 1 / 2)
      (sticky : extended.stickyBit = true ↔ 0 < rest)
      (eq : x = extended.mantissa + extended.roundBit.toNat / 2 + rest)

section Truncation

variable {extended : ExtendedMantissa} {x : ℝ}

theorem toNat_le_one (digit : Bool) : (digit.toNat : ℝ) ≤ 1 := by
  exact_mod_cast Bool.toNat_le digit

theorem Truncates.le (h : Truncates extended x) : (extended.mantissa : ℝ) ≤ x := by
  obtain ⟨rest, hrest, -, -, rfl⟩ := h
  have hdigit : (0 : ℝ) ≤ extended.roundBit.toNat := Nat.cast_nonneg _
  linarith

theorem Truncates.lt_add_one (h : Truncates extended x) : x < extended.mantissa + 1 := by
  obtain ⟨rest, -, hrest, -, rfl⟩ := h
  have hdigit := toNat_le_one extended.roundBit
  linarith

/-- Cutting off one more digit of a cut-off number cuts off its half. -/
theorem Truncates.shiftRightOne (h : Truncates extended x) :
    Truncates extended.shiftRightOne (x / 2) := by
  obtain ⟨rest, hnonneg, hlt, hsticky, rfl⟩ := h
  have hdigit : (0 : ℝ) ≤ extended.roundBit.toNat := Nat.cast_nonneg _
  have hdigitLe := toNat_le_one extended.roundBit
  have hlast : (extended.mantissa : ℝ) / 2 =
      extended.shiftRightOne.mantissa + extended.shiftRightOne.roundBit.toNat / 2 := by
    have hround : (extended.mantissa % 2 != 0).toNat = extended.mantissa % 2 := by
      obtain heven | hodd := Nat.mod_two_eq_zero_or_one extended.mantissa
      · rw [heven]
        rfl
      · rw [hodd]
        rfl
    have hdivision : (extended.mantissa : ℝ) =
        2 * ((extended.mantissa / 2 : ℕ) : ℝ) + ((extended.mantissa % 2 : ℕ) : ℝ) := by
      exact_mod_cast (Nat.div_add_mod extended.mantissa 2).symm
    change _ = ((extended.mantissa / 2 : ℕ) : ℝ) + (extended.mantissa % 2 != 0).toNat / 2
    rw [hround]
    linarith
  refine ⟨(extended.roundBit.toNat / 2 + rest) / 2, by linarith, by linarith, ?_, by linarith⟩
  change (extended.roundBit || extended.stickyBit) = true ↔ _
  rw [Bool.or_eq_true, hsticky]
  cases hround : extended.roundBit with
  | false => simp
  | true => simpa using by linarith

theorem Truncates.shiftRight (h : Truncates extended x) (n : ℕ) :
    Truncates (extended >>> n) (x / 2 ^ n) := by
  induction n with
  | zero =>
    rw [pow_zero, div_one]
    exact h
  | succ n ih =>
    rw [pow_succ, ← div_div]
    exact ih.shiftRightOne

/-- The rounded mantissa of a cut-off number is an integer nearest to it. -/
theorem Truncates.nearest (h : Truncates extended x) : Nearest x extended.roundedMantissa := by
  obtain ⟨mantissa, roundBit, stickyBit⟩ := extended
  obtain ⟨rest, hnonneg, hlt, hsticky, rfl⟩ := h
  cases roundBit with
  | false =>
    have hrounded : ExtendedMantissa.roundedMantissa ⟨mantissa, false, stickyBit⟩ = mantissa := by
      cases stickyBit <;> rfl
    left
    rw [hrounded]
    simpa [abs_of_nonneg hnonneg] using hlt
  | true =>
    cases stickyBit with
    | true =>
      have hpos : 0 < rest := hsticky.mp rfl
      have hrounded : ExtendedMantissa.roundedMantissa ⟨mantissa, true, true⟩ = mantissa + 1 := rfl
      left
      rw [hrounded, abs_lt]
      push_cast
      constructor <;> simp <;> linarith
    | false =>
      have hzero : rest = 0 := by
        have hnot : ¬ 0 < rest := fun hpos => Bool.false_ne_true (hsticky.mpr hpos)
        linarith
      have hrounded : ExtendedMantissa.roundedMantissa ⟨mantissa, true, false⟩ =
          mantissa + mantissa % 2 := rfl
      -- a tie goes to the even neighbour
      right
      rw [hrounded, hzero]
      obtain heven | hodd := Nat.mod_two_eq_zero_or_one mantissa
      · rw [heven]
        refine ⟨by norm_num, ?_⟩
        rw [Int.even_coe_nat, Nat.even_iff]
        omega
      · rw [hodd]
        refine ⟨by push_cast; norm_num, ?_⟩
        rw [Int.even_coe_nat, Nat.even_iff]
        omega

theorem truncates_exact (mantissa : ℕ) :
    Truncates (.ofMantissaAndAccuracy mantissa .exact) mantissa :=
  ⟨0, le_rfl, by norm_num, by simp [ExtendedMantissa.ofMantissaAndAccuracy],
    by simp [ExtendedMantissa.ofMantissaAndAccuracy]⟩

/-- A quotient is cut off at its integer part if the accuracy is that of the remainder. -/
theorem truncates_fraction (mantissa : ℕ) {remainder divisor : ℕ} (h : remainder < divisor) :
    Truncates (.ofMantissaAndAccuracy mantissa (accuracyOfFraction remainder divisor))
      (mantissa + remainder / divisor) := by
  have hdivisor : (0 : ℝ) < divisor := by exact_mod_cast Nat.zero_lt_of_lt h
  have hfraction : (remainder : ℝ) / divisor < 1 := by
    rw [div_lt_one hdivisor]
    exact_mod_cast h
  rw [accuracyOfFraction]
  by_cases hzero : remainder = 0
  · rw [if_pos hzero, hzero, Nat.cast_zero, zero_div, add_zero]
    exact truncates_exact mantissa
  rw [if_neg hzero]
  have hpos : (0 : ℝ) < remainder / divisor :=
    div_pos (by exact_mod_cast Nat.pos_of_ne_zero hzero) hdivisor
  rcases hcompare : compare (2 * remainder) divisor with _ | _ | _
  · have hless : 2 * remainder < divisor := Nat.compare_eq_lt.mp hcompare
    have hhalf : (remainder : ℝ) / divisor < 1 / 2 := by
      rw [div_lt_div_iff₀ hdivisor two_pos]
      exact_mod_cast (by omega : remainder * 2 < 1 * divisor)
    exact ⟨remainder / divisor, hpos.le, hhalf,
      by simpa [ExtendedMantissa.ofMantissaAndAccuracy] using hpos,
      by simp [ExtendedMantissa.ofMantissaAndAccuracy]⟩
  · have hequal : 2 * remainder = divisor := Nat.compare_eq_eq.mp hcompare
    have hhalf : (remainder : ℝ) / divisor = 1 / 2 := by
      rw [div_eq_div_iff hdivisor.ne' two_ne_zero]
      exact_mod_cast (by omega : remainder * 2 = 1 * divisor)
    rw [hhalf]
    exact ⟨0, le_rfl, by norm_num, by simp [ExtendedMantissa.ofMantissaAndAccuracy],
      by simp [ExtendedMantissa.ofMantissaAndAccuracy]⟩
  · have hgreater : divisor < 2 * remainder := Nat.compare_eq_gt.mp hcompare
    have hhalf : 1 / 2 < (remainder : ℝ) / divisor := by
      rw [div_lt_div_iff₀ two_pos hdivisor]
      exact_mod_cast (by omega : 1 * divisor < remainder * 2)
    refine ⟨remainder / divisor - 1 / 2, by linarith, by linarith, ?_, ?_⟩
    · simp only [ExtendedMantissa.ofMantissaAndAccuracy, true_iff]
      linarith
    · simp only [ExtendedMantissa.ofMantissaAndAccuracy, Bool.toNat_true, Nat.cast_one]
      ring

end Truncation

section Canonical

variable {mantissa : ℕ} {exponent : ℤ}

/-- The last place of a number whose integer part is the mantissa. -/
theorem lastPlace_targetExponent {x : ℝ} (hle : (mantissa : ℝ) ≤ x) (hlt : x < mantissa + 1)
    (hexponent : exponent ≤ Format.binary32.targetExponent (totalExponent mantissa exponent)) :
    LastPlace (Format.binary32.targetExponent (totalExponent mantissa exponent))
      (x * 2 ^ exponent) := by
  have hpos := two_zpow_pos exponent
  have hx : 0 ≤ x := (Nat.cast_nonneg mantissa).trans hle
  rw [targetExponent_binary32, totalExponent] at hexponent ⊢
  have hupper : x < 2 ^ (mantissa.log2 + 1) := by
    have hnext : mantissa + 1 ≤ 2 ^ (mantissa.log2 + 1) := Nat.lt_log2_self
    have hnext : (mantissa : ℝ) + 1 ≤ 2 ^ (mantissa.log2 + 1) := by exact_mod_cast hnext
    exact hlt.trans_le hnext
  refine ⟨le_max_right _ _, ?_, ?_⟩
  · rw [abs_of_nonneg (mul_nonneg hx hpos.le)]
    calc x * 2 ^ exponent < 2 ^ (mantissa.log2 + 1) * 2 ^ exponent :=
          mul_lt_mul_of_pos_right hupper hpos
      _ = 2 ^ (exponent + (mantissa.log2 + 1 : ℕ)) := (two_zpow_add exponent _).symm
      _ ≤ _ := zpow_le_zpow_right₀ one_le_two (by omega)
  · intro hleast
    have hnonzero : mantissa ≠ 0 := by
      rintro rfl
      rw [Nat.log2_zero] at hexponent hleast
      omega
    have hlower : (2 : ℝ) ^ mantissa.log2 ≤ x := by
      have hfirst : (2 : ℝ) ^ mantissa.log2 ≤ mantissa := by
        exact_mod_cast Nat.log2_self_le hnonzero
      exact hfirst.trans hle
    rw [abs_of_nonneg (mul_nonneg hx hpos.le)]
    calc (2 : ℝ) ^ (_ : ℤ) ≤ 2 ^ (exponent + (mantissa.log2 : ℕ)) :=
          zpow_le_zpow_right₀ one_le_two (by omega)
      _ = 2 ^ mantissa.log2 * 2 ^ exponent := two_zpow_add exponent _
      _ ≤ x * 2 ^ exponent := mul_le_mul_of_nonneg_right hlower hpos.le

/-- The last place of a canonical number is its exponent. -/
theorem Canonical.lastPlace (h : Canonical Format.binary32 mantissa exponent) :
    LastPlace exponent (mantissa * 2 ^ exponent) := by
  have hplace := lastPlace_targetExponent (le_refl (mantissa : ℝ)) (lt_add_one _) h.ge
  rwa [h] at hplace

end Canonical

/-- The real number with a sign and a magnitude. -/
def signed (sign : Sign) (x : ℝ) : ℝ :=
  match sign with
  | .negative => -x
  | .positive => x

theorem signed_eq_apply (sign : Sign) (mantissa : ℕ) :
    signed sign (mantissa : ℝ) = (sign.apply mantissa : ℤ) := by
  cases sign <;> simp [signed, Sign.apply]

theorem signed_mul (sign : Sign) (x y : ℝ) : signed sign (x * y) = signed sign x * y := by
  cases sign <;> simp [signed]

theorem abs_signed (sign : Sign) (x : ℝ) : |signed sign x| = |x| := by
  cases sign with
  | negative => exact abs_neg x
  | positive => rfl

/-- A zero or a canonical number that stands for the real number. -/
inductive StandsFor : UnpackedFloat → ℝ → Prop
  | zero (sign : Sign) : StandsFor (.zero sign) 0
  | finite (sign : Sign) (mantissa : ℕ) (exponent : ℤ) (hpos : 0 < mantissa)
      (h : Canonical Format.binary32 mantissa exponent) :
      StandsFor (.finite sign mantissa exponent hpos) (signed sign (mantissa * 2 ^ exponent))

section Rounding

variable {mantissa : ℕ} {exponent : ℤ} {accuracy : Accuracy}

/-- Shifting to a higher exponent cuts off as many digits. -/
theorem shiftToExponent_of_le {target : ℤ} (h : exponent ≤ target) :
    shiftToExponent mantissa exponent accuracy target =
      (ExtendedMantissa.ofMantissaAndAccuracy mantissa accuracy >>> (target - exponent).toNat,
        target) := by
  have hexponent : exponent + ((target - exponent).toNat : ℤ) = target := by omega
  rw [shiftToExponent, hexponent]

/-- A mantissa of at most twenty-four digits is not shifted. -/
theorem shift_of_lt {place : ℤ} (hleast : -149 ≤ place) (hlt : mantissa < 0x1000000) :
    shiftToTargetExponent Format.binary32 mantissa place .exact =
      (⟨mantissa, false, false⟩, place) := by
  have hlog : mantissa.log2 < 24 := by
    by_cases hzero : mantissa = 0
    · rw [hzero, Nat.log2_zero]
      norm_num
    · exact (Nat.log2_lt hzero).mpr hlt
  have htarget : (max ((mantissa.log2 : ℤ) + 1 + place - 24) (-149) - place).toNat = 0 := by omega
  rw [shiftToTargetExponent, targetExponent_binary32, totalExponent, shiftToExponent, htarget]
  exact congrArg (_, ·) (Int.add_zero place)

/-- A mantissa that has grown to twenty-five digits is halved. -/
theorem shift_of_grown {place : ℤ} (hleast : -149 ≤ place) :
    shiftToTargetExponent Format.binary32 0x1000000 place .exact =
      (⟨0x800000, false, false⟩, place + 1) := by
  have hlog : (0x1000000 : ℕ).log2 = 24 := by rw [Nat.log2_eq_iff (by norm_num)]; norm_num
  have htarget : (max ((24 : ℕ) + 1 + place - 24) (-149) - place).toNat = 1 := by omega
  rw [shiftToTargetExponent, targetExponent_binary32, totalExponent, hlog, shiftToExponent, htarget]
  rfl

/-- The rest of a rounding, once the mantissa has been rounded at the last place. -/
theorem standsFor_of_rounded {place : ℤ} (hleast : -149 ≤ place) (hle : mantissa ≤ 0x1000000)
    (hge : place ≠ -149 → 0x800000 ≤ mantissa) (sign : Sign) :
    let shifted := shiftToTargetExponent Format.binary32 mantissa place .exact
    StandsFor
      (if h : shifted.1.mantissa = 0 then .zero sign
        else .finite sign shifted.1.mantissa shifted.2 (Nat.pos_of_ne_zero h))
      (signed sign (mantissa * 2 ^ place)) := by
  obtain hlt | rfl := hle.lt_or_eq
  · rw [shift_of_lt hleast hlt]
    by_cases hzero : mantissa = 0
    · have hvalue : signed sign ((mantissa : ℝ) * 2 ^ place) = 0 := by
        cases sign <;> simp [hzero, signed]
      rw [hvalue]
      simpa [hzero] using StandsFor.zero sign
    · have hpos := Nat.pos_of_ne_zero hzero
      simp only [dif_neg hzero]
      refine .finite sign mantissa place hpos ?_
      by_cases hplace : place = -149
      · obtain hshort | hlong := Nat.lt_or_ge mantissa 0x800000
        · exact hplace ▸ canonical_of_lt hpos hshort
        · exact canonical_of_le hlong hlt hleast
      · exact canonical_of_le (hge hplace) hlt hleast
  · rw [shift_of_grown hleast]
    have hvalue : ((0x1000000 : ℕ) : ℝ) * 2 ^ place = (0x800000 : ℕ) * 2 ^ (place + 1) := by
      rw [zpow_add_one₀ two_ne_zero]
      push_cast
      ring
    rw [hvalue]
    exact .finite sign 0x800000 (place + 1) (by norm_num)
      (canonical_of_le le_rfl (by norm_num) (by omega))

theorem mantissa_ofMantissaAndAccuracy (mantissa : ℕ) (accuracy : Accuracy) :
    (ExtendedMantissa.ofMantissaAndAccuracy mantissa accuracy).mantissa = mantissa := by
  rcases accuracy with _ | (_ | _ | _) <;> rfl

/-- Rounding gives a zero or a canonical number, which stands for the exact number, rounded. The
exponent must not exceed the last place, which would have to be filled up first. -/
theorem standsFor_roundWithAccuracy {x : ℝ}
    (hx : Truncates (.ofMantissaAndAccuracy mantissa accuracy) x)
    (hexponent : exponent ≤ Format.binary32.targetExponent (totalExponent mantissa exponent))
    (sign : Sign) :
    ∃ z, Rounded (signed sign (x * 2 ^ exponent)) z ∧
      StandsFor (roundWithAccuracy Format.binary32 sign mantissa exponent accuracy) z := by
  have hle := hx.le
  have hlt := hx.lt_add_one
  rw [mantissa_ofMantissaAndAccuracy] at hle hlt
  have hplace := lastPlace_targetExponent hle hlt hexponent
  have hnonneg : 0 ≤ x * 2 ^ exponent :=
    mul_nonneg ((Nat.cast_nonneg mantissa).trans hle) (two_zpow_pos exponent).le
  set place := Format.binary32.targetExponent (totalExponent mantissa exponent) with hdef
  set extended := ExtendedMantissa.ofMantissaAndAccuracy mantissa accuracy >>>
    (place - exponent).toNat with hextended
  have hnearest : Nearest (x * 2 ^ exponent / 2 ^ place) extended.roundedMantissa := by
    have hscale : x * 2 ^ exponent / 2 ^ place = x / 2 ^ (place - exponent).toNat := by
      have hsum : exponent + (place - exponent).toNat = place := by omega
      have hpow : (2 : ℝ) ^ place = 2 ^ (place - exponent).toNat * 2 ^ exponent := by
        rw [← two_zpow_add, hsum]
      rw [hpow, mul_div_mul_right _ _ (two_zpow_pos exponent).ne']
    rw [hscale]
    exact (hx.shiftRight _).nearest
  refine ⟨signed sign (extended.roundedMantissa * 2 ^ place), ?_, ?_⟩
  · have hrounded : Rounded (x * 2 ^ exponent) (extended.roundedMantissa * 2 ^ place) :=
      ⟨place, extended.roundedMantissa, hplace, hnearest, by push_cast; rfl⟩
    cases sign with
    | negative => exact hrounded.neg
    | positive => exact hrounded
  · have hupper := hplace.nearest_le hnearest
    have hlower := fun hleast => hplace.le_nearest hleast hnonneg hnearest
    have hfirst : shiftToTargetExponent Format.binary32 mantissa exponent accuracy =
        (extended, place) := by
      rw [shiftToTargetExponent, ← hdef, shiftToExponent_of_le hexponent]
    rw [roundWithAccuracy, hfirst]
    exact standsFor_of_rounded hplace.least (by exact_mod_cast hupper)
      (fun hleast => by exact_mod_cast hlower hleast) sign

/-- The same, with the mantissa filled up to the last place first. -/
theorem standsFor_round (hpos : 0 < mantissa) (exponent : ℤ) (sign : Sign) :
    ∃ z, Rounded (signed sign (mantissa * 2 ^ exponent)) z ∧
      StandsFor (round Format.binary32 sign mantissa exponent) z := by
  set place := Format.binary32.targetExponent (totalExponent mantissa exponent) with hplace
  set amount := (exponent - place).toNat with hamount
  have hshifted : mantissa <<< amount = 2 ^ amount * mantissa := by
    rw [Nat.shiftLeft_eq, Nat.mul_comm]
  have htotal : totalExponent (2 ^ amount * mantissa) (exponent - amount) =
      totalExponent mantissa exponent := by
    rw [totalExponent, totalExponent, log2_two_pow_mul hpos]
    omega
  have hexponent : exponent - amount ≤
      Format.binary32.targetExponent
        (totalExponent (2 ^ amount * mantissa) (exponent - amount)) := by
    rw [htotal, ← hplace]
    omega
  have hvalue : ((2 ^ amount * mantissa : ℕ) : ℝ) * 2 ^ (exponent - amount) =
      mantissa * 2 ^ exponent := by
    have hsum : exponent - amount + amount = exponent := by omega
    have hpow : (2 : ℝ) ^ exponent = 2 ^ amount * 2 ^ (exponent - amount) := by
      rw [← two_zpow_add, hsum]
    rw [hpow]
    push_cast
    ring
  have hround : round Format.binary32 sign mantissa exponent =
      roundWithAccuracy Format.binary32 sign (2 ^ amount * mantissa) (exponent - amount)
        .exact := by
    rw [UnpackedFloat.round, decreaseExponent, ← hplace, ← hamount, hshifted]
  rw [← hvalue, hround]
  exact standsFor_roundWithAccuracy (truncates_exact _) hexponent sign

theorem standsFor_normalize (mantissa exponent : ℤ) (zeroSign : Sign) :
    ∃ z, Rounded (mantissa * 2 ^ exponent) z ∧
      StandsFor (normalize Format.binary32 mantissa exponent zeroSign) z := by
  rw [UnpackedFloat.normalize]
  rcases hcompare : compare mantissa 0 with _ | _ | _
  · have hneg : mantissa < 0 := Int.compare_eq_lt.mp hcompare
    have hvalue : (mantissa : ℝ) * 2 ^ exponent =
        signed .negative (((-mantissa).toNat : ℕ) * 2 ^ exponent) := by
      have hcast : (((-mantissa).toNat : ℕ) : ℝ) = -mantissa := by
        exact_mod_cast Int.toNat_of_nonneg (by omega : 0 ≤ -mantissa)
      rw [hcast, signed]
      ring
    rw [hvalue]
    exact standsFor_round (by omega) exponent .negative
  · have hzero : mantissa = 0 := Int.compare_eq_eq.mp hcompare
    refine ⟨0, ?_, .zero zeroSign⟩
    rw [hzero, Int.cast_zero, zero_mul]
    exact rounded_zero
  · have hpos : 0 < mantissa := Int.compare_eq_gt.mp hcompare
    have hvalue : (mantissa : ℝ) * 2 ^ exponent =
        signed .positive ((mantissa.toNat : ℕ) * 2 ^ exponent) := by
      have hcast : ((mantissa.toNat : ℕ) : ℝ) = mantissa := by
        exact_mod_cast Int.toNat_of_nonneg hpos.le
      rw [hcast, signed]
    rw [hvalue]
    exact standsFor_round (by omega) exponent .positive

end Rounding

end SidVoice.Number
