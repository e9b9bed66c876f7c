import Mathlib

/-!
# Single-precision numbers

A single-precision number is worked with in unpacked form: a sign, a mantissa and an exponent.
The unpacked form of a number is canonical, so packing it again gives the number back, and a
product that is off by a power of two only is rounded back to it without loss.

From this follow the laws of multiplication that hold for every number: one is neutral, also for
infinities and for what is not a number, the factors may change places, and a product with zero is
never positive.
-/

namespace SidVoice.Number

open Float.Model
open Float.Model.UnpackedFloat

section Rounding

variable {spec : Format} {mantissa : Nat} {exponent : Int}

/-- Shifting out as many digits as are zero at the end loses nothing. -/
theorem shiftRight_two_pow_mul (mantissa n : Nat) :
    (⟨2 ^ n * mantissa, false, false⟩ : ExtendedMantissa) >>> n = ⟨mantissa, false, false⟩ := by
  induction n generalizing mantissa with
  | zero =>
    rw [Nat.pow_zero, Nat.one_mul]
    rfl
  | succ n ih =>
    have hdouble : 2 ^ (n + 1) * mantissa = 2 ^ n * (2 * mantissa) := by
      rw [Nat.pow_succ, Nat.mul_assoc]
    change ((⟨2 ^ (n + 1) * mantissa, false, false⟩ : ExtendedMantissa) >>> n).shiftRightOne = _
    rw [hdouble, ih]
    simp [ExtendedMantissa.shiftRightOne]

theorem log2_two_pow_mul {mantissa : Nat} (hpos : 0 < mantissa) (n : Nat) :
    (2 ^ n * mantissa).log2 = n + mantissa.log2 := by
  induction n with
  | zero => simp
  | succ n ih =>
    have hne : 2 ^ n * mantissa ≠ 0 := Nat.ne_of_gt (Nat.mul_pos (Nat.two_pow_pos n) hpos)
    have hdouble : 2 ^ (n + 1) * mantissa = 2 * (2 ^ n * mantissa) := by
      rw [Nat.pow_succ, Nat.mul_comm (2 ^ n), Nat.mul_assoc]
    rw [hdouble, Nat.log2_two_mul hne, ih]
    omega

/-- A mantissa and exponent that already have the exponent of their format. -/
def Canonical (spec : Format) (mantissa : Nat) (exponent : Int) : Prop :=
  spec.targetExponent (totalExponent mantissa exponent) = exponent

/-- Rounding a canonical number that has been scaled up by a power of two gives the number. -/
theorem roundWithAccuracy_two_pow_mul (h : Canonical spec mantissa exponent)
    (hpos : 0 < mantissa) (sign : Sign) (n : Nat) :
    roundWithAccuracy spec sign (2 ^ n * mantissa) (exponent - n) .exact =
      .finite sign mantissa exponent hpos := by
  have htotal : totalExponent (2 ^ n * mantissa) (exponent - n) =
      totalExponent mantissa exponent := by
    rw [totalExponent, totalExponent, log2_two_pow_mul hpos]
    omega
  have hfirst : shiftToTargetExponent spec (2 ^ n * mantissa) (exponent - n) .exact =
      (⟨mantissa, false, false⟩, exponent) := by
    have hamount : (exponent - (exponent - n)).toNat = n := by omega
    have hexponent : exponent - n + (n : Int) = exponent := by omega
    rw [shiftToTargetExponent, htotal, h, shiftToExponent, hamount, hexponent]
    exact congrArg (·, exponent) (shiftRight_two_pow_mul mantissa n)
  -- the rounded mantissa has not grown, so the second shift does nothing
  have hsecond : shiftToTargetExponent spec mantissa exponent .exact =
      (⟨mantissa, false, false⟩, exponent) := by
    rw [shiftToTargetExponent, h, shiftToExponent, Int.sub_self]
    exact congrArg (_, ·) (Int.add_zero exponent)
  rw [roundWithAccuracy, hfirst]
  have hrounded : ExtendedMantissa.roundedMantissa ⟨mantissa, false, false⟩ = mantissa := rfl
  simp only [hrounded, hsecond]
  rw [dif_neg (Nat.ne_of_gt hpos)]

end Rounding

section Packing

/-- A single-precision word consists of its sign, its exponent and its mantissa. -/
theorem packComponents_unpack (bits : BitVec Format.binary32.numBits) :
    packComponents Format.binary32 (Sign.ofBitVec (unpackSign bits)) (unpackExponent bits)
      (unpackMantissa bits) = bits := by
  have hsign : (Sign.ofBitVec (unpackSign bits)).toBitVec = unpackSign bits := by
    have hcases : ∀ b : BitVec 1, (Sign.ofBitVec b).toBitVec = b := by decide
    exact hcases _
  rw [packComponents, hsign]
  apply BitVec.eq_of_getLsbD_eq
  intro i hi
  simp only [unpackSign, unpackExponent, unpackMantissa, BitVec.getLsbD_append,
    BitVec.getLsbD_cast, BitVec.getLsbD_extractLsb]
  by_cases hmantissa : i < 23
  · simp [hmantissa]
  · by_cases hexponent : i - 23 < 8
    · have hat : 23 + (i - 23) = i := by omega
      simp [hmantissa, hexponent, hat]
    · have hlast : i = 31 := by
        have : i < 32 := hi
        omega
      subst hlast
      rfl

theorem targetExponent_binary32 (total : Int) :
    Format.binary32.targetExponent total = max (total - 24) (-149) := rfl

variable {mantissa : Nat}

theorem log2_lt_of_lt (hpos : 0 < mantissa) (hlt : mantissa < 0x800000) : mantissa.log2 < 23 :=
  (Nat.log2_lt (Nat.ne_of_gt hpos)).mpr hlt

theorem log2_of_lt (hge : 0x800000 ≤ mantissa) (hlt : mantissa < 0x1000000) :
    mantissa.log2 = 23 := by
  rw [Nat.log2_eq_iff (by omega)]
  exact ⟨hge, hlt⟩

/-- A mantissa without the leading digit is canonical at the least exponent. -/
theorem canonical_of_lt (hpos : 0 < mantissa) (hlt : mantissa < 0x800000) :
    Canonical Format.binary32 mantissa (-149) := by
  have hlog := log2_lt_of_lt hpos hlt
  rw [Canonical, targetExponent_binary32, totalExponent]
  omega

/-- A mantissa with the leading digit is canonical at every exponent of the format. -/
theorem canonical_of_le (hge : 0x800000 ≤ mantissa) (hlt : mantissa < 0x1000000)
    {exponent : Int} (hexponent : -149 ≤ exponent) :
    Canonical Format.binary32 mantissa exponent := by
  rw [Canonical, targetExponent_binary32, totalExponent, log2_of_lt hge hlt]
  omega

theorem pack_of_lt (sign : Sign) (hpos : 0 < mantissa) (hlt : mantissa < 0x800000) :
    UnpackedFloat.pack Format.binary32 (.finite sign mantissa (-149) hpos) =
      packComponents Format.binary32 sign 0 (BitVec.ofNat 23 mantissa) := by
  have hlog := log2_lt_of_lt hpos hlt
  have hleast : ¬ 2 ^ Format.binary32.exponentBits ≤ ((-149 : Int) + Format.binary32.exponentBias +
      Format.binary32.mantissaBitsWithoutImplicit).toNat + 1 := by decide
  have hshort : ¬ mantissa.log2 + 1 = Format.binary32.mantissaBits := by
    change ¬ mantissa.log2 + 1 = 24
    omega
  rw [UnpackedFloat.pack]
  simp only [hleast, hshort, if_false]
  rfl

theorem pack_of_le (sign : Sign) (hpos : 0 < mantissa) (hge : 0x800000 ≤ mantissa)
    (hlt : mantissa < 0x1000000) {field : Nat} (hfield : field < 255) :
    UnpackedFloat.pack Format.binary32 (.finite sign mantissa (field - 150) hpos) =
      packComponents Format.binary32 sign (BitVec.ofNat 8 field) (BitVec.ofNat 23 mantissa) := by
  have hbiased : ((field : Int) - 150 + Format.binary32.exponentBias +
      Format.binary32.mantissaBitsWithoutImplicit).toNat = field := by
    change ((field : Int) - 150 + 127 + 23).toNat = field
    omega
  have hfits : ¬ 2 ^ Format.binary32.exponentBits ≤ field + 1 := by
    change ¬ 256 ≤ field + 1
    omega
  have hlong : mantissa.log2 + 1 = Format.binary32.mantissaBits := by
    rw [log2_of_lt hge hlt]
    rfl
  rw [UnpackedFloat.pack]
  simp only [hbiased, hfits, hlong, if_false, if_true]

theorem toNat_one_append (fraction : BitVec 23) :
    (1#1 ++ fraction).toNat = 0x800000 + fraction.toNat := by
  rw [BitVec.toNat_append, ← Nat.shiftLeft_add_eq_or_of_lt fraction.isLt]
  rfl

/-- The unpacked form of a single-precision number is canonical. -/
theorem canonical_of_unpack {bits : BitVec Format.binary32.numBits} {sign : Sign}
    {exponent : Int} {hpos : 0 < mantissa}
    (h : UnpackedFloat.unpack Format.binary32 bits = .finite sign mantissa exponent hpos) :
    Canonical Format.binary32 mantissa exponent := by
  have hfraction : (unpackMantissa bits).toNat < 0x800000 := (unpackMantissa bits).isLt
  revert h
  fun_cases UnpackedFloat.unpack Format.binary32 bits with
  | case1 | case2 | case3 => intro h; cases h
  | case4 fraction field least _ _ hfinite hleast hnonzero =>
    intro h
    obtain ⟨-, hmantissa, hexponent⟩ := UnpackedFloat.finite.inj h
    have hvalue : least + 1 = -149 := by
      simp only [least, hleast]
      rfl
    rw [← hexponent, hvalue]
    exact canonical_of_lt hpos (hmantissa ▸ hfraction)
  | case5 fraction field shifted _ _ hfinite hnormal =>
    intro h
    obtain ⟨-, hmantissa, hexponent⟩ := UnpackedFloat.finite.inj h
    have happend := toNat_one_append fraction
    have hfield : 0 < field.toNat := BitVec.toNat_pos_of_ne_zero hnormal
    have hvalue : shifted = (field.toNat : Int) - 150 := rfl
    refine canonical_of_le ?_ ?_ ?_
    all_goals omega

/-- Packing the unpacked form of a single-precision word gives the word. -/
theorem pack_unpack {bits : BitVec Format.binary32.numBits} (h : Format.binary32.Valid bits) :
    UnpackedFloat.pack Format.binary32 (UnpackedFloat.unpack Format.binary32 bits) = bits := by
  have hwhole := packComponents_unpack bits
  fun_cases UnpackedFloat.unpack Format.binary32 bits with
  | case1 fraction field _ _ htop hzero =>
    rw [← hwhole]
    change packedInfinity _ _ = packComponents _ _ field fraction
    rw [htop, hzero]
    rfl
  | case2 fraction field htop hnonzero =>
    exact (h.eq_packedNaN htop hnonzero).symm
  | case3 fraction field _ _ hfinite hleast hzero =>
    rw [← hwhole]
    change packedZero _ _ = packComponents _ _ field fraction
    rw [hleast, hzero]
    rfl
  | case4 fraction field least _ _ hfinite hleast hnonzero =>
    have hfraction : fraction.toNat < 0x800000 := fraction.isLt
    have hpos : 0 < fraction.toNat := BitVec.toNat_pos_of_ne_zero hnonzero
    have hvalue : least + 1 = -149 := by
      simp only [least, hleast]
      rfl
    simp only [hvalue]
    rw [pack_of_lt _ hpos hfraction, BitVec.ofNat_toNat, BitVec.setWidth_eq]
    conv_rhs => rw [← hwhole]
    change packComponents _ _ _ _ = packComponents _ _ field fraction
    rw [hleast]
    rfl
  | case5 fraction field shifted _ _ hfinite hnormal =>
    have hfraction : fraction.toNat < 0x800000 := fraction.isLt
    have happend : (1#1 ++ fraction).toNat = 0x800000 + fraction.toNat := toNat_one_append fraction
    have hfield : field.toNat < 255 := by
      have hlt : field.toNat < 256 := field.isLt
      have hne : field.toNat ≠ 255 := fun heq => hfinite (BitVec.eq_of_toNat_eq heq)
      omega
    have hvalue : shifted = (field.toNat : Int) - 150 := rfl
    have hleading : BitVec.ofNat 23 (1#1 ++ fraction).toNat = fraction := by
      apply BitVec.eq_of_toNat_eq
      rw [BitVec.toNat_ofNat, happend]
      omega
    simp only [hvalue]
    rw [pack_of_le _ _ (by rw [happend]; omega) (by rw [happend]; omega) hfield, hleading,
      BitVec.ofNat_toNat, BitVec.setWidth_eq]
    exact hwhole

end Packing

section Multiplication

theorem mul_eq (x y : Float32) :
    x * y = .ofModel (.pack (UnpackedFloat.mul .binary32 x.toModel.unpack y.toModel.unpack)) :=
  rfl

theorem lt_iff (x y : Float32) :
    x < y ↔ x.toModel.unpack.lt y.toModel.unpack = true :=
  decide_eq_true_iff

theorem unpack_one :
    (1 : Float32).toModel.unpack = .finite .positive 0x800000 (-23) (by decide) := rfl

theorem unpack_zero : (0 : Float32).toModel.unpack = .zero .positive := rfl

/-- Packing the unpacked form of a number gives the number. -/
theorem pack_unpack_toModel (x : Float32) : Float32.Model.pack x.toModel.unpack = x.toModel := by
  obtain ⟨bits, hvalid⟩ := x.toModel
  have hpack := pack_unpack hvalid
  simp only [Float32.Model.pack, Float32.Model.unpack, hpack]

/-- One times a number is the number, whatever the number is. -/
theorem one_mul_single (x : Float32) : 1 * x = x := by
  have hmul : UnpackedFloat.mul .binary32 (1 : Float32).toModel.unpack x.toModel.unpack =
      x.toModel.unpack := by
    rw [unpack_one]
    cases hx : x.toModel.unpack with
    | notANumber => rfl
    | infinity sign => cases sign <;> rfl
    | zero sign => cases sign <;> rfl
    | finite sign mantissa exponent hpos =>
      have hsign : Sign.positive * sign = sign := by cases sign <;> rfl
      have hscale : -23 + exponent = exponent - (23 : Nat) := by omega
      have hcanonical := canonical_of_unpack hx
      rw [UnpackedFloat.mul, hsign, hscale]
      exact roundWithAccuracy_two_pow_mul hcanonical hpos sign 23
  rw [mul_eq, hmul, pack_unpack_toModel]

theorem mul_comm_sign (sign sign' : Sign) : sign * sign' = sign' * sign := by
  cases sign <;> cases sign' <;> rfl

/-- The factors of a product may change places. -/
theorem mul_comm_single (x y : Float32) : x * y = y * x := by
  have hunpacked : ∀ u v, UnpackedFloat.mul .binary32 u v = UnpackedFloat.mul .binary32 v u := by
    intro u v
    cases u with
    | notANumber => cases v <;> rfl
    | infinity sign | zero sign =>
      cases v with
      | notANumber => rfl
      | infinity | zero | finite => simp only [UnpackedFloat.mul, mul_comm_sign]
    | finite sign mantissa exponent =>
      cases v with
      | notANumber => rfl
      | infinity | zero => simp only [UnpackedFloat.mul, mul_comm_sign]
      | finite =>
        simp only [UnpackedFloat.mul, mul_comm_sign sign, Nat.mul_comm mantissa,
          Int.add_comm exponent]
  rw [mul_eq, mul_eq, hunpacked]

/-- Zero times a number is a zero or not a number, so it is not positive. -/
theorem not_pos_zero_mul (x : Float32) : ¬ 0 < 0 * x := by
  have hmul : UnpackedFloat.mul .binary32 (0 : Float32).toModel.unpack x.toModel.unpack =
      .notANumber ∨
      ∃ sign, UnpackedFloat.mul .binary32 (0 : Float32).toModel.unpack x.toModel.unpack =
        .zero sign := by
    rw [unpack_zero]
    cases x.toModel.unpack with
    | notANumber => exact Or.inl rfl
    | infinity => exact Or.inl rfl
    | zero => exact Or.inr ⟨_, rfl⟩
    | finite => exact Or.inr ⟨_, rfl⟩
  rw [lt_iff, mul_eq]
  obtain hnan | ⟨sign, hzero⟩ := hmul
  · rw [hnan]
    decide
  · rw [hzero]
    cases sign <;> decide

end Multiplication
end SidVoice.Number
