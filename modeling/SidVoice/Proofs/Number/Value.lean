import SidVoice.Proofs.Number.Normalization

/-!
# What single-precision numbers stand for

A single-precision number stands for an extended real number: both zeros for zero, the infinities
for the two ends. A word that is not a number stands for nothing; that its value is written as zero
is of no account. What an operation delivers in unpacked form is packed without loss unless it is
too large, and then it becomes infinite.

So the result of an operation is right if it is a number, and its value is what single precision
makes of the exact result.
-/

namespace SidVoice.Number

open Float.Model
open Float.Model.UnpackedFloat

/-- The end of the line on the side of a sign. -/
noncomputable def infinite : Sign → EReal
  | .negative => ⊥
  | .positive => ⊤

/-- An unpacked number that stands for the extended real number. -/
inductive Denotes : UnpackedFloat → EReal → Prop
  | infinity (sign : Sign) : Denotes (.infinity sign) (infinite sign)
  | real {unpacked : UnpackedFloat} {z : ℝ} (h : StandsFor unpacked z) : Denotes unpacked z

/-- An unpacked number that stands for the exact result of an operation, rounded. -/
inductive Delivers : UnpackedFloat → EReal → Prop
  | infinity (sign : Sign) : Delivers (.infinity sign) (infinite sign)
  | rounded {unpacked : UnpackedFloat} {x z : ℝ} (hrounded : Rounded x z)
      (h : StandsFor unpacked z) : Delivers unpacked x

/-- A canonical number is rounded. -/
theorem StandsFor.rounded {unpacked : UnpackedFloat} {z : ℝ} (h : StandsFor unpacked z) :
    Rounded z z := by
  cases h with
  | zero sign => exact rounded_zero
  | finite sign mantissa exponent hpos hcanonical =>
    have hself : Rounded (mantissa * 2 ^ exponent) (mantissa * 2 ^ exponent) :=
      rounded_self (n := mantissa) hcanonical.lastPlace
    cases sign with
    | negative => exact hself.neg
    | positive => exact hself

theorem Denotes.delivers {unpacked : UnpackedFloat} {a : EReal} (h : Denotes unpacked a) :
    Delivers unpacked a := by
  cases h with
  | infinity sign => exact .infinity sign
  | real h => exact .rounded h.rounded h

/-- The value of an unpacked number. -/
noncomputable def unpackedValue : UnpackedFloat → EReal
  | .notANumber => 0
  | .infinity sign => infinite sign
  | .zero _ => 0
  | .finite sign mantissa exponent _ => signed sign (magnitude mantissa exponent)

theorem Denotes.unpackedValue_eq {unpacked : UnpackedFloat} {a : EReal} (h : Denotes unpacked a) :
    unpackedValue unpacked = a := by
  cases h with
  | infinity sign => rfl
  | real h => cases h <;> rfl

theorem Denotes.ne_notANumber {unpacked : UnpackedFloat} {a : EReal} (h : Denotes unpacked a) :
    unpacked ≠ .notANumber := by
  rintro rfl
  cases h with
  | real h => cases h

section Packing

variable {mantissa : ℕ} {exponent : ℤ}

/-- A canonical number has all twenty-four digits, or the least exponent. -/
theorem Canonical.cases (hpos : 0 < mantissa) (h : Canonical Format.binary32 mantissa exponent) :
    mantissa < 0x800000 ∧ exponent = -149 ∨
      0x800000 ≤ mantissa ∧ mantissa < 0x1000000 ∧ -149 ≤ exponent := by
  rw [Canonical, targetExponent_binary32, totalExponent] at h
  have hupper : mantissa < 0x1000000 := by
    have hlog : mantissa.log2 < 24 := by omega
    exact (Nat.log2_lt hpos.ne').mp hlog
  obtain hshort | hlong := Nat.lt_or_ge mantissa 0x800000
  · have hlog := log2_lt_of_lt hpos hshort
    exact Or.inl ⟨hshort, by omega⟩
  · exact Or.inr ⟨hlong, hupper, by omega⟩

theorem unpackSign_packComponents {spec : Format} (sign : Sign)
    (exponent : BitVec spec.exponentBits) (mantissa : BitVec spec.mantissaBitsWithoutImplicit) :
    Sign.ofBitVec (unpackSign (packComponents spec sign exponent mantissa)) = sign := by
  have hsign : unpackSign (packComponents spec sign exponent mantissa) = sign.toBitVec := by
    apply BitVec.eq_of_getLsbD_eq
    intro i hi
    have hzero : i = 0 := by omega
    subst hzero
    simp [unpackSign, packComponents, BitVec.getLsbD_append, BitVec.getElem_append]
  rw [hsign]
  cases sign <;> rfl

theorem unpack_packedZero (sign : Sign) :
    UnpackedFloat.unpack Format.binary32 (packedZero Format.binary32 sign) = .zero sign := by
  cases sign <;> rfl

theorem unpack_packedInfinity (sign : Sign) :
    UnpackedFloat.unpack Format.binary32 (packedInfinity Format.binary32 sign) =
      .infinity sign := by
  cases sign <;> rfl

/-- A canonical number that is not too large is packed without loss. -/
theorem unpack_pack (sign : Sign) (hpos : 0 < mantissa)
    (h : Canonical Format.binary32 mantissa exponent) (hexponent : exponent ≤ 104) :
    UnpackedFloat.unpack Format.binary32
        (UnpackedFloat.pack Format.binary32 (.finite sign mantissa exponent hpos)) =
      .finite sign mantissa exponent hpos := by
  obtain ⟨hshort, rfl⟩ | ⟨hlong, hupper, hleast⟩ := h.cases hpos
  · have hfraction : (BitVec.ofNat 23 mantissa).toNat = mantissa := by
      rw [BitVec.toNat_ofNat]
      exact Nat.mod_eq_of_lt hshort
    have hnonzero : ¬ BitVec.ofNat 23 mantissa = 0#23 := by
      intro hzero
      rw [hzero] at hfraction
      exact hpos.ne hfraction
    rw [pack_of_lt sign hpos hshort, UnpackedFloat.unpack]
    simp only [unpackExponent_packComponents, unpackMantissa_packComponents,
      unpackSign_packComponents]
    rw [if_neg (by decide), if_pos (by decide), dif_neg hnonzero]
    congr 1
  · obtain ⟨field, hfield⟩ : ∃ field : ℕ, exponent = field - 150 :=
      ⟨(exponent + 150).toNat, by omega⟩
    subst hfield
    have hleading : (1#1 ++ BitVec.ofNat 23 mantissa).toNat = mantissa := by
      rw [toNat_one_append, BitVec.toNat_ofNat]
      omega
    have hbiased : (BitVec.ofNat 8 field).toNat = field := by
      rw [BitVec.toNat_ofNat]
      omega
    have hfinite : ¬ BitVec.ofNat 8 field = -1#8 := by
      intro htop
      rw [htop] at hbiased
      have : (255 : ℕ) = field := hbiased
      omega
    have hnormal : ¬ BitVec.ofNat 8 field = 0#8 := by
      intro hzero
      rw [hzero] at hbiased
      have : (0 : ℕ) = field := hbiased
      omega
    rw [pack_of_le sign hpos hlong hupper (by omega), UnpackedFloat.unpack]
    simp only [unpackExponent_packComponents, unpackMantissa_packComponents,
      unpackSign_packComponents]
    rw [if_neg hfinite, if_neg hnormal]
    congr 1
    rw [hbiased]
    rfl

/-- A canonical number that is too large is packed as an infinity. -/
theorem unpack_pack_of_large (sign : Sign) (hpos : 0 < mantissa) (hexponent : 104 < exponent) :
    UnpackedFloat.unpack Format.binary32
        (UnpackedFloat.pack Format.binary32 (.finite sign mantissa exponent hpos)) =
      .infinity sign := by
  have hlarge : 2 ^ Format.binary32.exponentBits ≤
      (exponent + Format.binary32.exponentBias +
        Format.binary32.mantissaBitsWithoutImplicit).toNat + 1 := by
    change 256 ≤ (exponent + 127 + 23).toNat + 1
    omega
  rw [UnpackedFloat.pack]
  simp only [hlarge, if_true]
  exact unpack_packedInfinity sign

end Packing

/-- A word that is a number, infinities included. -/
def IsNumber (x : Float32) : Prop := x.isNaN = false

/-- The value of a number. -/
noncomputable def value (x : Float32) : EReal := unpackedValue x.toModel.unpack

section Words

variable {x : Float32}

theorem denotes_value (hx : IsNumber x) : Denotes x.toModel.unpack (value x) := by
  have hnumber : x.toModel.unpack.isNaN = false := hx
  rw [value]
  cases hunpack : x.toModel.unpack with
  | notANumber =>
    rw [hunpack] at hnumber
    exact absurd hnumber (by decide)
  | infinity sign => exact .infinity sign
  | zero sign => exact .real (.zero sign)
  | finite sign mantissa exponent hpos =>
    exact .real (.finite sign mantissa exponent hpos (canonical_of_unpack hunpack))

theorem isNumber_of_denotes {a : EReal} (h : Denotes x.toModel.unpack a) : IsNumber x := by
  have hne := h.ne_notANumber
  change x.toModel.unpack.isNaN = false
  cases hunpack : x.toModel.unpack with
  | notANumber => exact absurd hunpack hne
  | infinity | zero | finite => rfl

/-- A finite number stands for a real one. -/
theorem exists_standsFor (hx : x.isFinite = true) :
    ∃ z : ℝ, StandsFor x.toModel.unpack z ∧ value x = z := by
  have hfinite : x.toModel.unpack.isFinite = true := hx
  rw [value]
  cases hunpack : x.toModel.unpack with
  | notANumber | infinity =>
    rw [hunpack] at hfinite
    exact absurd hfinite Bool.false_ne_true
  | zero sign => exact ⟨0, .zero sign, rfl⟩
  | finite sign mantissa exponent hpos =>
    exact ⟨_, .finite sign mantissa exponent hpos (canonical_of_unpack hunpack), rfl⟩

theorem isNumber_of_isFinite (hx : x.isFinite = true) : IsNumber x :=
  let ⟨_, hstands, _⟩ := exists_standsFor hx
  isNumber_of_denotes (.real hstands)

/-- A number is finite exactly if its value is. -/
theorem isFinite_iff_value : x.isFinite = true ↔ IsNumber x ∧ value x ≠ ⊥ ∧ value x ≠ ⊤ := by
  constructor
  · intro hx
    obtain ⟨z, -, hz⟩ := exists_standsFor hx
    exact ⟨isNumber_of_isFinite hx, hz ▸ EReal.coe_ne_bot z, hz ▸ EReal.coe_ne_top z⟩
  · rintro ⟨hx, hbot, htop⟩
    change x.toModel.unpack.isFinite = true
    have hnumber : x.toModel.unpack.isNaN = false := hx
    rw [value] at hbot htop
    cases hunpack : x.toModel.unpack with
    | notANumber =>
      rw [hunpack] at hnumber
      exact absurd hnumber (by decide)
    | infinity sign =>
      rw [hunpack] at hbot htop
      cases sign with
      | negative => exact absurd rfl hbot
      | positive => exact absurd rfl htop
    | zero | finite => rfl

/-- Only the positive infinity has the upper end for its value. -/
theorem unpack_eq_infinity (hx : value x = ⊤) : x.toModel.unpack = .infinity .positive := by
  rw [value] at hx
  cases hunpack : x.toModel.unpack with
  | infinity sign =>
    rw [hunpack] at hx
    cases sign with
    | negative => exact absurd hx bot_ne_top
    | positive => rfl
  | notANumber | zero =>
    rw [hunpack] at hx
    exact absurd hx EReal.zero_ne_top
  | finite =>
    rw [hunpack] at hx
    exact absurd hx (EReal.coe_ne_top _)

end Words

/-- The word is a number, and it is what single precision makes of the exact result. -/
structure IsRounding (a : EReal) (x : Float32) : Prop where
  isNumber : IsNumber x
  roundsTo : RoundsTo a (value x)

theorem clip_signed (sign : Sign) {z : ℝ} (h : 2 ^ 128 ≤ z) :
    clip (signed sign z) = infinite sign := by
  cases sign with
  | negative => exact clip_of_le_neg (neg_le_neg h)
  | positive => exact clip_of_le h

/-- Packing what stands for a rounded number leaves what single precision makes of it. -/
theorem StandsFor.denotes_pack {unpacked : UnpackedFloat} {z : ℝ} (h : StandsFor unpacked z) :
    Denotes (UnpackedFloat.unpack Format.binary32 (UnpackedFloat.pack Format.binary32 unpacked))
      (clip z) := by
  cases h with
  | zero sign =>
    have hclip : clip 0 = ((0 : ℝ) : EReal) := clip_of_abs_lt (by norm_num)
    rw [hclip, UnpackedFloat.pack, unpack_packedZero]
    exact .real (.zero sign)
  | finite sign mantissa exponent hpos hcanonical =>
    have hplace := hcanonical.lastPlace
    have hnonneg : 0 ≤ (mantissa : ℝ) * 2 ^ exponent := magnitude_nonneg mantissa exponent
    obtain hsmall | hlarge := le_or_gt exponent 104
    · have hlt : |signed sign ((mantissa : ℝ) * 2 ^ exponent)| < 2 ^ 128 := by
        rw [abs_signed, ← zpow_natCast]
        exact hplace.abs_lt.trans_le (zpow_le_zpow_right₀ one_le_two (by push_cast; omega))
      rw [clip_of_abs_lt hlt, unpack_pack sign hpos hcanonical hsmall]
      exact .real (.finite sign mantissa exponent hpos hcanonical)
    · have hle : (2 : ℝ) ^ 128 ≤ mantissa * 2 ^ exponent := by
        rw [← zpow_natCast, ← abs_of_nonneg hnonneg]
        exact (zpow_le_zpow_right₀ one_le_two (by push_cast; omega)).trans
          (hplace.le_abs (by omega))
      rw [clip_signed sign hle, unpack_pack_of_large sign hpos hlarge]
      exact .infinity sign

/-- Packing what an operation delivers gives what single precision makes of its exact result. -/
theorem Delivers.isRounding {unpacked : UnpackedFloat} {a : EReal} (h : Delivers unpacked a) :
    IsRounding a (.ofModel (.pack unpacked)) := by
  have hdenotes : ∃ b, RoundsTo a b ∧ Denotes (UnpackedFloat.unpack Format.binary32
      (UnpackedFloat.pack Format.binary32 unpacked)) b := by
    cases h with
    | infinity sign =>
      refine ⟨infinite sign, ?_, ?_⟩
      · cases sign with
        | negative => exact .bot
        | positive => exact .top
      · rw [UnpackedFloat.pack, unpack_packedInfinity]
        exact .infinity sign
    | rounded hrounded hstands => exact ⟨_, .real hrounded, hstands.denotes_pack⟩
  obtain ⟨b, hrounds, hdenotes⟩ := hdenotes
  refine ⟨isNumber_of_denotes hdenotes, ?_⟩
  have hvalue : value (.ofModel (.pack unpacked)) = b := hdenotes.unpackedValue_eq
  rwa [hvalue]

/-- A number is what single precision makes of its own value. -/
theorem isRounding_self {x : Float32} (hx : IsNumber x) : IsRounding (value x) x := by
  have hpacked := (denotes_value hx).delivers.isRounding
  rwa [pack_unpack_toModel] at hpacked

end SidVoice.Number
