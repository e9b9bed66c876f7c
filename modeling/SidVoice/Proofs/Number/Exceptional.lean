import SidVoice.Proofs.Number.Order

/-!
# Zeros, infinities and what is not a number

Two words that compare as equal are the same word or the two zeros. A zero of either sign goes on as
a zero, or makes something that is not a number, until it is added to a one or taken off it; then
its sign is lost. It is not lost in a quotient by it, of which nothing is said here.

What is not finite stays so: a sum, a difference and a product are finite only if both operands are,
and a quotient of two operands that are not finite is not a number. But a number stays one if a
finite number is taken off it, if it is taken off a one, and if it is divided by a finite positive
number. What is not a number stays so in every operation.
-/

namespace SidVoice.Number

open Float.Model
open Float.Model.UnpackedFloat

section Zeros

/-- A word is told by its unpacked form. -/
theorem eq_of_unpack_eq {x y : Float32} (h : x.toModel.unpack = y.toModel.unpack) : x = y := by
  have hmodel : x.toModel = y.toModel := by
    rw [← pack_unpack_toModel x, h, pack_unpack_toModel]
  exact congrArg Float32.ofModel hmodel

/-- A zero of either sign. -/
def IsZero (x : Float32) : Prop := x = 0 ∨ x = -0

theorem isZero_iff_unpack {x : Float32} : IsZero x ↔ ∃ sign, x.toModel.unpack = .zero sign := by
  constructor
  · rintro (rfl | rfl)
    · exact ⟨.positive, rfl⟩
    · exact ⟨.negative, rfl⟩
  · rintro ⟨sign, h⟩
    cases sign with
    | positive => exact Or.inl (eq_of_unpack_eq h)
    | negative => exact Or.inr (eq_of_unpack_eq h)

/-- Packing a zero gives a zero. -/
theorem isZero_pack (sign : Sign) : IsZero (.ofModel (.pack (.zero sign))) :=
  isZero_iff_unpack.mpr ⟨sign, unpack_packedZero sign⟩

theorem IsZero.value_eq {x : Float32} (h : IsZero x) : value x = 0 := by
  obtain rfl | rfl := h <;> rfl

theorem IsZero.isFinite {x : Float32} (h : IsZero x) : x.isFinite = true := by
  obtain rfl | rfl := h <;> decide

/-- A product of a finite number with a zero is a zero. -/
theorem IsZero.mul_left {x z : Float32} (hz : IsZero z) (hx : x.isFinite = true) :
    IsZero (x * z) := by
  have hfinite : x.toModel.unpack.isFinite = true := hx
  obtain ⟨sign, hunpack⟩ := isZero_iff_unpack.mp hz
  rw [mul_eq, hunpack]
  cases hu : x.toModel.unpack with
  | notANumber | infinity =>
    rw [hu] at hfinite
    exact absurd hfinite Bool.false_ne_true
  | zero sign' => exact isZero_pack (sign' * sign)
  | finite sign' => exact isZero_pack (sign' * sign)

theorem IsZero.one_add {z : Float32} (h : IsZero z) : 1 + z = 1 := by
  obtain rfl | rfl := h <;> decide

theorem IsZero.one_sub {z : Float32} (h : IsZero z) : 1 - z = 1 := by
  obtain rfl | rfl := h <;> decide

/-- Taking a zero off a word leaves the word, or a zero of a zero. -/
theorem IsZero.sub_right {z : Float32} (hz : IsZero z) (x : Float32) :
    x - z = x ∨ IsZero x ∧ IsZero (x - z) := by
  obtain ⟨sign, hunpack⟩ := isZero_iff_unpack.mp hz
  have hsub : x - z =
      .ofModel (.pack (UnpackedFloat.sub .binary32 x.toModel.unpack z.toModel.unpack)) := rfl
  have hself : Float32.ofModel (.pack x.toModel.unpack) = x :=
    congrArg Float32.ofModel (pack_unpack_toModel x)
  rw [hsub, hunpack]
  cases hu : x.toModel.unpack with
  | notANumber | infinity | finite =>
    rw [hu] at hself
    exact Or.inl hself
  | zero sign' =>
    right
    refine ⟨isZero_iff_unpack.mpr ⟨sign', hu⟩, ?_⟩
    cases sign <;> cases sign' <;> exact isZero_pack _

end Zeros

section Alike

/-- The same word, or two zeros. -/
inductive Alike : Float32 → Float32 → Prop
  | same (x : Float32) : Alike x x
  | zeros {x y : Float32} (hx : IsZero x) (hy : IsZero y) : Alike x y

/-- Unpacked numbers that compare as equal are the same, or two zeros. -/
theorem eq_or_zeros_of_compare {u v : UnpackedFloat} (h : u.compare v = some .eq) :
    u = v ∨ (∃ sign, u = .zero sign) ∧ ∃ sign, v = .zero sign := by
  have hfinite : ∀ {m m' : ℕ} {e e' : ℤ}, (compare e e').then (compare m m') = .eq →
      e = e' ∧ m = m' := by
    intro m m' e e' hthen
    obtain ⟨hexponent, hmantissa⟩ := Ordering.then_eq_eq.mp hthen
    exact ⟨Int.compare_eq_eq.mp hexponent, Nat.compare_eq_eq.mp hmantissa⟩
  revert h
  fun_cases UnpackedFloat.compare u v with
  | case3 sign sign' =>
    intro h
    cases sign <;> cases sign'
    · exact Or.inl rfl
    · cases h
    · cases h
    · exact Or.inl rfl
  | case12 sign sign' => exact fun _ => Or.inr ⟨⟨sign, rfl⟩, sign', rfl⟩
  | case13 mantissa exponent _ mantissa' exponent' _ =>
    intro h
    obtain ⟨rfl, rfl⟩ := hfinite (Ordering.swap_eq_eq.mp (Option.some.inj h))
    exact Or.inl rfl
  | case16 mantissa exponent _ mantissa' exponent' _ =>
    intro h
    obtain ⟨rfl, rfl⟩ := hfinite (Option.some.inj h)
    exact Or.inl rfl
  | _ =>
    intro h
    cases h

variable {x y z : Float32}

/-- Words that compare as equal are alike. -/
theorem alike_of_beq (h : (x == y) = true) : Alike x y := by
  have hcompare : x.toModel.unpack.compare y.toModel.unpack = some .eq := beq_iff_eq.mp h
  obtain hsame | ⟨hx, hy⟩ := eq_or_zeros_of_compare hcompare
  · exact eq_of_unpack_eq hsame ▸ .same x
  · exact .zeros (isZero_iff_unpack.mpr hx) (isZero_iff_unpack.mpr hy)

/-- What compares as equal to something is a number. -/
theorem isNumber_of_beq (h : (x == y) = true) : IsNumber x ∧ IsNumber y :=
  isNumber_of_compare (beq_iff_eq.mp h)

/-- Words that are alike are exceeded by the same words. -/
theorem Alike.lt_iff (h : Alike x y) : x < z ↔ y < z := by
  cases h with
  | same => exact Iff.rfl
  | zeros hx hy =>
    rw [lt_iff_value, lt_iff_value, hx.value_eq, hy.value_eq]
    simp only [isNumber_of_isFinite hx.isFinite, isNumber_of_isFinite hy.isFinite]

/-- Words that are alike exceed the same words. -/
theorem Alike.gt_iff (h : Alike x y) : z < x ↔ z < y := by
  cases h with
  | same => exact Iff.rfl
  | zeros hx hy =>
    rw [lt_iff_value, lt_iff_value, hx.value_eq, hy.value_eq]
    simp only [isNumber_of_isFinite hx.isFinite, isNumber_of_isFinite hy.isFinite]

/-- Products of words that are alike with the same finite number are alike. -/
theorem Alike.mul_left (h : Alike x y) (hz : z.isFinite = true) : Alike (z * x) (z * y) := by
  cases h with
  | same => exact .same _
  | zeros hx hy => exact .zeros (hx.mul_left hz) (hy.mul_left hz)

/-- Taking off words that are alike leaves words that are alike. -/
theorem Alike.sub_left (h : Alike x y) (z : Float32) : Alike (z - x) (z - y) := by
  cases h with
  | same => exact .same _
  | zeros hx hy =>
    obtain hleft | ⟨hz, hleft⟩ := hx.sub_right z
    · obtain hright | ⟨hz, hright⟩ := hy.sub_right z
      · rw [hleft, hright]
        exact .same z
      · rw [hleft]
        exact .zeros hz hright
    · obtain hright | ⟨-, hright⟩ := hy.sub_right z
      · rw [hright]
        exact .zeros hleft hz
      · exact .zeros hleft hright

/-- Quotients of words that are alike by the same word are alike. -/
theorem Alike.div_right (h : Alike x y) (z : Float32) : Alike (x / z) (y / z) := by
  have hdiv : ∀ w : Float32, w / z =
      .ofModel (.pack (UnpackedFloat.div .binary32 w.toModel.unpack z.toModel.unpack)) :=
    fun _ => rfl
  cases h with
  | same => exact .same _
  | zeros hx hy =>
    obtain ⟨sign, hunpack⟩ := isZero_iff_unpack.mp hx
    obtain ⟨sign', hunpack'⟩ := isZero_iff_unpack.mp hy
    rw [hdiv, hdiv, hunpack, hunpack']
    cases z.toModel.unpack with
    | notANumber | zero => exact .same _
    | infinity | finite => exact .zeros (isZero_pack _) (isZero_pack _)

/-- What words that are alike leave of a one is the same. -/
theorem Alike.one_sub_eq (h : Alike x y) : 1 - x = 1 - y := by
  cases h with
  | same => rfl
  | zeros hx hy => rw [hx.one_sub, hy.one_sub]

end Alike

section Finite

variable {x y : Float32}

/-- Packing makes nothing finite. -/
theorem isFinite_of_pack {u : UnpackedFloat}
    (h : (Float32.ofModel (.pack u)).isFinite = true) : u.isFinite = true := by
  cases u with
  | notANumber => exact absurd h (by decide)
  | infinity sign => cases sign <;> exact absurd h (by decide)
  | zero | finite => rfl

theorem isFinite_of_add_unpacked {u v : UnpackedFloat}
    (h : (UnpackedFloat.add .binary32 u v).isFinite = true) :
    u.isFinite = true ∧ v.isFinite = true := by
  cases u with
  | notANumber => exact absurd h Bool.false_ne_true
  | infinity sign =>
    cases v with
    | infinity sign' => cases sign <;> cases sign' <;> exact absurd h Bool.false_ne_true
    | notANumber | zero | finite => exact absurd h Bool.false_ne_true
  | zero | finite =>
    cases v with
    | notANumber | infinity => exact absurd h Bool.false_ne_true
    | zero | finite => exact ⟨rfl, rfl⟩

/-- A sum is finite only if both operands are. -/
theorem isFinite_of_add (h : (x + y).isFinite = true) :
    x.isFinite = true ∧ y.isFinite = true :=
  isFinite_of_add_unpacked (isFinite_of_pack h)

/-- A difference is finite only if both operands are. -/
theorem isFinite_of_sub (h : (x - y).isFinite = true) :
    x.isFinite = true ∧ y.isFinite = true := by
  have hdifference := isFinite_of_pack h
  rw [sub_eq_add_neg_unpacked] at hdifference
  obtain ⟨hx, hneg⟩ := isFinite_of_add_unpacked hdifference
  refine ⟨hx, ?_⟩
  change y.toModel.unpack.isFinite = true
  cases hy : y.toModel.unpack with
  | notANumber | infinity =>
    rw [hy] at hneg
    exact absurd hneg Bool.false_ne_true
  | zero | finite => rfl

/-- A product is finite only if both operands are. -/
theorem isFinite_of_mul (h : (x * y).isFinite = true) :
    x.isFinite = true ∧ y.isFinite = true := by
  have hproduct := isFinite_of_pack h
  change x.toModel.unpack.isFinite = true ∧ y.toModel.unpack.isFinite = true
  revert hproduct
  cases x.toModel.unpack with
  | notANumber => exact fun hproduct => absurd hproduct Bool.false_ne_true
  | infinity =>
    cases y.toModel.unpack <;> exact fun hproduct => absurd hproduct Bool.false_ne_true
  | zero | finite =>
    cases y.toModel.unpack with
    | notANumber | infinity => exact fun hproduct => absurd hproduct Bool.false_ne_true
    | zero | finite => exact fun _ => ⟨rfl, rfl⟩

/-- There is one word only that is not a number. -/
theorem eq_of_isNaN (hx : x.isNaN = true) (hy : y.isNaN = true) : x = y := by
  have hnone : ∀ w : Float32, w.isNaN = true → w.toModel.unpack = .notANumber := by
    intro w hw
    have hw : w.toModel.unpack.isNaN = true := hw
    cases hunpack : w.toModel.unpack with
    | notANumber => rfl
    | infinity | zero | finite =>
      rw [hunpack] at hw
      exact absurd hw Bool.false_ne_true
  exact eq_of_unpack_eq ((hnone x hx).trans (hnone y hy).symm)

/-- A number less a finite one is a number. -/
theorem isNumber_sub (hx : IsNumber x) (hy : y.isFinite = true) : IsNumber (x - y) := by
  obtain ⟨hnumber, hbot, htop⟩ := isFinite_iff_value.mp hy
  exact (isRounding_sub hx hnumber (.inr hbot) (.inr htop)).isNumber

/-- One less a number is a number. -/
theorem isNumber_one_sub (hx : IsNumber x) : IsNumber (1 - x) := by
  obtain ⟨hone, hbot, htop⟩ := isFinite_iff_value.mp (show (1 : Float32).isFinite = true by decide)
  exact (isRounding_sub hone hx (.inl hbot) (.inl htop)).isNumber

/-- A number by a finite positive one is a number. -/
theorem isNumber_div (hx : IsNumber x) (hy : y.isFinite = true) (hpos : 0 < y) :
    IsNumber (x / y) := by
  obtain ⟨-, -, hvalue⟩ := lt_iff_value.mp hpos
  exact (isRounding_div hx hy hvalue).isNumber

/-- A quotient of two operands that are not finite is not a number. -/
theorem isNaN_div (hx : ¬ x.isFinite = true) (hy : ¬ y.isFinite = true) :
    (x / y).isNaN = true := by
  have hx : ¬ x.toModel.unpack.isFinite = true := hx
  have hy : ¬ y.toModel.unpack.isFinite = true := hy
  have hnone : UnpackedFloat.div .binary32 x.toModel.unpack y.toModel.unpack = .notANumber := by
    revert hx hy
    cases x.toModel.unpack with
    | zero | finite => exact fun hx => absurd rfl hx
    | notANumber => exact fun _ _ => rfl
    | infinity =>
      cases y.toModel.unpack with
      | zero | finite => exact fun _ hy => absurd rfl hy
      | notANumber | infinity => exact fun _ _ => rfl
  have hquotient : x / y =
      .ofModel (.pack (UnpackedFloat.div .binary32 x.toModel.unpack y.toModel.unpack)) := rfl
  rw [hquotient, hnone]
  decide

/-- A word is infinite or not a number if it is not finite. -/
theorem not_isFinite_iff : ¬ x.isFinite = true ↔ x.isInf = true ∨ x.isNaN = true := by
  change ¬ x.toModel.unpack.isFinite = true ↔
    x.toModel.unpack.isInf = true ∨ x.toModel.unpack.isNaN = true
  cases x.toModel.unpack with
  | notANumber => exact ⟨fun _ => Or.inr rfl, fun _ => Bool.false_ne_true⟩
  | infinity => exact ⟨fun _ => Or.inl rfl, fun _ => Bool.false_ne_true⟩
  | zero | finite => exact ⟨fun h => absurd rfl h, fun h => by rcases h with h | h <;> cases h⟩

end Finite

section Undefined

variable {x y : Float32}

theorem not_isNumber_pack_notANumber : ¬ IsNumber (.ofModel (.pack .notANumber)) := by
  rw [IsNumber]
  decide

/-- An operation that makes no number of an operand that is none has numbers for operands. -/
theorem isNumber_of_operation (operation : UnpackedFloat → UnpackedFloat → UnpackedFloat)
    (hleft : ∀ v, operation .notANumber v = .notANumber)
    (hright : ∀ u, operation u .notANumber = .notANumber)
    (h : IsNumber (.ofModel (.pack (operation x.toModel.unpack y.toModel.unpack)))) :
    IsNumber x ∧ IsNumber y := by
  constructor
  · change x.toModel.unpack.isNaN = false
    cases hx : x.toModel.unpack with
    | notANumber =>
      rw [hx, hleft] at h
      exact absurd h not_isNumber_pack_notANumber
    | infinity | zero | finite => rfl
  · change y.toModel.unpack.isNaN = false
    cases hy : y.toModel.unpack with
    | notANumber =>
      rw [hy, hright] at h
      exact absurd h not_isNumber_pack_notANumber
    | infinity | zero | finite => rfl

/-- A sum is a number only if both operands are. -/
theorem isNumber_of_add (h : IsNumber (x + y)) : IsNumber x ∧ IsNumber y := by
  refine isNumber_of_operation (UnpackedFloat.add .binary32) ?_ ?_ h
  · exact fun v => rfl
  · intro u
    cases u <;> rfl

/-- A difference is a number only if both operands are. -/
theorem isNumber_of_sub (h : IsNumber (x - y)) : IsNumber x ∧ IsNumber y := by
  refine isNumber_of_operation (UnpackedFloat.sub .binary32) ?_ ?_ h
  · exact fun v => rfl
  · intro u
    cases u <;> rfl

/-- A product is a number only if both operands are. -/
theorem isNumber_of_mul (h : IsNumber (x * y)) : IsNumber x ∧ IsNumber y := by
  refine isNumber_of_operation (UnpackedFloat.mul .binary32) ?_ ?_ h
  · exact fun v => rfl
  · intro u
    cases u <;> rfl

/-- A quotient is a number only if both operands are. -/
theorem isNumber_of_div (h : IsNumber (x / y)) : IsNumber x ∧ IsNumber y := by
  refine isNumber_of_operation (UnpackedFloat.div .binary32) ?_ ?_ h
  · exact fun v => rfl
  · intro u
    cases u <;> rfl

/-- A product of zero is a number only if the other operand is finite. -/
theorem isFinite_of_isNumber_zero_mul (h : IsNumber (0 * x)) : x.isFinite = true := by
  change x.toModel.unpack.isFinite = true
  rw [mul_eq, unpack_zero] at h
  cases hx : x.toModel.unpack with
  | zero | finite => rfl
  | notANumber | infinity =>
    rw [hx] at h
    exact absurd h not_isNumber_pack_notANumber

end Undefined

end SidVoice.Number
