import SidVoice.Proofs.Number.Order
import SidVoice.Pulldown.Profile

/-!
# Weights decay with distance

On a linear or a quadratic curve the distance is multiplied by the offset or by its square. A whole
number is rounded when it is converted, a product, a sum and a quotient are each rounded again, and
every one of these keeps the order of its operands. So a weight does not grow with the offset, nor
with the distance parameter, and it stays between zero and one.

The parameter may be infinite: the product is infinite then, and the weight a zero. The square of an
offset has to fit into 32 bits. Nothing is said about strict decay, which rounding does not leave:
by a tiny parameter all weights are one.
-/

namespace SidVoice.Pulldown

open Number

section Reciprocals

variable {x y : Float32}

theorem one_add_pos (hx : 0 ≤ x) : 0 < 1 + x :=
  lt_of_lt_of_le_single (by decide) (le_add_right_single (by decide) hx)

/-- The reciprocal of one plus a greater number is smaller, infinities included. -/
theorem reciprocal_le (hx : 0 ≤ x) (h : x ≤ y) : 1 / (1 + y) ≤ 1 / (1 + x) :=
  div_le_div_left_single (by decide) (by decide) (one_add_pos hx)
    (add_le_add_left_single (by decide) hx h)

theorem reciprocal_nonneg (hx : 0 ≤ x) : 0 ≤ 1 / (1 + x) := by
  have hpos := one_add_pos hx
  obtain ⟨-, -, hvalue⟩ := lt_iff_value.mp hpos
  obtain ⟨-, hone⟩ := nonneg_iff_value.mp (show (0 : Float32) ≤ 1 by decide)
  exact (isRounding_div_of_pos (by decide) hpos).nonneg (EReal.div_nonneg hone hvalue.le)

theorem reciprocal_le_one (hx : 0 ≤ x) : 1 / (1 + x) ≤ 1 := by
  have hle := reciprocal_le (le_refl_single isNumber_zero) hx
  rwa [show (1 / (1 + 0) : Float32) = 1 by decide] at hle

/-- The reciprocal of one plus a finite number does not vanish. -/
theorem reciprocal_pos (hx : 0 ≤ x) (hfinite : x.isFinite = true) : 0 < 1 / (1 + x) := by
  have hleast : (0 : Float32) < 1 / (1 + largest) := by decide +kernel
  exact lt_of_lt_of_le_single hleast (reciprocal_le hx (le_largest hfinite).2)

end Reciprocals

section Conversion

variable {i j : Int32}

/-- An offset that is not negative is converted to what single precision makes of it. -/
theorem isRounding_single (h : 0 ≤ i) : IsRounding (i.toInt : ℝ) (single i) := by
  have hnonneg : 0 ≤ i.toInt := Int32.le_iff_toInt_le.mp h
  have hlt : i.toInt < 2 ^ 31 := i.toInt_lt
  have hsize : ((UInt32.ofNat i.toInt.natAbs).toNat : ℤ) = i.toInt := by
    rw [UInt32.toNat_ofNat_of_lt' (by change i.toInt.natAbs < 2 ^ 32; omega)]
    exact Int.natAbs_of_nonneg hnonneg
  have hnot : ¬ i < 0 := by
    rw [Int32.lt_iff_toInt_lt]
    exact not_lt.mpr hnonneg
  have hrounding := isRounding_toFloat32 (UInt32.ofNat i.toInt.natAbs)
  rw [← Int.cast_natCast (R := ℝ), hsize] at hrounding
  rw [single, if_neg hnot]
  exact hrounding

theorem single_le_single (h : 0 ≤ i) (hij : i ≤ j) : single i ≤ single j := by
  have hint : i.toInt ≤ j.toInt := Int32.le_iff_toInt_le.mp hij
  have hreal : (i.toInt : ℝ) ≤ j.toInt := by exact_mod_cast hint
  exact (isRounding_single h).le (isRounding_single (Int32.le_trans h hij))
    (EReal.coe_le_coe_iff.mpr hreal)

theorem isFinite_single (h : 0 ≤ i) : (single i).isFinite = true :=
  isFinite_of_le_of_le (by decide) (by decide) (single_le_single (Int32.le_refl 0) h)
    (single_le_single h (Int32.le_maxValue i))

theorem single_pos (h : 1 ≤ i) : 0 < single i :=
  lt_of_lt_of_le_single (by decide) (single_le_single (by decide) h)

end Conversion

/-- The curves whose weights are reciprocals of one plus a multiple of the distance. -/
def DecayCurve.IsReciprocal (curve : DecayCurve) : Prop := curve = .linear ∨ curve = .quadratic

/-- A positive offset whose square fits into 32 bits, where a curve needs it. -/
structure DecayCurve.Admits (curve : DecayCurve) (offset : Int32) : Prop where
  pos : 1 ≤ offset
  le : curve = .quadratic → offset ≤ 46340

/-- The whole number by which a reciprocal curve multiplies the distance. -/
def DecayCurve.multiplier : DecayCurve → Int32 → Int32
  | quadratic, offset => offset * offset
  | exponential, offset | linear, offset => offset

section Offsets

variable {curve : DecayCurve} {i j : Int32}

/-- The square of an offset that fits into 32 bits. -/
theorem toInt_mul_self (hpos : 1 ≤ i) (h : i ≤ 46340) : (i * i).toInt = i.toInt * i.toInt := by
  have hlower : 1 ≤ i.toInt := Int32.le_iff_toInt_le.mp hpos
  have hupper : i.toInt ≤ 46340 := Int32.le_iff_toInt_le.mp h
  have hnonneg : 0 ≤ i.toInt * i.toInt := mul_self_nonneg i.toInt
  have hsquare : i.toInt * i.toInt ≤ 46340 * 46340 :=
    mul_le_mul hupper hupper (by omega) (by omega)
  rw [Int32.toInt_mul]
  exact Int.bmod_eq_of_le (by omega) (by omega)

/-- The multipliers of admitted offsets are in their order, and positive. -/
theorem multiplier_le (hi : curve.Admits i) (hj : curve.Admits j) (hij : i ≤ j) :
    1 ≤ curve.multiplier i ∧ curve.multiplier i ≤ curve.multiplier j := by
  cases curve with
  | exponential | linear => exact ⟨hi.pos, hij⟩
  | quadratic =>
    have hlower : 1 ≤ i.toInt := Int32.le_iff_toInt_le.mp hi.pos
    have hle : i.toInt ≤ j.toInt := Int32.le_iff_toInt_le.mp hij
    have hone : (1 : Int32).toInt = 1 := rfl
    rw [DecayCurve.multiplier, DecayCurve.multiplier, Int32.le_iff_toInt_le, Int32.le_iff_toInt_le,
      toInt_mul_self hi.pos (hi.le rfl), toInt_mul_self hj.pos (hj.le rfl), hone]
    exact ⟨one_le_mul_of_one_le_of_one_le hlower hlower, mul_le_mul hle hle (by omega) (by omega)⟩

/-- The weight at an admitted offset has no fault. -/
theorem weight?_of_admits (hcurve : curve.IsReciprocal) (h : curve.Admits i)
    (distance : Float32) : curve.weight? distance i = .ok (curve.weight distance i) := by
  apply DecayCurve.weight?_eq_ok
  obtain rfl | rfl := hcurve
  · rfl
  · have hsquare := toInt_mul_self h.pos (h.le rfl)
    have hlower : -2 ^ 31 ≤ (i * i).toInt := (i * i).le_toInt
    have hupper : (i * i).toInt < 2 ^ 31 := (i * i).toInt_lt
    have hfits : fits (i.toInt * i.toInt) = true := by
      rw [fits, Bool.and_eq_true, decide_eq_true_eq, decide_eq_true_eq, ← hsquare]
      omega
    exact if_pos hfits

end Offsets

section Weights

variable {curve : DecayCurve} {i j : Int32} {distance distance' : Float32}

theorem weight_eq_reciprocal (hcurve : curve.IsReciprocal) (distance : Float32) (i : Int32) :
    curve.weight distance i = 1 / (1 + single (curve.multiplier i) * distance) := by
  obtain rfl | rfl := hcurve
  · rfl
  · rfl

/-- What a distance is multiplied by is finite and positive. -/
theorem single_multiplier (h : curve.Admits i) :
    (single (curve.multiplier i)).isFinite = true ∧ 0 < single (curve.multiplier i) := by
  obtain ⟨hpos, -⟩ := multiplier_le h h (Int32.le_refl i)
  exact ⟨isFinite_single (Int32.le_trans (by decide) hpos), single_pos hpos⟩

/-- A weight lies between zero and one. -/
theorem weight_mem_unit (hcurve : curve.IsReciprocal) (h : curve.Admits i)
    (hdistance : 0 ≤ distance) :
    0 ≤ curve.weight distance i ∧ curve.weight distance i ≤ 1 := by
  obtain ⟨hfinite, hpos⟩ := single_multiplier h
  have hproduct := mul_nonneg_of_pos hfinite hpos hdistance
  rw [weight_eq_reciprocal hcurve]
  exact ⟨reciprocal_nonneg hproduct, reciprocal_le_one hproduct⟩

/-- A weight does not grow with the offset, nor with the distance. -/
theorem weight_le_weight (hcurve : curve.IsReciprocal) (hi : curve.Admits i) (hj : curve.Admits j)
    (hij : i ≤ j) (hdistance : 0 ≤ distance) (h : distance ≤ distance') :
    curve.weight distance' j ≤ curve.weight distance i := by
  obtain ⟨hfinite, hpos⟩ := single_multiplier hi
  obtain ⟨hfinite', -⟩ := single_multiplier hj
  obtain ⟨hone, hmultiplier⟩ := multiplier_le hi hj hij
  have hsingle : single (curve.multiplier i) ≤ single (curve.multiplier j) :=
    single_le_single (Int32.le_trans (by decide) hone) hmultiplier
  rw [weight_eq_reciprocal hcurve, weight_eq_reciprocal hcurve]
  exact reciprocal_le (mul_nonneg_of_pos hfinite hpos hdistance)
    (mul_le_mul_of_pos hfinite hfinite' hpos hsingle hdistance h)

end Weights

section Tables

/-- Every curve admits the offsets between two different lines. -/
theorem admits_ofNat (curve : DecayCurve) {k : Fin 13} (h : k ≠ 0) :
    curve.Admits (Int32.ofNat k.val) := by
  have hbounds : ∀ k : Fin 13, k ≠ 0 →
      1 ≤ Int32.ofNat k.val ∧ Int32.ofNat k.val ≤ 46340 := by decide
  obtain ⟨hpos, hle⟩ := hbounds k h
  exact ⟨hpos, fun _ => hle⟩

/-- A weight does not grow with the offset between two lines. -/
theorem weight_ofNat_le {curve : DecayCurve} (hcurve : curve.IsReciprocal) {distance : Float32}
    (hdistance : 0 ≤ distance) {k l : Fin 13} (hk : k ≠ 0) (h : k ≤ l) :
    curve.weight distance (Int32.ofNat l.val) ≤ curve.weight distance (Int32.ofNat k.val) := by
  have horder : ∀ k l : Fin 13, k ≤ l → Int32.ofNat k.val ≤ Int32.ofNat l.val := by decide
  have hl : l ≠ 0 := (lt_of_lt_of_le (Fin.pos_of_ne_zero hk) h).ne'
  have hself : distance ≤ distance := le_refl_single (nonneg_iff_value.mp hdistance).1
  exact weight_le_weight hcurve (admits_ofNat curve hk) (admits_ofNat curve hl) (horder k l h)
    hdistance hself

namespace Profile

variable (profile : Profile) {entry : Fin 25}

/-- Before the middle stand the weights of higher lines. -/
theorem get_weights_before (h : entry.val < 12) :
    profile.weights.get entry =
      profile.curve.weight profile.higher (Int32.ofNat (12 - entry.val)) :=
  (profile.getElem_weights entry).trans (if_pos h)

theorem get_weights_middle : profile.weights.get 12 = 1 := profile.getElem_weights 12

/-- Behind the middle stand the weights of lower lines. -/
theorem get_weights_behind (h : 12 < entry.val) :
    profile.weights.get entry =
      profile.curve.weight profile.lower (Int32.ofNat (entry.val - 12)) :=
  (profile.getElem_weights entry).trans ((if_neg (by omega)).trans (if_neg (by omega)))

end Profile

/-- A reciprocal curve with distance parameters that are not negative, and perhaps infinite. -/
structure Profile.Decaying (profile : Profile) : Prop where
  curve : profile.curve.IsReciprocal
  higher_nonneg : 0 ≤ profile.higher
  lower_nonneg : 0 ≤ profile.lower

/-- An entry is at least as far from the middle as another one on its side. -/
def Outside (outer inner : Fin 25) : Prop :=
  outer ≤ inner ∧ inner ≤ 12 ∨ 12 ≤ inner ∧ inner ≤ outer

namespace Profile.Decaying

variable {profile : Profile}

/-- The weights of such a profile lie between zero and one. -/
theorem entry_mem_unit (h : profile.Decaying) (entry : Fin 25) :
    0 ≤ profile.weights.get entry ∧ profile.weights.get entry ≤ 1 := by
  obtain hbefore | hmiddle | hbehind := Nat.lt_trichotomy entry.val 12
  · have hoffset : (⟨12 - entry.val, by omega⟩ : Fin 13) ≠ 0 := Fin.ne_of_val_ne (by simp; omega)
    rw [profile.get_weights_before hbefore]
    exact weight_mem_unit h.curve (admits_ofNat profile.curve hoffset) h.higher_nonneg
  · have hentry : entry = 12 := Fin.ext hmiddle
    rw [hentry, profile.get_weights_middle]
    exact ⟨by decide, by decide⟩
  · have hoffset : (⟨entry.val - 12, by omega⟩ : Fin 13) ≠ 0 := Fin.ne_of_val_ne (by simp; omega)
    rw [profile.get_weights_behind hbehind]
    exact weight_mem_unit h.curve (admits_ofNat profile.curve hoffset) h.lower_nonneg

/-- The weights of such a profile do not grow away from the middle. -/
theorem get_weights_le (h : profile.Decaying) {outer inner : Fin 25}
    (houter : Outside outer inner) :
    profile.weights.get outer ≤ profile.weights.get inner := by
  by_cases hmiddle : inner = 12
  · rw [hmiddle, profile.get_weights_middle]
    exact (h.entry_mem_unit outer).2
  have hne : inner.val ≠ 12 := fun heq => hmiddle (Fin.ext heq)
  obtain ⟨hfar, hnear⟩ | ⟨hnear, hfar⟩ := houter
  · have hfar : outer.val ≤ inner.val := hfar
    have hnear : inner.val ≤ 12 := hnear
    have hinner : inner.val < 12 := by omega
    have houter : outer.val < 12 := by omega
    have hoffset : (⟨12 - inner.val, by omega⟩ : Fin 13) ≠ 0 := Fin.ne_of_val_ne (by simp; omega)
    have horder : (⟨12 - inner.val, by omega⟩ : Fin 13) ≤ ⟨12 - outer.val, by omega⟩ :=
      Fin.mk_le_mk.mpr (by omega)
    rw [profile.get_weights_before houter, profile.get_weights_before hinner]
    have hle := weight_ofNat_le h.curve h.higher_nonneg hoffset horder
    exact hle
  · have hfar : inner.val ≤ outer.val := hfar
    have hnear : 12 ≤ inner.val := hnear
    have hinner : 12 < inner.val := by omega
    have houter : 12 < outer.val := by omega
    have hoffset : (⟨inner.val - 12, by omega⟩ : Fin 13) ≠ 0 := Fin.ne_of_val_ne (by simp; omega)
    have horder : (⟨inner.val - 12, by omega⟩ : Fin 13) ≤ ⟨outer.val - 12, by omega⟩ :=
      Fin.mk_le_mk.mpr (by omega)
    rw [profile.get_weights_behind houter, profile.get_weights_behind hinner]
    have hle := weight_ofNat_le h.curve h.lower_nonneg hoffset horder
    exact hle

end Profile.Decaying

end Tables

/-- On a linear or a quadratic curve and at positive offsets, whose squares fit into 32 bits where
they are needed, a weight has no fault and lies between zero and one, and it grows neither with the
offset nor with the distance. So the entries of a weight table lie between zero and one and do not
grow away from the one in the middle. By the smallest distance all weights of a table are one. -/
theorem weight_decays :
    (∀ curve : DecayCurve, curve.IsReciprocal → ∀ i j : Int32, 1 ≤ i → i ≤ j →
      (curve = .quadratic → j ≤ 46340) → ∀ distance : Float32, 0 ≤ distance →
        (curve.weight? distance i = .ok (curve.weight distance i) ∧
          curve.weight? distance j = .ok (curve.weight distance j)) ∧
        (0 ≤ curve.weight distance j ∧ curve.weight distance j ≤ curve.weight distance i ∧
          curve.weight distance i ≤ 1) ∧
        ∀ distance' : Float32, distance ≤ distance' →
          curve.weight distance' i ≤ curve.weight distance i) ∧
    (∀ profile : Profile, profile.Decaying →
      profile.weights.get 12 = 1 ∧
      (∀ entry : Fin 25, 0 ≤ profile.weights.get entry ∧ profile.weights.get entry ≤ 1) ∧
      ∀ outer inner : Fin 25, Outside outer inner →
        profile.weights.get outer ≤ profile.weights.get inner) ∧
    ∃ distance : Float32, 0 < distance ∧ ∀ curve : DecayCurve, curve.IsReciprocal →
      ∀ k : Fin 13, curve.weight distance (Int32.ofNat k.val) = 1 := by
  refine ⟨?_, ?_, ?_⟩
  · intro curve hcurve i j hpos hij hsquare distance hdistance
    have hj : curve.Admits j := ⟨Int32.le_trans hpos hij, hsquare⟩
    have hi : curve.Admits i := ⟨hpos, fun hquadratic => Int32.le_trans hij (hsquare hquadratic)⟩
    have hself : distance ≤ distance := le_refl_single (nonneg_iff_value.mp hdistance).1
    refine ⟨⟨weight?_of_admits hcurve hi distance, weight?_of_admits hcurve hj distance⟩,
      ⟨(weight_mem_unit hcurve hj hdistance).1,
        weight_le_weight hcurve hi hj hij hdistance hself,
        (weight_mem_unit hcurve hi hdistance).2⟩, ?_⟩
    intro distance' hfurther
    exact weight_le_weight hcurve hi hi (Int32.le_refl i) hdistance hfurther
  · intro profile h
    exact ⟨profile.get_weights_middle, h.entry_mem_unit, fun _ _ => h.get_weights_le⟩
  · refine ⟨Float32.ofBits 1, by decide, ?_⟩
    rintro curve (rfl | rfl)
    · decide +kernel
    · decide +kernel

/-- By an infinite distance the weights vanish, also at the last offset whose square fits. In a
table with such a parameter on one side the entries do not grow away from the middle. -/
theorem weight_decays_infinite :
    let infinite : Float32 := 1 / 0
    let profile : Profile := ⟨.quadratic, 0, 1, 0, infinite, 0.25⟩
    (DecayCurve.quadratic.IsReciprocal ∧ (1 : Int32) ≤ 2 ∧ (2 : Int32) ≤ 46340 ∧
      0 ≤ infinite ∧ (0.25 : Float32) ≤ infinite ∧ (0 : Float32) ≤ 0.25) ∧
    DecayCurve.quadratic.weight? infinite 46340 = .ok 0 ∧
    DecayCurve.quadratic.weight infinite 46340 ≤ DecayCurve.quadratic.weight infinite 2 ∧
    DecayCurve.quadratic.weight infinite 2 ≤ DecayCurve.quadratic.weight 0.25 2 ∧
    (profile.Decaying ∧ Outside 3 11 ∧ Outside 20 14) ∧
    profile.weights.get 3 ≤ profile.weights.get 11 ∧
    profile.weights.get 20 ≤ profile.weights.get 14 := by
  intro infinite profile
  obtain ⟨hweights, htables, -⟩ := weight_decays
  have hcurve : DecayCurve.quadratic.IsReciprocal := Or.inr rfl
  have horder : (1 : Int32) ≤ 2 ∧ (2 : Int32) ≤ 46340 := by decide
  have hinfinite : 0 ≤ infinite ∧ (0.25 : Float32) ≤ infinite ∧ (0 : Float32) ≤ 0.25 := by decide
  have hprofile : profile.Decaying := ⟨hcurve, hinfinite.1, hinfinite.2.2⟩
  have houtside : Outside 3 11 ∧ Outside 20 14 := by
    rw [Outside, Outside]
    decide
  obtain ⟨⟨-, hlast⟩, ⟨-, hoffsets, -⟩, -⟩ :=
    hweights .quadratic hcurve 2 46340 horder.1 horder.2 (fun _ => by decide) infinite hinfinite.1
  obtain ⟨-, -, hdistances⟩ := hweights .quadratic hcurve 2 2 horder.1 (Int32.le_refl 2)
    (fun _ => horder.2) 0.25 hinfinite.2.2
  have hvanishes : DecayCurve.quadratic.weight infinite 46340 = 0 := by decide +kernel
  obtain ⟨-, -, hentries⟩ := htables profile hprofile
  exact ⟨⟨hcurve, horder.1, horder.2, hinfinite⟩, hvanishes ▸ hlast, hoffsets,
    hdistances infinite hinfinite.2.1, ⟨hprofile, houtside⟩, hentries 3 11 houtside.1,
    hentries 20 14 houtside.2⟩

end SidVoice.Pulldown
