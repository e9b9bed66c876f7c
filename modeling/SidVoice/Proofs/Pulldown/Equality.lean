import SidVoice.Proofs.Pulldown.Reciprocal

/-!
# Equal profiles have equal rows

Profiles are compared by their numbers, so equal ones may differ in the signs of zeros. No row shows
it. A threshold is only compared with, a factor is compared or taken off a one, and a pulse makes a
pull a zero of the other sign at most, which is taken off a one too. A reciprocal curve adds a
product with its distance to a one.

The powers of a zero distance are infinities, whose signs do differ, so the weight tables of equal
profiles are not equal. But a line that an infinite weight reaches has neither a finite pull nor a
finite influence, whatever the signs are, and their quotient is not a number.

Of the power nothing else counts: it is a parameter up to the last step, any function of the
distance and the exponent that is infinite for a zero and the exponents of a weight table.
-/

namespace SidVoice.Pulldown

open Number

section Sums

variable {weights : WeightTable} {line other : Line}

/-- A line that a weight reaches which is not finite has no pulldown. -/
theorem isNaN_pulldown (hne : other ≠ line) (h : ¬ (weights.between line other).isFinite = true)
    (pulse : Float32) (levels : Line → Float32) :
    (pulldown weights pulse levels line).isNaN = true := by
  have hother := mem_others.mpr hne
  apply isNaN_div
  · intro hpull
    obtain ⟨hpull, -⟩ := isFinite_of_sub hpull
    obtain ⟨-, hterms⟩ := isFinite_of_foldl hpull
    exact h (isFinite_of_mul (hterms other hother)).2
  · intro hinfluence
    obtain ⟨-, hterms⟩ := isFinite_of_foldl hinfluence
    exact h (hterms other hother)

end Sums

section Weights

/-- The same weight, or two weights that are not finite. -/
def Interchangeable (weight weight' : Float32) : Prop :=
  weight = weight' ∨ ¬ weight.isFinite = true ∧ ¬ weight'.isFinite = true

/-- What is taken of a power: for a zero of either sign and the exponents of a weight table it is an
infinity of some sign. -/
def InfiniteAtZero (pow : Float32 → Int → Float32) : Prop :=
  ∀ base, IsZero base → ∀ exponent : Int, -12 ≤ exponent → exponent < 0 →
    ∃ negative, pow base exponent = infinity negative

theorem infiniteAtZero_power : InfiniteAtZero power := by
  intro base hbase exponent _ h
  obtain rfl | rfl := hbase
  · refine ⟨false, ?_⟩
    rw [power, if_neg h.ne, if_neg (by decide)]
    exact if_pos h
  · refine ⟨exponent % 2 == 1, ?_⟩
    rw [power, if_neg h.ne, if_neg (by decide)]
    exact if_pos h

theorem InfiniteAtZero.not_isFinite {pow : Float32 → Int → Float32} (hpow : InfiniteAtZero pow)
    {base : Float32} (hbase : IsZero base) {exponent : Int} (hleast : -12 ≤ exponent)
    (h : exponent < 0) : ¬ (pow base exponent).isFinite = true := by
  have hinfinite : ∀ negative : Bool, ¬ (infinity negative).isFinite = true := by decide
  obtain ⟨negative, heq⟩ := hpow base hbase exponent hleast h
  rw [heq]
  exact hinfinite negative

/-- The weight of a curve at an offset, by a power. -/
def weightBy (pow : Float32 → Int → Float32) (curve : DecayCurve) (distance : Float32)
    (offset : Int32) : Float32 :=
  match curve with
  | .exponential => pow distance (-offset).toInt
  | .linear | .quadratic => curve.weight distance offset

theorem weightBy_power (curve : DecayCurve) (distance : Float32) (offset : Int32) :
    weightBy power curve distance offset = curve.weight distance offset := by
  cases curve <;> rfl

/-- The weight of another line on a line by a profile and a power. -/
def lineWeightBy (pow : Float32 → Int → Float32) (profile : Profile) (line other : Line) :
    Float32 :=
  if line < other then
    weightBy pow profile.curve profile.higher (Int32.ofNat (other.val - line.val))
  else weightBy pow profile.curve profile.lower (Int32.ofNat (line.val - other.val))

/-- Whether the weights between different lines are those of a profile by a power. -/
def Follows (pow : Float32 → Int → Float32) (profile : Profile) (weights : WeightTable) : Prop :=
  ∀ line other, other ≠ line → weights.between line other = lineWeightBy pow profile line other

theorem follows_weights (profile : Profile) : Follows power profile profile.weights := by
  intro line other hne
  rw [between_weights profile hne, Profile.lineWeight, lineWeightBy, weightBy_power,
    weightBy_power]

variable {pow : Float32 → Int → Float32}

/-- On a reciprocal curve all zeros have the same weights. -/
theorem weight_eq_of_isZero {curve : DecayCurve} (hcurve : curve.IsReciprocal) {k : Fin 13}
    (hk : k ≠ 0) {zero zero' : Float32} (h : IsZero zero) (h' : IsZero zero') :
    curve.weight zero (Int32.ofNat k.val) = curve.weight zero' (Int32.ofNat k.val) := by
  obtain ⟨hfinite, -⟩ := single_multiplier (admits_ofNat curve hk)
  rw [weight_eq_reciprocal hcurve, weight_eq_reciprocal hcurve, (h.mul_left hfinite).one_add,
    (h'.mul_left hfinite).one_add]

/-- Distances that are alike have interchangeable weights at all offsets between two lines. -/
theorem interchangeable_weight (hpow : InfiniteAtZero pow) {distance distance' : Float32}
    (h : Alike distance distance') (curve : DecayCurve) (offset : Fin 13) (hoffset : offset ≠ 0) :
    Interchangeable (weightBy pow curve distance (Int32.ofNat offset.val))
      (weightBy pow curve distance' (Int32.ofNat offset.val)) := by
  cases h with
  | same => exact Or.inl rfl
  | zeros hzero hzero' =>
    cases curve with
    | exponential =>
      have hexponent : ∀ k : Fin 13, k ≠ 0 →
          -12 ≤ (-Int32.ofNat k.val).toInt ∧ (-Int32.ofNat k.val).toInt < 0 := by decide
      obtain ⟨hleast, hnegative⟩ := hexponent offset hoffset
      exact Or.inr ⟨hpow.not_isFinite hzero hleast hnegative,
        hpow.not_isFinite hzero' hleast hnegative⟩
    | linear => exact Or.inl (weight_eq_of_isZero (.inl rfl) hoffset hzero hzero')
    | quadratic => exact Or.inl (weight_eq_of_isZero (.inr rfl) hoffset hzero hzero')

/-- The weight of one line on another is the same by profiles with alike distances, or not finite.
-/
theorem interchangeable_lineWeight (hpow : InfiniteAtZero pow) {profile profile' : Profile}
    (hcurve : profile.curve = profile'.curve) (hhigher : Alike profile.higher profile'.higher)
    (hlower : Alike profile.lower profile'.lower) {line other : Line} (hne : other ≠ line) :
    Interchangeable (lineWeightBy pow profile line other)
      (lineWeightBy pow profile' line other) := by
  have hval : other.val ≠ line.val := fun heq => hne (Fin.ext heq)
  rw [lineWeightBy, lineWeightBy, hcurve]
  by_cases hside : line < other
  · have hlt : line.val < other.val := hside
    rw [if_pos hside, if_pos hside]
    exact interchangeable_weight hpow hhigher profile'.curve ⟨other.val - line.val, by omega⟩
      (Fin.ne_of_val_ne (by simp; omega))
  · have hlt : other.val < line.val := by
      have hle : ¬ line.val < other.val := hside
      omega
    rw [if_neg hside, if_neg hside]
    exact interchangeable_weight hpow hlower profile'.curve ⟨line.val - other.val, by omega⟩
      (Fin.ne_of_val_ne (by simp; omega))

end Weights

section Lines

variable {weights weights' : WeightTable} {levels levels' : Line → Float32}
  {pulse pulse' threshold threshold' : Float32} {line : Line}

/-- Interchangeable weights with alike levels and pulses make alike pulldowns. -/
theorem alike_pulldown
    (hweights : ∀ other, other ≠ line →
      Interchangeable (weights.between line other) (weights'.between line other))
    (hlevels : ∀ other, Alike (levels other) (levels' other)) (hpulse : Alike pulse pulse') :
    Alike (pulldown weights pulse levels line) (pulldown weights' pulse' levels' line) := by
  by_cases hfinite : ∀ other, other ≠ line → (weights.between line other).isFinite = true
  · have hsame : ∀ other, other ≠ line →
        weights.between line other = weights'.between line other := fun other hne =>
      (hweights other hne).resolve_right fun hinfinite => hinfinite.1 (hfinite other hne)
    rw [pulldown, pulldown, pull_congr hsame fun other => (hlevels other).one_sub_eq,
      influence_congr hsame]
    exact (hpulse.sub_left _).div_right _
  · obtain ⟨other, hother⟩ := not_forall.mp hfinite
    obtain ⟨hne, hinfinite⟩ := Classical.not_imp.mp hother
    have hinfinite' : ¬ (weights'.between line other).isFinite = true := by
      obtain hsame | ⟨-, hinfinite'⟩ := hweights other hne
      · rwa [← hsame]
      · exact hinfinite'
    rw [eq_of_isNaN (isNaN_pulldown hne hinfinite pulse levels)
      (isNaN_pulldown hne hinfinite' pulse' levels')]
    exact .same _

/-- A line reads the same by interchangeable weights with alike levels, pulses and thresholds. -/
theorem reads_eq_of_alike
    (hweights : ∀ other, other ≠ line →
      Interchangeable (weights.between line other) (weights'.between line other))
    (hlevels : ∀ other, Alike (levels other) (levels' other)) (hpulse : Alike pulse pulse')
    (hthreshold : Alike threshold threshold') :
    reads weights pulse threshold levels line = reads weights' pulse' threshold' levels' line := by
  have hremaining : remaining weights pulse levels line =
      remaining weights' pulse' levels' line := by
    rw [remaining, remaining, (alike_pulldown hweights hlevels hpulse).one_sub_eq]
    exact if_congr (hlevels line).gt_iff rfl rfl
  rw [reads, reads, hremaining]
  exact decide_eq_decide.mpr hthreshold.lt_iff

/-- Factors that are alike make alike levels. -/
theorem alike_level {topBit topBit' : Float32} (h : Alike topBit topBit') (phase : UInt16)
    (line : Line) : Alike (level topBit phase line) (level topBit' phase line) := by
  rw [level, level]
  by_cases htop : line = 11
  · rw [if_pos htop, if_pos htop]
    apply h.mul_left
    split <;> decide
  · rw [if_neg htop, if_neg htop]
    exact .same _

end Lines

section Profiles

variable {profile profile' : Profile}

/-- Equal profiles have the same curve, and their numbers compare as equal. -/
theorem beq_profile (h : (profile == profile') = true) :
    profile.curve = profile'.curve ∧ (profile.threshold == profile'.threshold) = true ∧
      (profile.topBit == profile'.topBit) = true ∧ (profile.pulse == profile'.pulse) = true ∧
      (profile.higher == profile'.higher) = true ∧ (profile.lower == profile'.lower) = true := by
  have hfields : (profile.curve == profile'.curve &&
      (profile.threshold == profile'.threshold && (profile.topBit == profile'.topBit &&
        (profile.pulse == profile'.pulse && (profile.higher == profile'.higher &&
          profile.lower == profile'.lower))))) = true := h
  simpa only [Bool.and_eq_true, beq_iff_eq] using hfields

/-- Equal profiles have the same samples, by whatever power their weights are worked out. -/
theorem sample_eq_of_beq {pow : Float32 → Int → Float32} (hpow : InfiniteAtZero pow)
    (h : (profile == profile') = true) {weights weights' : WeightTable}
    (hweights : Follows pow profile weights) (hweights' : Follows pow profile' weights')
    (phase : UInt16) :
    sample weights profile.topBit profile.pulse profile.threshold phase =
      sample weights' profile'.topBit profile'.pulse profile'.threshold phase := by
  obtain ⟨hcurve, hthreshold, htop, hpulse, hhigher, hlower⟩ := beq_profile h
  have hbetween {line other : Line} (hne : other ≠ line) :
      Interchangeable (weights.between line other) (weights'.between line other) := by
    rw [hweights line other hne, hweights' line other hne]
    exact interchangeable_lineWeight hpow hcurve (alike_of_beq hhigher) (alike_of_beq hlower) hne
  have hreads : reads weights profile.pulse profile.threshold (level profile.topBit phase) =
      reads weights' profile'.pulse profile'.threshold (level profile'.topBit phase) := by
    funext line
    exact reads_eq_of_alike (fun other hne => hbetween hne)
      (alike_level (alike_of_beq htop) phase) (alike_of_beq hpulse) (alike_of_beq hthreshold)
  rw [sample, sample, hreads]

/-- Equal profiles have the same row. -/
theorem pulldownRow_eq (h : (profile == profile') = true) :
    pulldownRow profile = pulldownRow profile' := by
  rw [pulldownRow, pulldownRow]
  refine congrArg Vector.ofFn (funext fun phase => ?_)
  exact sample_eq_of_beq infiniteAtZero_power h (follows_weights profile)
    (follows_weights profile') phase.word

/-- Whether one of the parameters of a profile is not a number. -/
def holdsNaN (profile : Profile) : Bool :=
  [profile.threshold, profile.topBit, profile.pulse, profile.higher, profile.lower].any (·.isNaN)

/-- The parameters of equal profiles are numbers. -/
theorem holdsNaN_of_beq (h : (profile == profile') = true) :
    holdsNaN profile = false ∧ holdsNaN profile' = false := by
  obtain ⟨-, hthreshold, htop, hpulse, hhigher, hlower⟩ := beq_profile h
  obtain ⟨ht, ht'⟩ := isNumber_of_beq hthreshold
  obtain ⟨hb, hb'⟩ := isNumber_of_beq htop
  obtain ⟨hp, hp'⟩ := isNumber_of_beq hpulse
  obtain ⟨hh, hh'⟩ := isNumber_of_beq hhigher
  obtain ⟨hl, hl'⟩ := isNumber_of_beq hlower
  rw [IsNumber] at ht ht' hb hb' hp hp' hh hh' hl hl'
  simp only [holdsNaN, List.any_cons, List.any_nil, ht, ht', hb, hb', hp, hp', hh, hh', hl, hl',
    Bool.or_self, and_self]

end Profiles

/-- Profiles that compare as equal have the same row, so lists of five that do so one by one have
the same table. A profile that holds something that is not a number is equal to none. -/
theorem row_eq_of_beq :
    (∀ profile profile' : Profile, (profile == profile') = true →
      pulldownRow profile = pulldownRow profile') ∧
    (∀ profiles profiles' : Vector Profile 5,
      (∀ row : Fin 5, (profiles.get row == profiles'.get row) = true) →
      combinedTable profiles = combinedTable profiles') ∧
    ∀ profile : Profile, holdsNaN profile = true →
      ∀ profile' : Profile, (profile == profile') = false ∧ (profile' == profile) = false := by
  refine ⟨fun profile profile' h => pulldownRow_eq h, ?_, ?_⟩
  · intro profiles profiles' h
    apply SampleMatrix.ext
    intro row phase
    have hrow : pulldownRow (profiles.get row) = pulldownRow (profiles'.get row) :=
      pulldownRow_eq (h row)
    rw [SampleMatrix.cell, SampleMatrix.cell, get_combinedTable, get_combinedTable]
    exact congrArg (Vector.get · phase) hrow
  · intro profile hnan profile'
    rw [Bool.eq_false_iff, Bool.eq_false_iff]
    constructor
    · intro h
      exact Bool.false_ne_true ((holdsNaN_of_beq h).1.symm.trans hnan)
    · intro h
      exact Bool.false_ne_true ((holdsNaN_of_beq h).2.symm.trans hnan)

/-- Two profiles that differ in the signs of their zeros have different weight tables, and the same
row; a profile without a number for its pulse is equal to neither. -/
theorem row_eq_of_beq_signedZeros :
    let profile : Profile := ⟨.exponential, 0, -0, 0, -0, 2⟩
    let profile' : Profile := ⟨.exponential, -0, 0, -0, 0, 2⟩
    let empty : Profile := ⟨.linear, 0, 1, 0 / 0, 1, 1⟩
    profile.weights.get 11 ≠ profile'.weights.get 11 ∧
      ((profile == profile') = true ∧ pulldownRow profile = pulldownRow profile') ∧
      ((∀ row : Fin 5, ((Vector.replicate 5 profile).get row ==
          (Vector.replicate 5 profile').get row) = true) ∧
        combinedTable (Vector.replicate 5 profile) =
          combinedTable (Vector.replicate 5 profile')) ∧
      (holdsNaN empty = true ∧ (empty == profile) = false) := by
  intro profile profile' empty
  obtain ⟨hrow, htable, hnone⟩ := row_eq_of_beq
  have hbeq : (profile == profile') = true := by decide
  have hrows : ∀ row : Fin 5, ((Vector.replicate 5 profile).get row ==
      (Vector.replicate 5 profile').get row) = true := by decide
  have hnan : holdsNaN empty = true := by decide
  exact ⟨by decide +kernel, ⟨hbeq, hrow profile profile' hbeq⟩,
    ⟨hrows, htable (Vector.replicate 5 profile) (Vector.replicate 5 profile') hrows⟩,
    hnan, (hnone empty hnan profile).1⟩

end SidVoice.Pulldown
