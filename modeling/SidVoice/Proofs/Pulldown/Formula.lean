import SidVoice.Proofs.Pulldown.Lines
import SidVoice.Pulldown.Fitted
import SidVoice.Table.Combined

/-!
# A formula for each bit

The pulldown of a phase is worked out from a weight table. The formula for one bit has no table:
it takes the weight of another line straight from the decay curve, with the distance parameter
for higher lines if the other line is higher, and the one for lower lines otherwise. Both give
the same bit for every profile with a threshold that is not below zero and a positive factor on
the top line.

The sums of the formula are single-precision sums in ascending order, as those of the sample;
nothing is said about sums in another order.
-/

namespace SidVoice.Pulldown

/-- The sum of the terms of all lines but one, in ascending order. -/
def sumOthers (line : Line) (term : Line → Float32) : Float32 :=
  (List.finRange 12).foldl (fun sum other => if other = line then sum else sum + term other) 0

namespace Profile

/-- The weight of another line on a line, by the side on which the other line is. -/
def lineWeight (profile : Profile) (line other : Line) : Float32 :=
  if line < other then profile.curve.weight profile.higher (Int32.ofNat (other.val - line.val))
  else profile.curve.weight profile.lower (Int32.ofNat (line.val - other.val))

/-- What the formula takes for a line: one or zero by the bit of the phase, and bit 11 times the
factor. -/
def bitValue (profile : Profile) (phase : Phase) (line : Line) : Float32 :=
  let bit : Float32 := if phase.val.testBit line.val then 1 else 0
  if line.val = 11 then bit * profile.topBit else bit

/-- What a high line keeps by the formula: one, less the average pull of the other lines. -/
def kept (profile : Profile) (phase : Phase) (line : Line) : Float32 :=
  let lack := sumOthers line fun other =>
    (1 - profile.bitValue phase other) * profile.lineWeight line other
  1 - (lack - profile.pulse) / sumOthers line (profile.lineWeight line)

end Profile

/-- A sum over the list of the other lines skips the line itself. -/
theorem foldl_others (line : Line) (term : Line → Float32) :
    (others line).foldl (fun sum other => sum + term other) 0 = sumOthers line term := by
  rw [others_eq_filter, List.foldl_filter, sumOthers]
  congr 1
  funext sum other
  by_cases h : other = line
  · simp [h]
  · simp [h]

/-- A sum over the other lines does not depend on the term of the line itself. -/
theorem sumOthers_congr {line : Line} {term term' : Line → Float32}
    (h : ∀ other, other ≠ line → term other = term' other) :
    sumOthers line term = sumOthers line term' := by
  rw [sumOthers, sumOthers]
  congr 1
  funext sum other
  by_cases heq : other = line
  · rw [if_pos heq, if_pos heq]
  · rw [if_neg heq, if_neg heq, h other heq]

section Congruence

variable {weights weights' : WeightTable} {levels levels' : Line → Float32} {line : Line}

/-- The pull on a line depends on the weights of the other lines, and on what these lack. -/
theorem pull_congr
    (hweights : ∀ other, other ≠ line →
      weights.between line other = weights'.between line other)
    (hlevels : ∀ other, 1 - levels other = 1 - levels' other) :
    pull weights levels line = pull weights' levels' line := by
  rw [pull, pull, foldl_others line fun other => (1 - levels other) * weights.between line other,
    foldl_others line fun other => (1 - levels' other) * weights'.between line other]
  apply sumOthers_congr
  intro other hne
  rw [hweights other hne, hlevels other]

/-- The influence on a line depends on the weights of the other lines. -/
theorem influence_congr
    (hweights : ∀ other, other ≠ line →
      weights.between line other = weights'.between line other) :
    influence weights line = influence weights' line := by
  rw [influence, influence, foldl_others line (weights.between line),
    foldl_others line (weights'.between line)]
  exact sumOthers_congr hweights

end Congruence

section Weights

variable (profile : Profile) {line other : Line}

/-- The table entry for two different lines is the weight of the one on the other. -/
theorem between_weights (h : other ≠ line) :
    profile.weights.between line other = profile.lineWeight line other := by
  have hne : other.val ≠ line.val := fun heq => h (Fin.ext heq)
  have hentry : line.val + 12 - other.val < 25 := by omega
  have hat : profile.weights.between line other =
      profile.weightEntry ⟨line.val + 12 - other.val, hentry⟩ :=
    profile.getElem_weights ⟨line.val + 12 - other.val, hentry⟩
  rw [hat, Profile.weightEntry, Profile.lineWeight]
  by_cases hside : line < other
  · have hlt : line.val < other.val := hside
    have hlow : line.val + 12 - other.val < 12 := by omega
    have hoffset : 12 - (line.val + 12 - other.val) = other.val - line.val := by omega
    rw [if_pos hlow, if_pos hside, hoffset]
  · have hlt : other.val < line.val := by
      have hle : ¬ line.val < other.val := hside
      omega
    have hnotLow : ¬ line.val + 12 - other.val < 12 := by omega
    have hnotMiddle : ¬ line.val + 12 - other.val = 12 := by omega
    have hoffset : line.val + 12 - other.val - 12 = line.val - other.val := by omega
    rw [if_neg hnotLow, if_neg hnotMiddle, if_neg hside, hoffset]

theorem pull_weights (levels : Line → Float32) (line : Line) :
    pull profile.weights levels line =
      sumOthers line fun other => (1 - levels other) * profile.lineWeight line other := by
  rw [pull, foldl_others line fun other => (1 - levels other) * profile.weights.between line other]
  apply sumOthers_congr
  intro other hne
  rw [between_weights profile hne]

theorem influence_weights (line : Line) :
    influence profile.weights line = sumOthers line (profile.lineWeight line) := by
  rw [influence, foldl_others line (profile.weights.between line)]
  exact sumOthers_congr fun other hne => between_weights profile hne

/-- The level of a line is what the formula takes for it. -/
theorem level_word (phase : Phase) : level profile.topBit phase.word = profile.bitValue phase := by
  funext line
  have htop : line = 11 ↔ line.val = 11 := Fin.ext_iff
  simp only [level, Profile.bitValue, Phase.toNat_word, htop]

/-- What the table leaves of a high line is what the formula keeps of it. -/
theorem one_sub_pulldown (phase : Phase) (line : Line) :
    1 - pulldown profile.weights profile.pulse (level profile.topBit phase.word) line =
      profile.kept phase line := by
  rw [pulldown, pull_weights, influence_weights, level_word, Profile.kept]

end Weights

/-- With a positive factor on the top line, the lines with a positive level are those whose phase
bit is set. -/
theorem level_pos_iff {topBit : Float32} (htop : 0 < topBit) (phase : UInt16) (line : Line) :
    level topBit phase line > 0 ↔ phase.toNat.testBit line.val = true := by
  have hone : (1 : Float32) > 0 := by decide
  by_cases hbit : phase.toNat.testBit line.val = true
  · simp only [level, if_pos hbit]
    rw [iff_true_right hbit]
    split
    · rw [Number.one_mul_single]
      exact htop
    · exact hone
  · exact iff_of_false (not_level_pos topBit (Bool.eq_false_iff.mpr hbit)) hbit

/-- A line reads as one exactly if its phase bit is set and what it keeps exceeds the threshold. -/
theorem reads_iff {profile : Profile} (hthreshold : ¬ profile.threshold < 0)
    (htop : 0 < profile.topBit) (phase : Phase) (line : Line) :
    reads profile.weights profile.pulse profile.threshold (level profile.topBit phase.word) line =
        true ↔
      phase.val.testBit line.val = true ∧ profile.kept phase line > profile.threshold := by
  rw [reads, decide_eq_true_iff, remaining, one_sub_pulldown]
  have hlevel := level_pos_iff htop phase.word line
  rw [Phase.toNat_word] at hlevel
  by_cases hbit : phase.val.testBit line.val = true
  · rw [if_pos (hlevel.mpr hbit), and_iff_right hbit]
  · rw [if_neg (fun hpos => hbit (hlevel.mp hpos)), iff_false_right (fun h => hbit h.1)]
    exact hthreshold

/-- A bit of a row is set exactly if the phase has it and what the formula keeps of its line
exceeds the threshold, and the table of five profiles has their rows in order. -/
theorem testBit_row_iff :
    (∀ profile : Profile, ¬ profile.threshold < 0 → 0 < profile.topBit →
      ∀ (phase : Phase) (line : Line),
        ((pulldownRow profile).get phase).toUInt16.toNat.testBit line.val = true ↔
          phase.val.testBit line.val = true ∧ profile.kept phase line > profile.threshold) ∧
    ∀ (profiles : Vector Profile 5) (row : Fin 5),
      (combinedTable profiles).get row = pulldownRow (profiles.get row) := by
  constructor
  · intro profile hthreshold htop phase line
    rw [get_pulldownRow, testBit_sample]
    exact reads_iff hthreshold htop phase line
  · intro profiles row
    rw [get_combinedTable]
    rfl

/-- The top bit of the last phase survives in a sawtooth with a pulse on an average 6581. -/
theorem testBit_row_averagePulseSawtooth :
    let profile := fitted ⟨.mos6581, .average⟩ .pulseSawtooth
    let last : Phase := ⟨0xfff, by decide⟩
    (¬ profile.threshold < 0 ∧ 0 < profile.topBit) ∧
      ((pulldownRow profile).get last).toUInt16.toNat.testBit 11 = true ∧
      (combinedTable (Vector.replicate 5 profile)).get 3 = pulldownRow profile := by
  intro profile last
  have hthreshold : ¬ profile.threshold < 0 := by decide
  have htop : 0 < profile.topBit := by decide
  have hkept : profile.kept last 11 > profile.threshold := by decide +kernel
  have hget : ∀ same : Profile, (Vector.replicate 5 same).get 3 = same := fun _ => rfl
  obtain ⟨hbits, hrows⟩ := testBit_row_iff
  refine ⟨⟨hthreshold, htop⟩, (hbits profile hthreshold htop last 11).mpr ⟨by decide, hkept⟩, ?_⟩
  rw [hrows (Vector.replicate 5 profile) 3, hget profile]

end SidVoice.Pulldown
