import SidVoice.Proofs.Pulldown.Formula

/-!
# The pulldown clears lines

Loading takes lines away and adds none: with a threshold that is not below zero, a sample has no
bit that its phase lacks. What is left of a line that is not high is nothing, and nothing does not
exceed such a threshold. It does exceed one below zero, and then every line that is clear in the
phase is set in the sample.

Weights, factor, pulse and threshold are any single-precision values here, infinities and what is
not a number included. Which of the set lines survive is not said.
-/

namespace SidVoice.Pulldown

section Clearing

variable (weights : WeightTable) (topBit pulse threshold : Float32) {phase : UInt16} {line : Line}

/-- Of a line whose phase bit is clear nothing remains. -/
theorem remaining_eq_zero (h : phase.toNat.testBit line.val = false) :
    remaining weights pulse (level topBit phase) line = 0 :=
  if_neg (not_level_pos topBit h)

/-- A line whose phase bit is clear reads as one only by a threshold below zero. -/
theorem reads_of_clear (h : phase.toNat.testBit line.val = false) :
    reads weights pulse threshold (level topBit phase) line = decide (threshold < 0) := by
  rw [reads, remaining_eq_zero weights topBit pulse h]

/-- With a threshold that is not below zero, a sample has no bit that its phase lacks. -/
theorem sample_and_not (hthreshold : ¬ threshold < 0) (phase : UInt16) :
    (sample weights topBit pulse threshold phase).toUInt16 &&& ~~~phase = 0 := by
  apply and_not_eq_zero (toNat_sample_lt weights topBit pulse threshold phase)
  intro line hline
  rw [testBit_sample] at hline
  cases hbit : phase.toNat.testBit line.val with
  | true => rfl
  | false =>
    rw [reads_of_clear weights topBit pulse threshold hbit, decide_eq_true_eq] at hline
    exact absurd hline hthreshold

/-- With a threshold below zero, a sample has every line that its phase lacks. -/
theorem testBit_sample_of_clear (hthreshold : threshold < 0)
    (h : phase.toNat.testBit line.val = false) :
    (sample weights topBit pulse threshold phase).toUInt16.toNat.testBit line.val = true := by
  rw [testBit_sample, reads_of_clear weights topBit pulse threshold h]
  exact decide_eq_true hthreshold

/-- The sample of a phase without lines has none. -/
theorem sample_zero (hthreshold : ¬ threshold < 0) :
    sample weights topBit pulse threshold 0 = 0 := by
  apply sample_eq_zero
  intro line
  have hclear : (0 : UInt16).toNat.testBit line.val = false := Nat.zero_testBit line.val
  rw [reads_of_clear weights topBit pulse threshold hclear]
  exact decide_eq_false hthreshold

end Clearing

/-- No fitted threshold is below zero. -/
theorem not_fitted_threshold_neg (setup : Setup) (combination : Combination) :
    ¬ (fitted setup combination).threshold < 0 := by
  obtain ⟨chip, strength⟩ := setup
  cases chip <;> cases strength <;> cases combination <;> decide

/-- A cell of a table has no bit that its phase lacks, if the threshold of its row is not below
zero. -/
theorem cell_and_not {profiles : Vector Profile 5} {row : Fin 5}
    (h : ¬ (profiles.get row).threshold < 0) (phase : Phase) :
    ((combinedTable profiles).cell row phase).toUInt16 &&& ~~~phase.word = 0 := by
  rw [SampleMatrix.cell, get_combinedTable, get_pulldownRow]
  exact sample_and_not _ _ _ _ h phase.word

/-- A sample has twelve bits. It has none that its phase lacks unless the threshold is below zero,
and all that its phase lacks if it is; so the cells of a table whose thresholds are not below zero
have no bit that their phase lacks, and every fitted table is one. -/
theorem sample_clears :
    (∀ (weights : WeightTable) (topBit pulse threshold : Float32) (phase : UInt16),
      (0 ≤ sample weights topBit pulse threshold phase ∧
        sample weights topBit pulse threshold phase ≤ 0xfff) ∧
      (¬ threshold < 0 →
        (sample weights topBit pulse threshold phase).toUInt16 &&& ~~~phase = 0 ∧
        sample weights topBit pulse threshold 0 = 0) ∧
      (threshold < 0 → ∀ line : Line, phase.toNat.testBit line.val = false →
        (sample weights topBit pulse threshold phase).toUInt16.toNat.testBit line.val = true)) ∧
    (∀ profiles : Vector Profile 5, (∀ row : Fin 5, ¬ (profiles.get row).threshold < 0) →
      ∀ (row : Fin 5) (phase : Phase),
        ((combinedTable profiles).cell row phase).toUInt16 &&& ~~~phase.word = 0) ∧
    ∀ (setup : Setup) (row : Fin 5) (phase : Phase),
      (setup.table.cell row phase).toUInt16 &&& ~~~phase.word = 0 := by
  refine ⟨?_, ?_, ?_⟩
  · intro weights topBit pulse threshold phase
    refine ⟨sample_bounds weights topBit pulse threshold phase, ?_, ?_⟩
    · intro hthreshold
      exact ⟨sample_and_not weights topBit pulse threshold hthreshold phase,
        sample_zero weights topBit pulse threshold hthreshold⟩
    · intro hthreshold line hline
      exact testBit_sample_of_clear weights topBit pulse threshold hthreshold hline
  · intro profiles h row phase
    exact cell_and_not (h row) phase
  · intro setup row phase
    have hthreshold : ¬ (setup.profiles.get row).threshold < 0 := by
      rw [setup.get_profiles]
      exact not_fitted_threshold_neg setup (.ofRow row)
    exact cell_and_not hthreshold phase

/-- With an infinite factor and a phase whose top line is clear, a threshold of zero keeps the top
line clear and a threshold below zero sets it; the rows of one fitted profile only clear lines. -/
theorem sample_clears_infiniteFactor :
    let profile := fitted ⟨.mos6581, .strong⟩ .triangleSawtooth
    let factor : Float32 := 1 / 0
    let word : Float32 → UInt16 := fun threshold =>
      (sample profile.weights factor profile.pulse threshold 0x7ff).toUInt16
    let profiles := Vector.replicate 5 profile
    (¬ (0 : Float32) < 0 ∧ word 0 &&& ~~~0x7ff = 0) ∧
      ((-1 : Float32) < 0 ∧ (word (-1)).toNat.testBit 11 = true) ∧
      (∀ row : Fin 5, ¬ (profiles.get row).threshold < 0) ∧
      ((combinedTable profiles).cell 2 ⟨0x7ff, by decide⟩).toUInt16 &&& ~~~0x7ff = 0 := by
  intro profile factor word profiles
  obtain ⟨hsample, htable, -⟩ := sample_clears
  obtain ⟨-, hzero, -⟩ := hsample profile.weights factor profile.pulse 0 0x7ff
  obtain ⟨-, -, hbelow⟩ := hsample profile.weights factor profile.pulse (-1) 0x7ff
  have hfitted : ∀ row : Fin 5, ¬ (profiles.get row).threshold < 0 := by decide
  refine ⟨⟨by decide, (hzero (by decide)).1⟩, ⟨by decide, hbelow (by decide) 11 (by decide)⟩,
    hfitted, ?_⟩
  exact htable profiles hfitted 2 ⟨0x7ff, by decide⟩

end SidVoice.Pulldown
