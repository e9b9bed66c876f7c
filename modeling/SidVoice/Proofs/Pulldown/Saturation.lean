import SidVoice.Proofs.Pulldown.Clearing
import SidVoice.Proofs.Pulldown.Sums
import SidVoice.Table.Basic

/-!
# Samples at both ends

A pulse that is as strong as all other lines together lifts every line over a threshold below one,
and the sample is the phase. So is the sample of the last phase, in which no line lacks anything,
with any pulse that is not negative: there every table of a triangle with a sawtooth has the sample
of the sawtooth. With a pulse that is not positive no line exceeds a threshold of one, and the
sample is nothing.

Each of these comes from the sign of what pulls on a line after the pulse. A line of which an
infinite pull is taken has more than one left, or less; both ends are covered.
-/

namespace SidVoice.Pulldown

open Number

section Levels

variable {topBit : Float32}

theorem level_le_one (htop : topBit.isFinite = true) (h : topBit ≤ 1) (phase : UInt16)
    (line : Line) : level topBit phase line ≤ 1 := by
  rw [level]
  split <;> split
  · rwa [one_mul_single]
  · exact le_trans_single (zero_mul_single htop).2 (by decide)
  · decide
  · decide

/-- No line of a phase that has all lines is below a full level, if the factor is not below one. -/
theorem one_le_level (h : 1 ≤ topBit) {phase : UInt16} (hphase : phase &&& 0xfff = 0xfff)
    (line : Line) : 1 ≤ level topBit phase line := by
  have hbit : phase.toNat.testBit line.val = true := by
    rw [testBit_eq_of_and_eq (show phase &&& 0xfff = 0xfff &&& 0xfff from hphase) line]
    exact testBit_low line
  simp only [level, if_pos hbit]
  split
  · rwa [one_mul_single]
  · decide

end Levels

section Lines

variable {weights : WeightTable} {levels : Line → Float32} {pulse threshold : Float32} {line : Line}

/-- A high line on which nothing pulls exceeds every threshold below one. -/
theorem reads_of_pulldown_nonpos (hhigh : levels line > 0)
    (hpulldown : pulldown weights pulse levels line ≤ 0) (hthreshold : threshold < 1) :
    reads weights pulse threshold levels line = true := by
  rw [reads, decide_eq_true_eq, remaining, if_pos hhigh]
  exact lt_of_lt_of_le_single hthreshold (one_le_one_sub hpulldown)

/-- No line that is not lifted exceeds a threshold of one. -/
theorem reads_of_pulldown_nonneg (hpulldown : 0 ≤ pulldown weights pulse levels line)
    (hthreshold : 1 ≤ threshold) : reads weights pulse threshold levels line = false := by
  have hremaining : remaining weights pulse levels line ≤ threshold := by
    rw [remaining]
    split
    · exact le_trans_single (one_sub_le_one hpulldown) hthreshold
    · exact le_trans_single (by decide) hthreshold
  rw [reads, decide_eq_false_iff_not]
  exact not_lt_of_le_single hremaining

/-- Nothing pulls on a line after a pulse that is as strong as all other lines together. -/
theorem Regular.pulldown_nonpos_of_le (h : Regular weights)
    (hfinite : ∀ other, (levels other).isFinite = true) (hlevels : ∀ other, 0 ≤ levels other)
    (hpulse : pulse.isFinite = true) (hstrong : influence weights line ≤ pulse) :
    pulldown weights pulse levels line ≤ 0 := by
  obtain ⟨-, hpull⟩ := h.pull_le (Raised.refl hfinite hlevels) line
  have hrest : pull weights levels line - pulse ≤ pulse - pulse :=
    sub_le_sub_single (le_trans_single hpull hstrong)
      (le_refl_single (isNumber_of_isFinite hpulse)) hpulse hpulse
  exact div_nonpos_single (h.isFinite_influence line) (h.influence_pos line)
    (le_trans_single hrest (sub_self_nonpos hpulse))

/-- Nothing pulls on a line if no level is below one, whatever the pulse takes off. -/
theorem Regular.pulldown_nonpos_of_full (h : Regular weights)
    (hfinite : ∀ other, (levels other).isFinite = true) (hlevels : ∀ other, 1 ≤ levels other)
    (hpulse : pulse.isFinite = true) (hnonneg : 0 ≤ pulse) (line : Line) :
    pulldown weights pulse levels line ≤ 0 := by
  have hzero : (0 : Float32).isFinite = true := by decide
  have hrest : pull weights levels line - pulse ≤ 0 - 0 :=
    sub_le_sub_single (h.pull_nonpos hfinite hlevels line) hnonneg hpulse hzero
  rw [show (0 : Float32) - 0 = 0 by decide] at hrest
  exact div_nonpos_single (h.isFinite_influence line) (h.influence_pos line) hrest

/-- A line is not lifted by a pulse that is not positive if no level is above one. -/
theorem Regular.pulldown_nonneg (h : Regular weights)
    (hfinite : ∀ other, (levels other).isFinite = true) (hlevels : ∀ other, levels other ≤ 1)
    (hpulse : pulse.isFinite = true) (hnonpos : pulse ≤ 0) (line : Line) :
    0 ≤ pulldown weights pulse levels line := by
  have hzero : (0 : Float32).isFinite = true := by decide
  have hrest : 0 - 0 ≤ pull weights levels line - pulse :=
    sub_le_sub_single (h.pull_nonneg hfinite hlevels line) hnonpos hzero hpulse
  rw [show (0 : Float32) - 0 = 0 by decide] at hrest
  exact div_nonneg_single (h.isFinite_influence line) (h.influence_pos line) hrest

end Lines

section Samples

variable {weights : WeightTable} {topBit pulse threshold : Float32}

/-- With a pulse that is as strong as all other lines together, the sample is the phase. -/
theorem Regular.sample_eq_phase (h : Regular weights) (htop : topBit.isFinite = true)
    (hpos : 0 < topBit) (hpulse : pulse.isFinite = true)
    (hstrong : ∀ line, influence weights line ≤ pulse) (hthreshold : 0 ≤ threshold)
    (hbelow : threshold < 1) (phase : UInt16) :
    sample weights topBit pulse threshold phase = (phase &&& 0xfff).toInt16 := by
  apply sample_eq_toInt16
  · rw [UInt16.toNat_and]
    exact Nat.and_lt_two_pow phase.toNat (by decide : (0xfff : UInt16).toNat < 2 ^ 12)
  · intro line
    rw [testBit_and, testBit_low, Bool.and_true]
    cases hbit : phase.toNat.testBit line.val with
    | true =>
      exact reads_of_pulldown_nonpos ((level_pos_iff hpos phase line).mpr hbit)
        (h.pulldown_nonpos_of_le (isFinite_level htop phase)
          (level_nonneg htop (le_of_lt_single hpos) phase) hpulse (hstrong line)) hbelow
    | false =>
      rw [reads_of_clear weights topBit pulse threshold hbit]
      exact decide_eq_false (not_lt_of_le_single hthreshold)

/-- The sample of a phase that has all lines has all lines. -/
theorem Regular.sample_eq_full (h : Regular weights) (htop : topBit.isFinite = true)
    (hone : 1 ≤ topBit) (hpulse : pulse.isFinite = true) (hnonneg : 0 ≤ pulse)
    (hbelow : threshold < 1) {phase : UInt16} (hphase : phase &&& 0xfff = 0xfff) :
    sample weights topBit pulse threshold phase = 0xfff := by
  apply sample_eq_toInt16 weights topBit pulse threshold phase 0xfff (by decide)
  intro line
  have hfull := one_le_level hone hphase
  rw [testBit_low]
  exact reads_of_pulldown_nonpos (lt_of_lt_of_le_single (by decide) (hfull line))
    (h.pulldown_nonpos_of_full (isFinite_level htop phase) hfull hpulse hnonneg line) hbelow

/-- Nothing is left by a threshold of one if the pulse is not positive. -/
theorem Regular.sample_eq_none (h : Regular weights) (htop : topBit.isFinite = true)
    (hone : topBit ≤ 1) (hpulse : pulse.isFinite = true) (hnonpos : pulse ≤ 0)
    (habove : 1 ≤ threshold) (phase : UInt16) :
    sample weights topBit pulse threshold phase = 0 := by
  apply sample_eq_zero
  intro line
  exact reads_of_pulldown_nonneg
    (h.pulldown_nonneg (isFinite_level htop phase) (level_le_one htop hone phase) hpulse hnonpos
      line) habove

end Samples

section Fitted

/-- The last phase, which has all lines. -/
def lastPhase : Phase := ⟨0xfff, by decide⟩

/-- The weights of the fitted profiles of a triangle with a sawtooth are regular. All but those of
the strong 6581 are at most one. -/
theorem regular_triangleSawtooth (setup : Setup) :
    Regular (fitted setup .triangleSawtooth).weights := by
  obtain ⟨chip, strength⟩ := setup
  cases chip with
  | mos8580 =>
    cases strength <;>
      exact regular_of_le_one (by decide +kernel) (by decide +kernel) (by decide +kernel)
  | mos6581 =>
    cases strength with
    | average => exact regular_of_le_one (by decide +kernel) (by decide +kernel) (by decide +kernel)
    | weak => exact regular_of_le_one (by decide +kernel) (by decide +kernel) (by decide +kernel)
    | strong =>
      exact ⟨by decide +kernel, by decide +kernel, by decide +kernel, by decide +kernel⟩

/-- A triangle with a sawtooth ends as the sawtooth does. -/
theorem cell_triangleSawtooth (setup : Setup) :
    setup.table.cell Combination.triangleSawtooth.row lastPhase =
      basicTable.cell BasicWave.sawtooth.row lastPhase := by
  have hparameters : ∀ setup : Setup,
      (fitted setup .triangleSawtooth).topBit.isFinite = true ∧
        1 ≤ (fitted setup .triangleSawtooth).topBit ∧
        (fitted setup .triangleSawtooth).pulse.isFinite = true ∧
        0 ≤ (fitted setup .triangleSawtooth).pulse ∧
        (fitted setup .triangleSawtooth).threshold < 1 := by
    rintro ⟨chip, strength⟩
    cases chip <;> cases strength <;> decide
  obtain ⟨htop, hone, hpulse, hnonneg, hbelow⟩ := hparameters setup
  rw [SampleMatrix.cell, get_table, get_pulldownRow, cell_basicTable]
  exact (regular_triangleSawtooth setup).sample_eq_full htop hone hpulse hnonneg hbelow (by decide)

end Fitted

/-- With regular weights, a sample is its phase if the pulse is as strong as all other lines
together, it has all lines if the phase does and the factor is not below one, and it is nothing if
the pulse is not positive, the threshold not below one and the factor not above it. So all tables of
a triangle with a sawtooth end with the sample of the sawtooth. -/
theorem sample_saturates :
    (∀ weights : WeightTable, Regular weights → ∀ topBit pulse threshold : Float32,
      topBit.isFinite = true → pulse.isFinite = true →
      (0 < topBit → (∀ line, influence weights line ≤ pulse) → 0 ≤ threshold → threshold < 1 →
        ∀ phase : UInt16,
          sample weights topBit pulse threshold phase = (phase &&& 0xfff).toInt16) ∧
      (1 ≤ topBit → 0 ≤ pulse → threshold < 1 →
        ∀ phase : UInt16, phase &&& 0xfff = 0xfff →
          sample weights topBit pulse threshold phase = 0xfff) ∧
      (topBit ≤ 1 → pulse ≤ 0 → 1 ≤ threshold →
        ∀ phase : UInt16, sample weights topBit pulse threshold phase = 0)) ∧
    ∀ setup : Setup, setup.table.cell Combination.triangleSawtooth.row lastPhase =
      basicTable.cell BasicWave.sawtooth.row lastPhase := by
  refine ⟨?_, cell_triangleSawtooth⟩
  intro weights h topBit pulse threshold htop hpulse
  refine ⟨?_, ?_, ?_⟩
  · intro hpos hstrong hthreshold hbelow phase
    exact h.sample_eq_phase htop hpos hpulse hstrong hthreshold hbelow phase
  · intro hone hnonneg hbelow phase hphase
    exact h.sample_eq_full htop hone hpulse hnonneg hbelow hphase
  · intro hone hnonpos habove phase
    exact h.sample_eq_none htop hone hpulse hnonpos habove phase

/-- On a strong 6581, whose weights for a triangle with a sawtooth are far above one, the largest
number is a pulse that keeps a phase as it is, a threshold below zero keeps all lines of a wide
word, and an infinite one keeps none with a factor below zero. -/
theorem sample_saturates_strongTriangleSawtooth :
    let weights := (fitted ⟨.mos6581, .strong⟩ .triangleSawtooth).weights
    Regular weights ∧
      ((1 : Float32).isFinite = true ∧ (0 : Float32) < 1) ∧
      (largest.isFinite = true ∧ 0 ≤ largest ∧ ∀ line, influence weights line ≤ largest) ∧
      ((0 : Float32) ≤ 0 ∧ (0 : Float32) < 1 ∧
        sample weights 1 largest 0 0xfabc = ((0xfabc &&& 0xfff : UInt16)).toInt16) ∧
      ((-1 : Float32) < 1 ∧ (0xffff : UInt16) &&& 0xfff = 0xfff ∧
        sample weights 1 largest (-1) 0xffff = 0xfff) ∧
      ((-1 : Float32).isFinite = true ∧ (-1 : Float32) ≤ 1 ∧ (-1 : Float32) ≤ 0 ∧
        (1 : Float32) ≤ 1 / 0 ∧ sample weights (-1) (-1) (1 / 0) 0x0fff = 0) := by
  intro weights
  have hregular : Regular weights := regular_triangleSawtooth ⟨.mos6581, .strong⟩
  have hone : (1 : Float32).isFinite = true ∧ (0 : Float32) < 1 := by decide
  have hlargest : largest.isFinite = true ∧ 0 ≤ largest := by decide
  have hstrong : ∀ line, influence weights line ≤ largest := fun line =>
    (le_largest (hregular.isFinite_influence line)).2
  have hminus : (-1 : Float32).isFinite = true := by decide
  have hbelow : (-1 : Float32) ≤ 1 ∧ (-1 : Float32) ≤ 0 := by decide
  have hthreshold : (-1 : Float32) < 1 ∧ (1 : Float32) ≤ 1 / 0 := by decide
  have hlow : (0xffff : UInt16) &&& 0xfff = 0xfff := by decide
  obtain ⟨hsaturates, -⟩ := sample_saturates
  obtain ⟨hphase, -, -⟩ := hsaturates weights hregular 1 largest 0 hone.1 hlargest.1
  obtain ⟨-, hfull, -⟩ := hsaturates weights hregular 1 largest (-1) hone.1 hlargest.1
  obtain ⟨-, -, hnone⟩ := hsaturates weights hregular (-1) (-1) (1 / 0) hminus hminus
  exact ⟨hregular, hone, ⟨hlargest.1, hlargest.2, hstrong⟩,
    ⟨by decide, hone.2, hphase hone.2 hstrong (by decide) hone.2 0xfabc⟩,
    ⟨hthreshold.1, hlow, hfull (by decide) hlargest.2 hthreshold.1 0xffff hlow⟩,
    hminus, hbelow.1, hbelow.2, hthreshold.2, hnone hbelow.1 hbelow.2 hthreshold.2 0x0fff⟩

end SidVoice.Pulldown
