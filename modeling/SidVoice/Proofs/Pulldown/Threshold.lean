import SidVoice.Proofs.Number.Order
import SidVoice.Proofs.Pulldown.Lines
import SidVoice.Pulldown.Fitted

/-!
# A higher threshold keeps fewer lines

What remains of a line does not depend on the threshold, so a line that exceeds one exceeds every
lower one. This holds of the lines that are clear in the phase too, of which nothing remains and
which a threshold below zero sets: there a sample is no part of its phase any more, but it still
loses lines only as the threshold rises.

Weights, factor and pulse are any single-precision values. What remains of a line may be no number,
and then it exceeds no threshold; no number exceeds a threshold that is none.
-/

namespace SidVoice.Pulldown

open Number

section Threshold

variable {weights : WeightTable} {pulse threshold threshold' : Float32} {levels : Line → Float32}
  {line : Line}

/-- A line that reads as one by a threshold does so by every lower one. -/
theorem reads_of_threshold_le (h : threshold ≤ threshold')
    (hreads : reads weights pulse threshold' levels line = true) :
    reads weights pulse threshold levels line = true := by
  rw [reads, decide_eq_true_eq] at hreads ⊢
  exact lt_of_le_of_lt_single h hreads

/-- No line reads as one by a threshold that is not a number. -/
theorem reads_of_isNaN (h : threshold.isNaN = true) :
    reads weights pulse threshold levels line = false := by
  rw [reads, decide_eq_false_iff_not]
  intro hreads
  obtain ⟨hnumber, -, -⟩ := lt_iff_value.mp hreads
  exact Bool.false_ne_true (hnumber.symm.trans h)

end Threshold

/-- A sample has every line that it has by a higher threshold, whatever the weights, the factor and
the pulse are, and by a threshold that is not a number it has none. -/
theorem sample_antitone_threshold (weights : WeightTable) (topBit pulse : Float32)
    (phase : UInt16) :
    (∀ threshold threshold' : Float32, threshold ≤ threshold' →
      (sample weights topBit pulse threshold' phase).toUInt16 &&&
        ~~~(sample weights topBit pulse threshold phase).toUInt16 = 0) ∧
    ∀ threshold : Float32, threshold.isNaN = true →
      sample weights topBit pulse threshold phase = 0 := by
  constructor
  · intro threshold threshold' h
    apply and_not_eq_zero (toNat_sample_lt weights topBit pulse threshold' phase)
    intro line hline
    rw [testBit_sample] at hline ⊢
    exact reads_of_threshold_le h hline
  · intro threshold h
    apply sample_eq_zero
    intro line
    exact reads_of_isNaN h

/-- On a strong 6581 the sample by a threshold below zero has all lines of the sample by the fitted
one; with an infinite factor, a threshold that is not a number leaves none. -/
theorem sample_antitone_threshold_strongTriangleSawtooth :
    let profile := fitted ⟨.mos6581, .strong⟩ .triangleSawtooth
    let below := sample profile.weights profile.topBit profile.pulse (-1) 0xff0
    let fitted := sample profile.weights profile.topBit profile.pulse profile.threshold 0xff0
    (-1 ≤ profile.threshold ∧ fitted.toUInt16 &&& ~~~below.toUInt16 = 0) ∧
      ((0 / 0 : Float32).isNaN = true ∧ sample profile.weights (1 / 0) 0 (0 / 0) 0xff0 = 0) := by
  intro profile below fitted
  obtain ⟨hlower, -⟩ := sample_antitone_threshold profile.weights profile.topBit profile.pulse 0xff0
  obtain ⟨-, hnone⟩ := sample_antitone_threshold profile.weights (1 / 0) 0 0xff0
  have hthreshold : -1 ≤ profile.threshold := by decide
  have hnan : (0 / 0 : Float32).isNaN = true := by decide
  exact ⟨⟨hthreshold, hlower (-1) profile.threshold hthreshold⟩, hnan, hnone (0 / 0) hnan⟩

end SidVoice.Pulldown
