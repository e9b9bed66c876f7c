import SidVoice.Proofs.Pulldown.Clearing
import SidVoice.Proofs.Pulldown.Equality

/-!
# The factor on the top line

The factor scales the level of the top line even where the phase lacks this line. A finite factor
makes a zero of either sign of it there, of which a full level is lacking as of any line that is
clear, so the sample does not depend on the factor.

A product of zero with any other factor is not a number. It enters the pull on each of the other
lines, and no line of the phase survives. The sample has the lines that the phase lacks if the
threshold is below zero, and no line at all if it is not. Weights, pulse and threshold are any
single-precision values.
-/

namespace SidVoice.Pulldown

open Number

/-- The phase lacks the top line. -/
def TopClear (phase : UInt16) : Prop := phase.toNat.testBit 11 = false

/-- The factor has no part in the samples of phases that lack the top line: they are those with a
plain top line. -/
def Inert (topBit : Float32) : Prop :=
  ∀ (weights : WeightTable) (pulse threshold : Float32) (phase : UInt16), TopClear phase →
    sample weights topBit pulse threshold phase = sample weights 1 pulse threshold phase

section Levels

variable {topBit topBit' : Float32} {phase : UInt16} {line : Line}

/-- The level of the top line is a product of zero if the phase lacks it. -/
theorem TopClear.level_top (h : TopClear phase) : level topBit phase 11 = 0 * topBit := by
  have hclear : phase.toNat.testBit (11 : Line).val = false := h
  rw [level, if_neg (Bool.eq_false_iff.mp hclear), if_pos rfl]

/-- The levels of all other lines do not depend on the factor. -/
theorem level_of_ne_top (topBit topBit' : Float32) (hline : line ≠ 11) :
    level topBit phase line = level topBit' phase line := by
  rw [level, level, if_neg hline, if_neg hline]

/-- Finite factors make levels that are alike if the phase lacks the top line. -/
theorem TopClear.alike_level (h : TopClear phase) (htop : topBit.isFinite = true)
    (htop' : topBit'.isFinite = true) (line : Line) :
    Alike (level topBit phase line) (level topBit' phase line) := by
  by_cases hline : line = 11
  · have hzero : IsZero (0 : Float32) := Or.inl rfl
    rw [hline, h.level_top, h.level_top, mul_comm_single 0, mul_comm_single 0]
    exact .zeros (hzero.mul_left htop) (hzero.mul_left htop')
  · rw [level_of_ne_top topBit topBit' hline]
    exact .same _

/-- A factor that is not finite makes no number of the level of the top line if the phase lacks it.
-/
theorem TopClear.not_isNumber_level (h : TopClear phase) (htop : ¬ topBit.isFinite = true) :
    ¬ IsNumber (level topBit phase 11) := by
  rw [h.level_top]
  exact fun hnumber => htop (isFinite_of_isNumber_zero_mul hnumber)

end Levels

section Lines

variable {weights : WeightTable} {topBit pulse threshold : Float32} {phase : UInt16} {line : Line}

/-- What is left of a line after its pulldown is a number only if all other levels are. -/
theorem isNumber_of_one_sub_pulldown {levels : Line → Float32}
    (h : IsNumber (1 - pulldown weights pulse levels line)) {other : Line} (hne : other ≠ line) :
    IsNumber (levels other) := by
  obtain ⟨-, hpulldown⟩ := isNumber_of_sub h
  obtain ⟨hrest, -⟩ := isNumber_of_div hpulldown
  obtain ⟨hpull, -⟩ := isNumber_of_sub hrest
  obtain ⟨-, hterms⟩ := isNumber_of_foldl hpull
  obtain ⟨hlack, -⟩ := isNumber_of_mul (hterms other (mem_others.mpr hne))
  exact (isNumber_of_sub hlack).2

/-- With a factor that is not finite a line that the phase has does not survive if the phase lacks
the top line. -/
theorem TopClear.reads_of_set (h : TopClear phase) (htop : ¬ topBit.isFinite = true)
    (hset : phase.toNat.testBit line.val = true) :
    reads weights pulse threshold (level topBit phase) line = false := by
  have hline : (11 : Line) ≠ line := by
    rintro rfl
    exact Bool.false_ne_true (h.symm.trans hset)
  have hhigh : level topBit phase line > 0 := by
    rw [level, if_pos hset, if_neg hline.symm]
    decide
  rw [reads, remaining, if_pos hhigh, decide_eq_false_iff_not]
  intro hexceeds
  obtain ⟨-, hnumber, -⟩ := lt_iff_value.mp hexceeds
  exact h.not_isNumber_level htop (isNumber_of_one_sub_pulldown hnumber hline)

/-- With a factor that is not finite and a phase that lacks the top line, a line reads as one if the
phase lacks it too and the threshold is below zero. -/
theorem TopClear.reads_eq (h : TopClear phase) (htop : ¬ topBit.isFinite = true) (line : Line) :
    reads weights pulse threshold (level topBit phase) line =
      (!phase.toNat.testBit line.val && decide (threshold < 0)) := by
  cases hbit : phase.toNat.testBit line.val with
  | true => exact h.reads_of_set htop hbit
  | false => exact reads_of_clear weights topBit pulse threshold hbit

end Lines

section Samples

variable {topBit topBit' : Float32} {phase : UInt16} (weights : WeightTable)
  (pulse threshold : Float32)

/-- Finite factors give the same sample if the phase lacks the top line. -/
theorem TopClear.sample_eq (h : TopClear phase) (htop : topBit.isFinite = true)
    (htop' : topBit'.isFinite = true) :
    sample weights topBit pulse threshold phase = sample weights topBit' pulse threshold phase := by
  have hreads : reads weights pulse threshold (level topBit phase) =
      reads weights pulse threshold (level topBit' phase) := by
    funext line
    exact reads_eq_of_alike (fun _ _ => Or.inl rfl) (h.alike_level htop htop') (.same pulse)
      (.same threshold)
  rw [sample, sample, hreads]

/-- With a factor that is not finite no line survives if the threshold is not below zero. -/
theorem TopClear.sample_eq_none (h : TopClear phase) (htop : ¬ topBit.isFinite = true)
    (hthreshold : ¬ threshold < 0) : sample weights topBit pulse threshold phase = 0 := by
  apply sample_eq_zero
  intro line
  rw [h.reads_eq htop, decide_eq_false hthreshold, Bool.and_false]

/-- With a factor that is not finite the sample has the lines that the phase lacks if the threshold
is below zero. -/
theorem TopClear.sample_eq_lacking (h : TopClear phase) (htop : ¬ topBit.isFinite = true)
    (hthreshold : threshold < 0) :
    sample weights topBit pulse threshold phase = (~~~phase &&& 0xfff).toInt16 := by
  apply sample_eq_toInt16
  · rw [UInt16.toNat_and]
    exact Nat.and_lt_two_pow (~~~phase).toNat (by decide : (0xfff : UInt16).toNat < 2 ^ 12)
  · intro line
    rw [h.reads_eq htop, decide_eq_true hthreshold, Bool.and_true, testBit_and, testBit_low,
      Bool.and_true, testBit_not phase (by omega)]

/-- The inert factors are the finite ones: with equal weights, a pulse as strong as all of them
keeps the lowest line with a plain top line, and no other factor does. -/
theorem inert_iff_isFinite (topBit : Float32) : Inert topBit ↔ topBit.isFinite = true := by
  constructor
  · intro hinert
    by_contra htop
    have hclear : TopClear 1 := rfl
    have hsame := hinert (Vector.replicate 25 1) 11 0 1 hclear
    rw [hclear.sample_eq_none _ _ _ htop (by decide)] at hsame
    exact absurd hsame (by decide +kernel)
  · intro htop weights pulse threshold phase hclear
    exact hclear.sample_eq weights pulse threshold htop (by decide)

end Samples

/-- For a phase that lacks the top line all finite factors give the same sample. All other factors
leave no line if the threshold is not below zero, and the lines that the phase lacks if it is. So a
factor is inert exactly if it is finite. -/
theorem sample_top_clear :
    (∀ topBit topBit' : Float32, topBit.isFinite = true → topBit'.isFinite = true →
      ∀ (weights : WeightTable) (pulse threshold : Float32) (phase : UInt16), TopClear phase →
        sample weights topBit pulse threshold phase =
          sample weights topBit' pulse threshold phase) ∧
    (∀ topBit : Float32, topBit.isInf = true ∨ topBit.isNaN = true →
      ∀ (weights : WeightTable) (pulse threshold : Float32) (phase : UInt16), TopClear phase →
        (¬ threshold < 0 → sample weights topBit pulse threshold phase = 0) ∧
        (threshold < 0 →
          sample weights topBit pulse threshold phase = (~~~phase &&& 0xfff).toInt16)) ∧
    ∀ topBit : Float32, Inert topBit ↔ topBit.isFinite = true := by
  refine ⟨?_, ?_, inert_iff_isFinite⟩
  · intro topBit topBit' htop htop' weights pulse threshold phase hclear
    exact hclear.sample_eq weights pulse threshold htop htop'
  · intro topBit hinfinite weights pulse threshold phase hclear
    have htop : ¬ topBit.isFinite = true := not_isFinite_iff.mpr hinfinite
    exact ⟨hclear.sample_eq_none weights pulse threshold htop,
      hclear.sample_eq_lacking weights pulse threshold htop⟩

/-- On a strong 6581 a negative zero and the largest number give the same sample of a wide word
without the top line. An infinite factor leaves nothing of it, and one that is not a number leaves
what it lacks by a threshold below zero. -/
theorem sample_top_clear_strongTriangleSawtooth :
    let profile := fitted ⟨.mos6581, .strong⟩ .triangleSawtooth
    let factor : Float32 := 1 / 0
    let noNumber : Float32 := 0 / 0
    TopClear 0x77f0 ∧
      ((-0 : Float32).isFinite = true ∧ largest.isFinite = true ∧
        sample profile.weights (-0) profile.pulse profile.threshold 0x77f0 =
          sample profile.weights largest profile.pulse profile.threshold 0x77f0 ∧
        sample profile.weights (-0) profile.pulse profile.threshold 0x77f0 ≠ 0) ∧
      (factor.isInf = true ∧ ¬ profile.threshold < 0 ∧
        sample profile.weights factor profile.pulse profile.threshold 0x77f0 = 0) ∧
      (noNumber.isNaN = true ∧ (-1 : Float32) < 0 ∧
        sample profile.weights noNumber profile.pulse (-1) 0x77f0 = 0x80f) ∧
      ¬ Inert factor := by
  intro profile factor noNumber
  obtain ⟨hfinite, hinfinite, hinert⟩ := sample_top_clear
  have hclear : TopClear 0x77f0 := rfl
  have htop : (-0 : Float32).isFinite = true ∧ largest.isFinite = true := by decide
  have hfactor : factor.isInf = true := by decide
  have hnone : noNumber.isNaN = true := by decide
  have hthreshold : ¬ profile.threshold < 0 ∧ (-1 : Float32) < 0 := by decide
  refine ⟨hclear, ⟨htop.1, htop.2, ?_, by decide +kernel⟩, ⟨hfactor, hthreshold.1, ?_⟩,
    ⟨hnone, hthreshold.2, ?_⟩, ?_⟩
  · exact hfinite (-0) largest htop.1 htop.2 profile.weights _ _ 0x77f0 hclear
  · exact (hinfinite factor (.inl hfactor) profile.weights _ _ 0x77f0 hclear).1 hthreshold.1
  · exact (hinfinite noNumber (.inr hnone) profile.weights _ _ 0x77f0 hclear).2 hthreshold.2
  · exact fun h => absurd ((hinert factor).mp h) (by decide)

end SidVoice.Pulldown
