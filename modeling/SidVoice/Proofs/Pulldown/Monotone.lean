import SidVoice.Proofs.Number.Order
import SidVoice.Proofs.Pulldown.Locality

/-!
# Less loading loses no line

Of two runs over the same weight table, let the second have all lines of the first, no smaller
factor on the top line and no weaker pulse. Then every line that survives in the first survives in
the second.

The two runs are compared step by step. Each term of the second pull is at most that of the first,
and this one is at most the weight, so the running sums stay in order, and none of them gets to the
upper end before the sum of the weights does. At the lower end they may: a top line of great level
lacks so little that its term is infinite. Nothing that is not a number comes up, because only the
lower end is ever reached by a sum.
-/

namespace SidVoice.Pulldown

open Number

/-- A weight table whose entries for two different lines are finite and not negative, and whose
running sums of weights are finite and positive. -/
structure Regular (weights : WeightTable) : Prop where
  isFinite_entry : ∀ entry : Fin 25, 0 < entry.val → entry.val < 24 → entry.val ≠ 12 →
    (weights.get entry).isFinite = true
  entry_nonneg : ∀ entry : Fin 25, 0 < entry.val → entry.val < 24 → entry.val ≠ 12 →
    0 ≤ weights.get entry
  isFinite_influence : ∀ line, (influence weights line).isFinite = true
  influence_pos : ∀ line, 0 < influence weights line

section Weights

variable {weights : WeightTable} {line other : Line}

theorem Regular.isFinite_between (h : Regular weights) (hne : other ≠ line) :
    (weights.between line other).isFinite = true := by
  obtain ⟨entry, ⟨hlt, hle, hmiddle⟩, hget⟩ := exists_reaches hne
  rw [hget]
  exact h.isFinite_entry entry (by omega) (by omega) hmiddle

theorem Regular.between_nonneg (h : Regular weights) (hne : other ≠ line) :
    0 ≤ weights.between line other := by
  obtain ⟨entry, ⟨hlt, hle, hmiddle⟩, hget⟩ := exists_reaches hne
  rw [hget]
  exact h.entry_nonneg entry (by omega) (by omega) hmiddle

end Weights

section Levels

variable {topBit topBit' : Float32}

theorem isFinite_level (htop : topBit.isFinite = true) (phase : UInt16) (line : Line) :
    (level topBit phase line).isFinite = true := by
  have hzero : (0 : Float32).isFinite = true := by decide
  obtain ⟨hnonneg, hnonpos⟩ := zero_mul_single htop
  rw [level]
  split <;> split
  · rwa [one_mul_single]
  · exact isFinite_of_le_of_le hzero hzero hnonneg hnonpos
  · decide
  · exact hzero

theorem level_nonneg (htop : topBit.isFinite = true) (hnonneg : 0 ≤ topBit) (phase : UInt16)
    (line : Line) : 0 ≤ level topBit phase line := by
  rw [level]
  split <;> split
  · rwa [one_mul_single]
  · exact (zero_mul_single htop).1
  · decide
  · decide

/-- The levels of two runs. They are finite and not negative, and none is lower in the second. -/
structure Raised (levels levels' : Line → Float32) : Prop where
  isFinite : ∀ line, (levels line).isFinite = true
  isFinite' : ∀ line, (levels' line).isFinite = true
  nonneg : ∀ line, 0 ≤ levels line
  le : ∀ line, levels line ≤ levels' line

/-- Levels that are finite and not negative are at least themselves. -/
theorem Raised.refl {levels : Line → Float32} (hfinite : ∀ line, (levels line).isFinite = true)
    (hnonneg : ∀ line, 0 ≤ levels line) : Raised levels levels :=
  ⟨hfinite, hfinite, hnonneg, fun line => le_refl_single (isNumber_of_isFinite (hfinite line))⟩

/-- More lines and a greater factor on the top line raise the levels. -/
theorem raised_level (htop : topBit.isFinite = true) (htop' : topBit'.isFinite = true)
    (hnonneg : 0 ≤ topBit) (h : topBit ≤ topBit') {phase phase' : UInt16}
    (hphase : phase &&& ~~~phase' &&& 0xfff = 0) :
    Raised (level topBit phase) (level topBit' phase') := by
  refine ⟨isFinite_level htop phase, isFinite_level htop' phase',
    level_nonneg htop hnonneg phase, fun line => ?_⟩
  have hnonneg' : 0 ≤ topBit' := le_trans_single hnonneg h
  by_cases hbit : phase.toNat.testBit line.val = true
  · have hbit' := testBit_of_and_not hphase hbit
    simp only [level, if_pos hbit, if_pos hbit']
    split
    · rwa [one_mul_single, one_mul_single]
    · decide
  · have hnonpos : level topBit phase line ≤ 0 := by
      simp only [level, if_neg hbit]
      split
      · exact (zero_mul_single htop).2
      · decide
    exact le_trans_single hnonpos (level_nonneg htop' hnonneg' phase' line)

end Levels

section Sums

/-- Three running sums, of which the greatest is not negative. They are in order as long as it is
not infinite. -/
structure InOrder (low middle high : Float32) : Prop where
  nonneg : 0 ≤ high
  le : value high ≠ ⊤ → low ≤ middle ∧ middle ≤ high

/-- Adding terms that are in order, of which the greatest is a weight, keeps sums in order. -/
theorem InOrder.add {low middle high lowTerm middleTerm weight : Float32}
    (h : InOrder low middle high) (hlow : lowTerm ≤ middleTerm) (hmiddle : middleTerm ≤ weight)
    (hfinite : weight.isFinite = true) (hnonneg : 0 ≤ weight) :
    InOrder (low + lowTerm) (middle + middleTerm) (high + weight) := by
  obtain ⟨-, -, htop⟩ := isFinite_iff_value.mp hfinite
  have hgrows : high ≤ high + weight := le_add_right_single h.nonneg hnonneg
  refine ⟨le_trans_single h.nonneg hgrows, fun hsum => ?_⟩
  have hhighTop : value high ≠ ⊤ := ne_top_of_le hgrows hsum
  obtain ⟨hlowMiddle, hmiddleHigh⟩ := h.le hhighTop
  have hmiddleTop : value middle ≠ ⊤ := ne_top_of_le hmiddleHigh hhighTop
  have htermTop : value middleTerm ≠ ⊤ := ne_top_of_le hmiddle htop
  exact ⟨add_le_add_single hlowMiddle hlow hmiddleTop htermTop,
    add_le_add_single hmiddleHigh hmiddle hhighTop htop⟩

/-- Running sums over the same lines stay in order. -/
theorem InOrder.foldl {lowTerm middleTerm weight : Line → Float32} {lines : List Line}
    (hterms : ∀ line ∈ lines, lowTerm line ≤ middleTerm line ∧ middleTerm line ≤ weight line ∧
      (weight line).isFinite = true ∧ 0 ≤ weight line)
    {low middle high : Float32} (h : InOrder low middle high) :
    InOrder (lines.foldl (fun sum line => sum + lowTerm line) low)
      (lines.foldl (fun sum line => sum + middleTerm line) middle)
      (lines.foldl (fun sum line => sum + weight line) high) := by
  induction lines generalizing low middle high with
  | nil => exact h
  | cons line rest ih =>
    obtain ⟨hlow, hmiddle, hfinite, hnonneg⟩ := hterms line List.mem_cons_self
    exact ih (fun other hother => hterms other (List.mem_cons_of_mem line hother))
      (h.add hlow hmiddle hfinite hnonneg)

variable {weights : WeightTable} {levels levels' : Line → Float32}

/-- With higher levels the pull on a line is not stronger, and no pull is stronger than the
influence of all other lines. -/
theorem Regular.pull_le (h : Regular weights) (hlevels : Raised levels levels') (line : Line) :
    pull weights levels' line ≤ pull weights levels line ∧
      pull weights levels line ≤ influence weights line := by
  have hone : (1 : Float32).isFinite = true := by decide
  have hstart : InOrder 0 0 0 := ⟨by decide, fun _ => ⟨by decide, by decide⟩⟩
  have hterms : ∀ other ∈ others line,
      (1 - levels' other) * weights.between line other ≤
          (1 - levels other) * weights.between line other ∧
        (1 - levels other) * weights.between line other ≤ weights.between line other ∧
        (weights.between line other).isFinite = true ∧ 0 ≤ weights.between line other := by
    intro other hother
    have hne := mem_others.mp hother
    have hweight := h.isFinite_between hne
    have hpos := h.between_nonneg hne
    have hlack := isFinite_one_sub (hlevels.isFinite other)
    have hlack' := isFinite_one_sub (hlevels.isFinite' other)
    have hless : 1 - levels' other ≤ 1 - levels other :=
      sub_le_sub_left_single hone (hlevels.le other)
    have hatMost : 1 - levels other ≤ 1 := one_sub_le_one (hlevels.nonneg other)
    refine ⟨mul_le_mul_right_single hlack' hlack hweight hless hpos, ?_, hweight, hpos⟩
    have hproduct := mul_le_mul_right_single hlack hone hweight hatMost hpos
    rwa [one_mul_single] at hproduct
  have hsums := hstart.foldl hterms
  obtain ⟨-, -, htop⟩ := isFinite_iff_value.mp (h.isFinite_influence line)
  exact hsums.le htop

variable {pulse pulse' : Float32}

/-- With higher levels and a stronger pulse a line is not pulled down further. -/
theorem Regular.pulldown_le (h : Regular weights) (hlevels : Raised levels levels')
    (hpulse : pulse.isFinite = true) (hpulse' : pulse'.isFinite = true)
    (hstronger : pulse ≤ pulse') (line : Line) :
    pulldown weights pulse' levels' line ≤ pulldown weights pulse levels line := by
  obtain ⟨hpull, -⟩ := h.pull_le hlevels line
  exact div_le_div_right_single (h.isFinite_influence line) (h.influence_pos line)
    (sub_le_sub_single hpull hstronger hpulse' hpulse)

/-- A line that reads as one does so with higher levels and a stronger pulse, if the threshold is
not negative. -/
theorem Regular.reads_of_le (h : Regular weights) (hlevels : Raised levels levels')
    (hpulse : pulse.isFinite = true) (hpulse' : pulse'.isFinite = true)
    (hstronger : pulse ≤ pulse') {threshold : Float32} (hthreshold : 0 ≤ threshold) {line : Line}
    (hreads : reads weights pulse threshold levels line = true) :
    reads weights pulse' threshold levels' line = true := by
  rw [reads, decide_eq_true_eq, remaining] at hreads ⊢
  by_cases hhigh : levels line > 0
  · have hhigh' : levels' line > 0 := lt_of_lt_of_le_single hhigh (hlevels.le line)
    rw [if_pos hhigh] at hreads
    rw [if_pos hhigh']
    have hone : (1 : Float32).isFinite = true := by decide
    have hpulldown := h.pulldown_le hlevels hpulse hpulse' hstronger line
    exact lt_of_lt_of_le_single hreads (sub_le_sub_left_single hone hpulldown)
  · rw [if_neg hhigh] at hreads
    exact absurd hreads (not_lt_of_le_single hthreshold)

end Sums

/-- If all lines of a phase are lines of another one, a sample of the first has no line that the
sample of the second lacks, with no smaller factor on the top line and no weaker pulse. -/
theorem sample_mono {weights : WeightTable} (hweights : Regular weights) {threshold : Float32}
    (hthreshold : 0 ≤ threshold) {phase phase' : UInt16}
    (hphase : phase &&& ~~~phase' &&& 0xfff = 0) {topBit topBit' : Float32}
    (htop : topBit.isFinite = true) (htop' : topBit'.isFinite = true) (hnonneg : 0 ≤ topBit)
    (hfactor : topBit ≤ topBit') {pulse pulse' : Float32} (hpulse : pulse.isFinite = true)
    (hpulse' : pulse'.isFinite = true) (hstronger : pulse ≤ pulse') :
    (sample weights topBit pulse threshold phase).toUInt16 &&&
      ~~~(sample weights topBit' pulse' threshold phase').toUInt16 = 0 := by
  apply and_not_eq_zero (toNat_sample_lt weights topBit pulse threshold phase)
  intro line hline
  rw [testBit_sample] at hline ⊢
  exact hweights.reads_of_le (raised_level htop htop' hnonneg hfactor hphase) hpulse hpulse'
    hstronger hthreshold hline

/-- On an average 6581 a phase without its lowest line, with a plain top line and a weaker pulse,
keeps some lines of a sawtooth with a pulse, and the last phase keeps all of these. -/
theorem sample_mono_averagePulseSawtooth :
    let profile := fitted ⟨.mos6581, .average⟩ .pulseSawtooth
    let weaker := sample profile.weights 1 5 profile.threshold 0xffe
    let stronger := sample profile.weights profile.topBit profile.pulse profile.threshold 0xfff
    Regular profile.weights ∧ 0 ≤ profile.threshold ∧
      (0xffe : UInt16) &&& ~~~0xfff &&& 0xfff = 0 ∧
      ((1 : Float32).isFinite = true ∧ profile.topBit.isFinite = true ∧ (0 : Float32) ≤ 1 ∧
        1 ≤ profile.topBit) ∧
      ((5 : Float32).isFinite = true ∧ profile.pulse.isFinite = true ∧ 5 ≤ profile.pulse) ∧
      weaker ≠ 0 ∧ weaker.toUInt16 &&& ~~~stronger.toUInt16 = 0 := by
  intro profile weaker stronger
  have hweights : Regular profile.weights :=
    ⟨by decide +kernel, by decide +kernel, by decide +kernel, by decide +kernel⟩
  have hthreshold : 0 ≤ profile.threshold := by decide
  have hphase : (0xffe : UInt16) &&& ~~~0xfff &&& 0xfff = 0 := by decide
  have htop : (1 : Float32).isFinite = true ∧ profile.topBit.isFinite = true ∧
      (0 : Float32) ≤ 1 ∧ 1 ≤ profile.topBit := by decide
  have hpulse : (5 : Float32).isFinite = true ∧ profile.pulse.isFinite = true ∧
      5 ≤ profile.pulse := by decide
  refine ⟨hweights, hthreshold, hphase, htop, hpulse, by decide +kernel, ?_⟩
  exact sample_mono hweights hthreshold hphase htop.1 htop.2.1 htop.2.2.1 htop.2.2.2 hpulse.1
    hpulse.2.1 hpulse.2.2

end SidVoice.Pulldown
