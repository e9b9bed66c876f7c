import SidVoice.Proofs.Pulldown.Formula
import SidVoice.Pulldown.Fitted

/-!
# What a line depends on

The other lines reach a line through twelve consecutive entries of the weight table, and one of
these, the influence of the line on itself, is skipped. Two weight tables that agree on the
remaining eleven give the line the same bit, and the phase counts by its lines only. Together the
lines reach every entry but the two ends and the middle, so an infinite weight at an end does no
harm.

Nothing is assumed of the numbers: the two runs do the same operations on the same operands,
whatever these are. That a line does depend on each of its eleven entries is not said.
-/

namespace SidVoice.Pulldown

/-- The entries of a weight table through which other lines reach a line. -/
def Reaches (entry : Fin 25) (line : Line) : Prop :=
  line.val < entry.val ∧ entry.val ≤ line.val + 12 ∧ entry.val ≠ 12

/-- The tables agree on all entries through which other lines reach a line. -/
def AgreeFor (line : Line) (weights weights' : WeightTable) : Prop :=
  ∀ entry : Fin 25, Reaches entry line → weights.get entry = weights'.get entry

/-- The influence of another line is read at an entry that reaches the line. -/
theorem exists_reaches {line other : Line} (hne : other ≠ line) :
    ∃ entry, Reaches entry line ∧
      ∀ weights : WeightTable, weights.between line other = weights.get entry := by
  have hval : other.val ≠ line.val := fun heq => hne (Fin.ext heq)
  have hentry : line.val + 12 - other.val < 25 := by omega
  refine ⟨⟨line.val + 12 - other.val, hentry⟩, ⟨?_, ?_, ?_⟩, fun _ => rfl⟩
  · change line.val < line.val + 12 - other.val
    omega
  · change line.val + 12 - other.val ≤ line.val + 12
    omega
  · change line.val + 12 - other.val ≠ 12
    omega

section Agreement

variable {weights weights' : WeightTable} {line : Line}

theorem AgreeFor.between_eq (h : AgreeFor line weights weights') {other : Line}
    (hne : other ≠ line) : weights.between line other = weights'.between line other := by
  obtain ⟨entry, hreaches, hget⟩ := exists_reaches hne
  rw [hget, hget]
  exact h entry hreaches

theorem AgreeFor.pull_eq (h : AgreeFor line weights weights') (levels : Line → Float32) :
    pull weights levels line = pull weights' levels line :=
  pull_congr (fun _ hne => h.between_eq hne) fun _ => rfl

theorem AgreeFor.influence_eq (h : AgreeFor line weights weights') :
    influence weights line = influence weights' line :=
  influence_congr fun _ hne => h.between_eq hne

/-- A line reads the same by two tables that agree for it. -/
theorem AgreeFor.reads_eq (h : AgreeFor line weights weights') (pulse threshold : Float32)
    (levels : Line → Float32) :
    reads weights pulse threshold levels line = reads weights' pulse threshold levels line := by
  rw [reads, reads, remaining, remaining, pulldown, pulldown, h.pull_eq levels, h.influence_eq]

end Agreement

/-- A level depends on the phase by its lines only. -/
theorem level_eq_of_and_eq (topBit : Float32) {phase phase' : UInt16}
    (h : phase &&& 0xfff = phase' &&& 0xfff) : level topBit phase = level topBit phase' := by
  funext line
  have hbit : phase.toNat.testBit line = phase'.toNat.testBit line := testBit_eq_of_and_eq h line
  rw [level, level, hbit]

/-- The samples of two phases with the same lines, by tables that agree for a line, have the same
bit at the line. -/
theorem AgreeFor.testBit_sample_eq {weights weights' : WeightTable} {line : Line}
    (h : AgreeFor line weights weights') (topBit pulse threshold : Float32)
    {phase phase' : UInt16} (hphase : phase &&& 0xfff = phase' &&& 0xfff) :
    (sample weights topBit pulse threshold phase).toUInt16.toNat.testBit line.val =
      (sample weights' topBit pulse threshold phase').toUInt16.toNat.testBit line.val := by
  rw [testBit_sample, testBit_sample, level_eq_of_and_eq topBit hphase, h.reads_eq]

/-- Samples that have the same bit at each line are the same. -/
theorem sample_eq_of_reads_eq {weights weights' : WeightTable} {topBit pulse threshold : Float32}
    {phase phase' : UInt16}
    (h : ∀ line, reads weights pulse threshold (level topBit phase) line =
      reads weights' pulse threshold (level topBit phase') line) :
    sample weights topBit pulse threshold phase =
      sample weights' topBit pulse threshold phase' := by
  rw [sample, sample, funext h]

section Sides

variable (profile : Profile)

/-- The entries before the middle are those of higher lines. -/
theorem get_weights_of_lt (lower : Float32) {entry : Fin 25} (h : entry.val < 12) :
    { profile with lower }.weights.get entry = profile.weights.get entry := by
  have hleft := { profile with lower }.getElem_weights entry
  have hright := profile.getElem_weights entry
  rw [Profile.weightEntry, if_pos h] at hleft hright
  exact hleft.trans hright.symm

/-- The entries behind the middle are those of lower lines. -/
theorem get_weights_of_gt (higher : Float32) {entry : Fin 25} (h : 12 < entry.val) :
    { profile with higher }.weights.get entry = profile.weights.get entry := by
  have hnotLow : ¬ entry.val < 12 := by omega
  have hnotMiddle : ¬ entry.val = 12 := by omega
  have hleft := { profile with higher }.getElem_weights entry
  have hright := profile.getElem_weights entry
  rw [Profile.weightEntry, if_neg hnotLow, if_neg hnotMiddle] at hleft hright
  exact hleft.trans hright.symm

/-- The lowest line has no lower one, so the parameter for lower lines does not reach it. -/
theorem agreeFor_zero (lower : Float32) :
    AgreeFor 0 { profile with lower }.weights profile.weights := by
  intro entry ⟨_, hle, hne⟩
  have hle : entry.val ≤ 12 := by simpa using hle
  exact get_weights_of_lt profile lower (by omega)

/-- The top line has no higher one, so the parameter for higher lines does not reach it. -/
theorem agreeFor_eleven (higher : Float32) :
    AgreeFor 11 { profile with higher }.weights profile.weights := by
  intro entry ⟨hlt, _, hne⟩
  have hlt : 11 < entry.val := by simpa using hlt
  exact get_weights_of_gt profile higher (by omega)

end Sides

/-- The weight of the twelfth higher line on a strong 6581 is infinite for a triangle with a
sawtooth. No line reaches it. -/
theorem isInf_strongTriangleSawtooth :
    ((fitted ⟨.mos6581, .strong⟩ .triangleSawtooth).weights.get 0).isInf = true := by
  decide +kernel

/-- A bit of a sample depends on the eleven entries that reach its line and on the lines of the
phase. So a sample does not depend on the ends and the middle of the weight table, of which one is
infinite for a fitted profile, nor on the high bits of the phase; its lowest bit does not depend on
the parameter for lower lines, and its top bit not on the one for higher lines. -/
theorem sample_local :
    (∀ (line : Line) (weights weights' : WeightTable), AgreeFor line weights weights' →
      ∀ (topBit pulse threshold : Float32) (phase phase' : UInt16),
        phase &&& 0xfff = phase' &&& 0xfff →
        (sample weights topBit pulse threshold phase).toUInt16.toNat.testBit line.val =
          (sample weights' topBit pulse threshold phase').toUInt16.toNat.testBit line.val) ∧
    (∀ weights weights' : WeightTable,
      (∀ entry : Fin 25, entry ≠ 0 → entry ≠ 12 → entry ≠ 24 →
        weights.get entry = weights'.get entry) →
      ∀ (topBit pulse threshold : Float32) (phase phase' : UInt16),
        phase &&& 0xfff = phase' &&& 0xfff →
        sample weights topBit pulse threshold phase =
          sample weights' topBit pulse threshold phase') ∧
    ((fitted ⟨.mos6581, .strong⟩ .triangleSawtooth).weights.get 0).isInf = true ∧
    ∀ (profile : Profile) (topBit pulse threshold : Float32) (phase : UInt16),
      (∀ lower : Float32,
        (sample { profile with lower }.weights topBit pulse threshold
            phase).toUInt16.toNat.testBit 0 =
          (sample profile.weights topBit pulse threshold phase).toUInt16.toNat.testBit 0) ∧
      ∀ higher : Float32,
        (sample { profile with higher }.weights topBit pulse threshold
            phase).toUInt16.toNat.testBit 11 =
          (sample profile.weights topBit pulse threshold phase).toUInt16.toNat.testBit 11 := by
  refine ⟨?_, ?_, isInf_strongTriangleSawtooth, ?_⟩
  · intro line weights weights' hagree topBit pulse threshold phase phase' hphase
    exact hagree.testBit_sample_eq topBit pulse threshold hphase
  · intro weights weights' hagree topBit pulse threshold phase phase' hphase
    apply sample_eq_of_reads_eq
    intro line
    have hline : AgreeFor line weights weights' := by
      intro entry ⟨hlt, hle, hmiddle⟩
      refine hagree entry ?_ ?_ ?_ <;> intro heq <;> subst heq
      · exact absurd hlt (Nat.not_lt_zero _)
      · exact hmiddle rfl
      · have hle : 24 ≤ line.val + 12 := hle
        omega
    rw [level_eq_of_and_eq topBit hphase, hline.reads_eq]
  · intro profile topBit pulse threshold phase
    constructor
    · intro lower
      exact (agreeFor_zero profile lower).testBit_sample_eq topBit pulse threshold rfl
    · intro higher
      exact (agreeFor_eleven profile higher).testBit_sample_eq topBit pulse threshold rfl

/-- With zero for the infinite weight and without the high bits of the phase the samples of the
strong 6581 stay the same, and another parameter for lower lines leaves their lowest bit. -/
theorem sample_local_strongTriangleSawtooth :
    let profile := fitted ⟨.mos6581, .strong⟩ .triangleSawtooth
    let bounded := profile.weights.set 0 0
    let moved := { profile with lower := 2 }
    (AgreeFor 0 moved.weights profile.weights ∧
      (∀ entry : Fin 25, entry ≠ 0 → entry ≠ 12 → entry ≠ 24 →
        profile.weights.get entry = bounded.get entry) ∧
      (0xffff : UInt16) &&& 0xfff = 0x0fff &&& 0xfff) ∧
    (sample moved.weights 1 0 0 0xffff).toUInt16.toNat.testBit 0 =
      (sample profile.weights 1 0 0 0x0fff).toUInt16.toNat.testBit 0 ∧
    sample profile.weights 1 0 0 0xffff = sample bounded 1 0 0 0x0fff := by
  intro profile bounded moved
  have hmoved : AgreeFor 0 moved.weights profile.weights := agreeFor_zero profile 2
  have hbounded : ∀ entry : Fin 25, entry ≠ 0 → entry ≠ 12 → entry ≠ 24 →
      profile.weights.get entry = bounded.get entry := by
    intro entry hne _ _
    have hval : 0 ≠ entry.val := fun heq => hne (Fin.ext heq.symm)
    exact (Vector.getElem_set_ne (by decide) entry.isLt hval).symm
  have hphase : (0xffff : UInt16) &&& 0xfff = 0x0fff &&& 0xfff := by decide
  obtain ⟨hline, htable, -⟩ := sample_local
  exact ⟨⟨hmoved, hbounded, hphase⟩,
    hline 0 moved.weights profile.weights hmoved 1 0 0 0xffff 0x0fff hphase,
    htable profile.weights bounded hbounded 1 0 0 0xffff 0x0fff hphase⟩

end SidVoice.Pulldown
