import SidVoice.Proofs.Number.Single
import SidVoice.Pulldown.Sample

/-!
# Words as sets of lines

A sample is a word of twelve bits, one for each line, and a phase decides the level of a line by
its bit. Statements about samples are reduced to statements about single lines here: what a
sample's bits are, when a word has no bit that another one lacks, and what a clear phase bit says
about a level.

Nothing is assumed of the factor on the top line. It is multiplied in even where the phase bit is
clear, and whatever it is, the product is not positive.
-/

namespace SidVoice.Pulldown

section Words

variable {word other : UInt16}

theorem testBit_and (word other : UInt16) (n : Nat) :
    (word &&& other).toNat.testBit n = (word.toNat.testBit n && other.toNat.testBit n) := by
  rw [UInt16.toNat_and, Nat.testBit_and]

/-- A word has no bit of a mask with a single bit if it lacks that bit. -/
theorem and_eq_zero_iff {mask : UInt16} {n : Nat} (hmask : mask.toNat = 2 ^ n) :
    word &&& mask = 0 ↔ word.toNat.testBit n = false := by
  have hbits (m : Nat) :
      (word &&& mask).toNat.testBit m = (word.toNat.testBit m && decide (n = m)) := by
    rw [testBit_and, hmask, Nat.testBit_two_pow]
  constructor
  · intro h
    have hbit := hbits n
    rw [h, decide_eq_true rfl, Bool.and_true] at hbit
    rw [← hbit]
    exact Nat.zero_testBit n
  · intro h
    apply UInt16.toNat_inj.mp
    apply Nat.eq_of_testBit_eq
    intro m
    rw [hbits]
    by_cases hm : n = m
    · subst hm
      simp [h]
    · simp [hm]

theorem testBit_not (word : UInt16) {n : Nat} (hn : n < 16) :
    (~~~word).toNat.testBit n = !word.toNat.testBit n := by
  rw [← UInt16.toNat_toBitVec, ← UInt16.toNat_toBitVec, BitVec.testBit_toNat, BitVec.testBit_toNat,
    UInt16.toBitVec_not, BitVec.getLsbD_not, decide_eq_true hn, Bool.true_and]

theorem testBit_of_twelve_le (hword : word.toNat < 0x1000) {n : Nat} (hn : 12 ≤ n) :
    word.toNat.testBit n = false := by
  have hpow : (0x1000 : Nat) ≤ 2 ^ n := Nat.pow_le_pow_right Nat.two_pos hn
  exact Nat.testBit_lt_two_pow (Nat.lt_of_lt_of_le hword hpow)

/-- All lines are among the low bits. -/
theorem testBit_low (line : Line) : (0xfff : UInt16).toNat.testBit line.val = true := by
  revert line
  decide

/-- A word of twelve bits has none that another one lacks if the other one has all its lines. -/
theorem and_not_eq_zero (hword : word.toNat < 0x1000)
    (h : ∀ line : Line, word.toNat.testBit line.val = true → other.toNat.testBit line.val = true) :
    word &&& ~~~other = 0 := by
  apply UInt16.toNat_inj.mp
  apply Nat.eq_of_testBit_eq
  intro n
  rw [testBit_and]
  by_cases hn : n < 12
  · rw [testBit_not other (by omega)]
    cases hbit : word.toNat.testBit n with
    | false => simp
    | true => simp [h ⟨n, hn⟩ hbit]
  · simp [testBit_of_twelve_le hword (Nat.le_of_not_lt hn)]

/-- A word whose low bits all are bits of another one gives each of its lines to the other one. -/
theorem testBit_of_and_not (h : word &&& ~~~other &&& 0xfff = 0) {line : Line}
    (hbit : word.toNat.testBit line.val = true) : other.toNat.testBit line.val = true := by
  have hline : line.val < 16 := Nat.lt_trans line.isLt (by decide)
  have hzero : (word &&& ~~~other &&& 0xfff).toNat.testBit line.val = false := by
    rw [h]
    exact Nat.zero_testBit line.val
  rw [testBit_and, testBit_and, testBit_not other hline, testBit_low, hbit] at hzero
  simpa using hzero

/-- Words with the same low bits have the same lines. -/
theorem testBit_eq_of_and_eq (h : word &&& 0xfff = other &&& 0xfff) (line : Line) :
    word.toNat.testBit line.val = other.toNat.testBit line.val := by
  have hsame := congrArg (fun w : UInt16 => w.toNat.testBit line.val) h
  simpa only [testBit_and, testBit_low, Bool.and_true] using hsame

end Words

section Samples

theorem packBits_lt (bits : Line → Bool) : (packBits bits).toNat < 0x1000 := by
  have hfold : ∀ (lines : List Line) (word : UInt16), word.toNat < 0x1000 →
      (lines.foldl (packBit bits) word).toNat < 0x1000 := by
    intro lines
    induction lines with
    | nil => exact fun _ h => h
    | cons line rest ih =>
      intro word h
      refine ih (packBit bits word line) ?_
      have hline : (1 <<< UInt16.ofNat line.val : UInt16).toNat < 2 ^ 12 := by
        revert line
        decide
      rw [packBit]
      split
      · rw [UInt16.toNat_or]
        exact Nat.or_lt_two_pow h hline
      · exact h
  exact hfold _ 0 (by decide)

/-- A word of twelve bits is packed from its own bits. -/
theorem packBits_eq {bits : Line → Bool} {word : UInt16} (hword : word.toNat < 0x1000)
    (h : ∀ line : Line, bits line = word.toNat.testBit line.val) : packBits bits = word := by
  apply UInt16.toNat_inj.mp
  apply Nat.eq_of_testBit_eq
  intro n
  by_cases hn : n < 12
  · rw [testBit_packBits bits ⟨n, hn⟩]
    exact h ⟨n, hn⟩
  · have hlarge := Nat.le_of_not_lt hn
    rw [testBit_of_twelve_le (packBits_lt bits) hlarge, testBit_of_twelve_le hword hlarge]

variable (weights : WeightTable) (topBit pulse threshold : Float32) (phase : UInt16)

theorem testBit_sample (line : Line) :
    (sample weights topBit pulse threshold phase).toUInt16.toNat.testBit line.val =
      reads weights pulse threshold (level topBit phase) line := by
  rw [sample, UInt16.toUInt16_toInt16, testBit_packBits]

theorem toNat_sample_lt :
    (sample weights topBit pulse threshold phase).toUInt16.toNat < 0x1000 := by
  rw [sample, UInt16.toUInt16_toInt16]
  exact packBits_lt _

/-- A sample is the same number as its word. -/
theorem toInt_sample :
    (sample weights topBit pulse threshold phase).toInt =
      (sample weights topBit pulse threshold phase).toUInt16.toNat := by
  have hlt := toNat_sample_lt weights topBit pulse threshold phase
  apply BitVec.toInt_eq_toNat_of_lt
  change 2 * (sample weights topBit pulse threshold phase).toUInt16.toNat < _
  omega

/-- A sample is the word of the lines that read as one. -/
theorem sample_eq_toInt16 (word : UInt16) (hword : word.toNat < 0x1000)
    (h : ∀ line : Line, reads weights pulse threshold (level topBit phase) line =
      word.toNat.testBit line.val) :
    sample weights topBit pulse threshold phase = word.toInt16 :=
  congrArg UInt16.toInt16 (packBits_eq hword h)

/-- A sample is nothing if no line reads as one. -/
theorem sample_eq_zero
    (h : ∀ line, reads weights pulse threshold (level topBit phase) line = false) :
    sample weights topBit pulse threshold phase = 0 := by
  apply sample_eq_toInt16 weights topBit pulse threshold phase 0 (by decide)
  intro line
  rw [h line]
  exact (Nat.zero_testBit line.val).symm

/-- A sample is not negative and has twelve bits. -/
theorem sample_bounds :
    0 ≤ sample weights topBit pulse threshold phase ∧
      sample weights topBit pulse threshold phase ≤ 0xfff := by
  have hlt := toNat_sample_lt weights topBit pulse threshold phase
  have hzero : (0 : Int16).toInt = 0 := rfl
  have hlast : (0xfff : Int16).toInt = 0xfff := rfl
  rw [Int16.le_iff_toInt_le, Int16.le_iff_toInt_le, toInt_sample, hzero, hlast]
  omega

end Samples

/-- A line whose phase bit is clear is not high, whatever the factor on the top line. -/
theorem not_level_pos (topBit : Float32) {phase : UInt16} {line : Line}
    (h : phase.toNat.testBit line.val = false) : ¬ level topBit phase line > 0 := by
  have hclear : ¬ phase.toNat.testBit line.val = true := by simp [h]
  simp only [level, if_neg hclear]
  split
  · exact Number.not_pos_zero_mul topBit
  · decide

end SidVoice.Pulldown
