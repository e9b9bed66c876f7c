import SidVoice.Proofs.Pulldown.Lines
import SidVoice.Table.Basic

/-!
# The shapes of the basic waveforms

The triangle folds a word by its top bit and shifts it up. Bit by bit it is the bit below, inverted
if the top bit is set. So a word and its mirror image have the same triangle, the triangle is even,
and the topmost bit of the word falls out.

At a phase the triangle rises by two to 4094, stays there for one phase and falls again: its shift
doubles the step, and no sample reaches 4095. The other samples are the greatest number, the phase,
and the bits of the phase whose lower neighbours are set too.
-/

namespace SidVoice

open Pulldown (and_eq_zero_iff testBit_and testBit_of_twelve_le)

section Words

variable {word : UInt16}

theorem testBit_xor_low (word : UInt16) (n : Nat) :
    (word ^^^ 0xfff).toNat.testBit n = (word.toNat.testBit n ^^ decide (n < 12)) := by
  rw [UInt16.toNat_xor, Nat.testBit_xor]
  exact congrArg (word.toNat.testBit n ^^ ·) (Nat.testBit_two_pow_sub_one 12 n)

theorem toNat_shift_one (word : UInt16) : (word <<< 1).toNat = 2 * word.toNat % 0x10000 := by
  rw [UInt16.toNat_shiftLeft, Nat.mul_comm]
  exact congrArg (· % 0x10000) (Nat.shiftLeft_eq word.toNat 1)

theorem testBit_shift_one (word : UInt16) (n : Nat) :
    (word <<< 1).toNat.testBit n = (decide (1 ≤ n ∧ n < 16) && word.toNat.testBit (n - 1)) := by
  have hshift : (word <<< 1).toNat = (word.toNat <<< 1) % 2 ^ 16 := UInt16.toNat_shiftLeft word 1
  have hrange : decide (n < 16 ∧ n ≥ 1) = decide (1 ≤ n ∧ n < 16) := decide_eq_decide.mpr and_comm
  rw [hshift, Nat.testBit_mod_two_pow, Nat.testBit_shiftLeft, ← Bool.and_assoc, ← Bool.decide_and,
    hrange]

/-- Inverting the low bits of a word of twelve bits counts down from the greatest of them. -/
theorem toNat_xor_low (h : word.toNat < 0x1000) : (word ^^^ 0xfff).toNat = 0xfff - word.toNat := by
  have hsub : 0xfff - word.toNat = 2 ^ 12 - (word.toNat + 1) := by omega
  rw [hsub]
  apply Nat.eq_of_testBit_eq
  intro n
  rw [testBit_xor_low, Nat.testBit_two_pow_sub_succ h]
  by_cases hn : n < 12
  · simp [hn]
  · simp [hn, testBit_of_twelve_le h (Nat.le_of_not_lt hn)]

/-- A word of fifteen bits is the same number when it is taken as signed. -/
theorem toInt_toInt16 (h : word.toNat < 0x8000) : word.toInt16.toInt = word.toNat :=
  BitVec.toInt_eq_toNat_of_lt (by change 2 * word.toNat < 0x10000; omega)

end Words

section Triangle

variable (word : UInt16)

/-- The word whose bits the triangle shifts up. -/
theorem testBit_folded (n : Nat) :
    (if word &&& 0x800 = 0 then word else word ^^^ 0xfff).toNat.testBit n =
      (word.toNat.testBit n ^^ (word.toNat.testBit 11 && decide (n < 12))) := by
  have htop : word &&& 0x800 = 0 ↔ word.toNat.testBit 11 = false := and_eq_zero_iff (by rfl)
  split
  · rename_i h
    rw [htop.mp h, Bool.false_and, Bool.xor_false]
  · rename_i h
    rw [htop, Bool.not_eq_false] at h
    rw [testBit_xor_low, h, Bool.true_and]

/-- A bit of the triangle is the bit below it in the word, inverted if the top bit is set. -/
theorem testBit_foldTriangle (n : Nat) :
    (foldTriangle word).toNat.testBit n =
      (decide (1 ≤ n ∧ n < 16) &&
        (word.toNat.testBit (n - 1) ^^ (word.toNat.testBit 11 && decide (n - 1 < 12)))) := by
  rw [foldTriangle, testBit_shift_one, testBit_folded]

/-- A word and its mirror image have the same triangle. -/
theorem foldTriangle_xor : foldTriangle (word ^^^ 0xfff) = foldTriangle word := by
  apply UInt16.toNat_inj.mp
  apply Nat.eq_of_testBit_eq
  intro n
  rw [testBit_foldTriangle, testBit_foldTriangle, testBit_xor_low, testBit_xor_low]
  cases decide (n - 1 < 12) <;> simp

theorem foldTriangle_even : (foldTriangle word).toNat % 2 = 0 := by
  have hbit : (foldTriangle word).toNat.testBit 0 = false := by
    rw [testBit_foldTriangle]
    rfl
  simpa using hbit

variable {word}

/-- The triangle depends on the low fifteen bits only. -/
theorem foldTriangle_eq_of_and_eq {other : UInt16} (h : word &&& 0x7fff = other &&& 0x7fff) :
    foldTriangle word = foldTriangle other := by
  have hlow (n : Nat) (hn : n < 15) : word.toNat.testBit n = other.toNat.testBit n := by
    have hmask : (0x7fff : UInt16).toNat.testBit n = true := by
      rw [show (0x7fff : UInt16).toNat = 2 ^ 15 - 1 from rfl, Nat.testBit_two_pow_sub_one]
      exact decide_eq_true hn
    have hsame := congrArg (fun w : UInt16 => w.toNat.testBit n) h
    simpa only [testBit_and, hmask, Bool.and_true] using hsame
  apply UInt16.toNat_inj.mp
  apply Nat.eq_of_testBit_eq
  intro n
  rw [testBit_foldTriangle, testBit_foldTriangle, hlow 11 (by decide)]
  by_cases hn : 1 ≤ n ∧ n < 16
  · rw [hlow (n - 1) (by omega)]
  · rw [decide_eq_false hn, Bool.false_and, Bool.false_and]

/-- Over twelve bits the triangle rises by two and falls by two. -/
theorem toNat_foldTriangle (h : word.toNat < 0x1000) :
    (foldTriangle word).toNat = 2 * min word.toNat (0xfff - word.toNat) := by
  have htop : word &&& 0x800 = 0 ↔ word.toNat < 0x800 := by
    rw [and_eq_zero_iff (show (0x800 : UInt16).toNat = 2 ^ 11 from rfl),
      Nat.testBit_eq_decide_div_mod_eq, decide_eq_false_iff_not]
    omega
  rw [foldTriangle, toNat_shift_one]
  split
  · rename_i hlow
    have hlt := htop.mp hlow
    omega
  · rename_i hhigh
    have hge := mt htop.mpr hhigh
    rw [toNat_xor_low h]
    omega

end Triangle

namespace BasicWave

/-- Whether a number is the one that a waveform has at a phase. -/
def Draws (wave : BasicWave) (phase : Phase) (n : Nat) : Prop :=
  match wave with
  | constantHigh => n = 4095
  | triangle => n = 2 * min phase.val (4095 - phase.val)
  | sawtooth => n = phase.val
  | sawtoothAnd => ∀ k, n.testBit k = true ↔
      1 ≤ k ∧ phase.val.testBit k = true ∧ phase.val.testBit (k - 1) = true

/-- The sample of a waveform at a phase is the number that it has there. -/
theorem sampleOf_draws (wave : BasicWave) (phase : Phase) :
    ∃ n : Nat, wave.Draws phase n ∧ (wave.sampleOf phase.word).toInt = n := by
  have hword : phase.word.toNat < 0x1000 := by
    rw [Phase.toNat_word]
    exact phase.isLt
  cases wave with
  | constantHigh => exact ⟨4095, rfl, rfl⟩
  | triangle =>
    have hfold := toNat_foldTriangle hword
    refine ⟨(foldTriangle phase.word).toNat, ?_, toInt_toInt16 (by omega)⟩
    rw [Phase.toNat_word] at hfold
    exact hfold
  | sawtooth => exact ⟨phase.word.toNat, phase.toNat_word, toInt_toInt16 (by omega)⟩
  | sawtoothAnd =>
    have hsample : sawtoothAnd.sampleOf phase.word = (phase.word &&& phase.word <<< 1).toInt16 := by
      rw [UInt16.toInt16_and]
      rfl
    have hle : (phase.word &&& phase.word <<< 1).toNat ≤ phase.word.toNat := by
      rw [UInt16.toNat_and]
      exact Nat.and_le_left
    refine ⟨(phase.word &&& phase.word <<< 1).toNat, fun k => ?_, ?_⟩
    · rw [testBit_and, testBit_shift_one, Phase.toNat_word]
      by_cases hk : k < 12
      · have hwidth : k < 16 := Nat.lt_trans hk (by decide)
        simp [hwidth, and_left_comm]
      · have hclear : phase.val.testBit k = false := by
          rw [← Phase.toNat_word]
          exact testBit_of_twelve_le hword (Nat.le_of_not_lt hk)
        simp [hclear]
    · rw [hsample]
      exact toInt_toInt16 (by omega)

end BasicWave

end SidVoice
