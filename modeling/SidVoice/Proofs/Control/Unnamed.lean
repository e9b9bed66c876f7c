import Mathlib.Data.List.Forall2
import SidVoice.Control.Selection

/-!
# Bits without a name

A set of waveform bits carries four bits that have no meaning, and most steps keep them, flip them
or take them over from an operand. Every step works on each bit by itself: a bit afterwards depends
on the same bit before, and on no other one. So two runs of the same steps stay in agreement on
every mask on which their first sets agree.

What is read off a set are its waveforms, whether it has all of them, and its rows. These depend on
the named bits only, and the rows depend on the noise only where the pulse is on without triangle
and sawtooth. The answers of the steps that ask are left out: whether two sets share a bit can turn
on a bit without a name.
-/

namespace SidVoice

/-- The place of a waveform's bit. -/
def Wave.place : Wave → Nat
  | triangle => 0
  | sawtooth => 1
  | pulse => 2
  | noise => 3

namespace WaveBits

/-- A bit of a set. -/
def bit (a : WaveBits) (n : Nat) : Bool := a.byte.toNat.testBit n

/-- Whether two sets have the same bits in a mask. -/
def AgreeOn (mask : UInt8) (a b : WaveBits) : Prop := a.byte &&& mask = b.byte &&& mask

/-- Whether the pulse is on, and neither triangle nor sawtooth is. -/
def PulseAlone (a : WaveBits) : Prop :=
  Wave.pulse ∈ a.waves ∧ Wave.triangle ∉ a.waves ∧ Wave.sawtooth ∉ a.waves

/-- Whether nothing that is read off two sets tells them apart. -/
structure LookAlike (a b : WaveBits) : Prop where
  /-- The waveforms are the same. -/
  waves : a.waves = b.waves
  /-- Both have all waveforms, or neither has. -/
  isAll : a.isAll = b.isAll
  /-- The rows are the same. -/
  selection : a.selection = b.selection

section Bits

variable (a b : WaveBits) (n : Nat)

theorem bit_union : (a.union b).bit n = (a.bit n || b.bit n) := by
  rw [bit, byte_union, UInt8.toNat_or, Nat.testBit_or, bit, bit]

theorem bit_inter : (a.inter b).bit n = (a.bit n && b.bit n) := by
  rw [bit, byte_inter, UInt8.toNat_and, Nat.testBit_and, bit, bit]

theorem bit_symmDiff : (a.symmDiff b).bit n = (a.bit n ^^ b.bit n) := by
  rw [bit, byte_symmDiff, UInt8.toNat_xor, Nat.testBit_xor, bit, bit]

theorem bit_of_eight_le {n : Nat} (hn : 8 ≤ n) : a.bit n = false :=
  Nat.testBit_lt_two_pow (Nat.lt_of_lt_of_le a.byte.toNat_lt (Nat.pow_le_pow_right Nat.two_pos hn))

/-- The inverted bits of a byte, as far as there are any. -/
theorem bit_not : (WaveBits.mk (~~~a.byte)).bit n = (decide (n < 8) && !a.bit n) := by
  rw [bit, bit, ← UInt8.toNat_toBitVec, ← UInt8.toNat_toBitVec, BitVec.testBit_toNat,
    BitVec.testBit_toNat, UInt8.toBitVec_not, BitVec.getLsbD_not]

theorem bit_diff : (a.diff b).bit n = (a.bit n && !b.bit n) := by
  have hinter : (a.diff b).bit n = (a.bit n && (decide (n < 8) && !b.bit n)) := by
    rw [← bit_not]
    exact bit_inter a ⟨~~~b.byte⟩ n
  rw [hinter]
  by_cases hn : n < 8
  · rw [decide_eq_true hn, Bool.true_and]
  · rw [bit_of_eight_le a (Nat.le_of_not_lt hn), Bool.false_and, Bool.false_and]

theorem bit_complement : a.complement.bit n = ((decide (n < 8) && !a.bit n) && all.bit n) := by
  rw [← bit_not]
  exact bit_inter ⟨~~~a.byte⟩ all n

end Bits

section Agreement

variable {mask : UInt8} {a b : WaveBits}

/-- Sets agree on a mask if each bit of the mask is the same in both. -/
theorem agreeOn_iff :
    AgreeOn mask a b ↔ ∀ n, mask.toNat.testBit n = true → a.bit n = b.bit n := by
  have hbits (x : WaveBits) (n : Nat) :
      (x.byte &&& mask).toNat.testBit n = (x.bit n && mask.toNat.testBit n) := by
    rw [UInt8.toNat_and, Nat.testBit_and, bit]
  constructor
  · intro h n hn
    have hsame := congrArg (fun byte : UInt8 => byte.toNat.testBit n) h
    simpa only [hbits, hn, Bool.and_true] using hsame
  · intro h
    apply UInt8.toNat_inj.mp
    apply Nat.eq_of_testBit_eq
    intro n
    rw [hbits, hbits]
    cases hn : mask.toNat.testBit n with
    | false => rw [Bool.and_false, Bool.and_false]
    | true => rw [h n hn]

/-- Sets that agree on a mask agree on every part of it. -/
theorem AgreeOn.restrict (h : AgreeOn mask a b) {part : UInt8} (hpart : mask &&& part = part) :
    AgreeOn part a b := by
  calc
    a.byte &&& part = a.byte &&& mask &&& part := by rw [UInt8.and_assoc, hpart]
    _ = b.byte &&& mask &&& part := by rw [h]
    _ = b.byte &&& part := by rw [UInt8.and_assoc, hpart]

/-- Sets that agree on the bit of a waveform have it alike. -/
theorem AgreeOn.contains_eq {wave : Wave} (h : AgreeOn wave.mask a b) :
    a.contains (ofWave wave) = b.contains (ofWave wave) := by
  rw [contains, contains, ofWave, h]

/-- Sets that agree on the low three bits. -/
theorem agreeOn_low_iff : AgreeOn 7 a b ↔ ∀ n < 3, a.bit n = b.bit n := by
  have hlow (n : Nat) : (7 : UInt8).toNat.testBit n = decide (n < 3) :=
    Nat.testBit_two_pow_sub_one 3 n
  simp only [agreeOn_iff, hlow, decide_eq_true_eq]

end Agreement

section Waves

variable {a b : WaveBits} {wave : Wave}

theorem bit_ofWave (wave : Wave) (n : Nat) :
    (ofWave wave).bit n = decide (wave.place = n) := by
  have hmask : wave.mask.toNat = 2 ^ wave.place := by cases wave <;> rfl
  rw [bit, ofWave, hmask, Nat.testBit_two_pow]

/-- A set has a waveform exactly if it has the bit of it. -/
theorem contains_ofWave_iff : a.contains (ofWave wave) = true ↔ a.bit wave.place = true := by
  have hself : wave.mask &&& wave.mask = wave.mask := by cases wave <;> decide
  have hagree : a.contains (ofWave wave) = true ↔ AgreeOn wave.mask a (ofWave wave) := by
    rw [contains, beq_iff_eq, AgreeOn, ofWave, hself]
  have hmask (n : Nat) : wave.mask.toNat.testBit n = decide (wave.place = n) := bit_ofWave wave n
  simp [hagree, agreeOn_iff, hmask, bit_ofWave]

theorem mem_waves_iff : wave ∈ a.waves ↔ a.bit wave.place = true := by
  have hall : wave ∈ Wave.all := by cases wave <;> decide
  rw [waves, List.mem_filter, and_iff_right hall, contains_ofWave_iff]

/-- Switching a waveform on changes no other bit. -/
theorem agreeOn_union_ofWave (a : WaveBits) {mask : UInt8}
    (h : mask.toNat.testBit wave.place = false) : AgreeOn mask a (a.union (ofWave wave)) := by
  rw [agreeOn_iff]
  intro n hn
  have hplace : wave.place ≠ n := fun heq => by simp [← heq, h] at hn
  rw [bit_union, bit_ofWave, decide_eq_false hplace, Bool.or_false]

/-- Switching a waveform off changes no other bit. -/
theorem agreeOn_diff_ofWave (a : WaveBits) {mask : UInt8}
    (h : mask.toNat.testBit wave.place = false) : AgreeOn mask a (a.diff (ofWave wave)) := by
  rw [agreeOn_iff]
  intro n hn
  have hplace : wave.place ≠ n := fun heq => by simp [← heq, h] at hn
  rw [bit_diff, bit_ofWave, decide_eq_false hplace, Bool.not_false, Bool.and_true]

theorem contains_union_ofWave (a : WaveBits) (wave : Wave) :
    (a.union (ofWave wave)).contains (ofWave wave) = true := by
  rw [contains_ofWave_iff, bit_union, bit_ofWave, decide_eq_true rfl, Bool.or_true]

theorem contains_diff_ofWave (a : WaveBits) (wave : Wave) :
    (a.diff (ofWave wave)).contains (ofWave wave) = false := by
  rw [Bool.eq_false_iff, Ne, contains_ofWave_iff, bit_diff, bit_ofWave, decide_eq_true rfl,
    Bool.not_true, Bool.and_false]
  exact Bool.false_ne_true

/-- The pulse is alone exactly if it is the only one of the low three bits. -/
theorem pulseAlone_iff : a.PulseAlone ↔ a.byte &&& 7 = 4 := by
  have hagree : a.byte &&& 7 = 4 ↔ AgreeOn 7 a (ofWave .pulse) := Iff.rfl
  rw [hagree, agreeOn_low_iff, PulseAlone, mem_waves_iff, mem_waves_iff, mem_waves_iff]
  simp only [bit_ofWave]
  constructor
  · rintro ⟨hpulse, htriangle, hsawtooth⟩ n hn
    match n with
    | 0 => exact Bool.eq_false_iff.mpr htriangle
    | 1 => exact Bool.eq_false_iff.mpr hsawtooth
    | 2 => exact hpulse
  · intro h
    exact ⟨h 2 (by decide), Bool.eq_false_iff.mp (h 0 (by decide)),
      Bool.eq_false_iff.mp (h 1 (by decide))⟩

end Waves

section Views

variable {a b : WaveBits}

/-- Sets that agree on the named bits look alike. -/
theorem AgreeOn.lookAlike (h : AgreeOn named a b) : LookAlike a b where
  waves := by
    apply List.filter_congr
    intro wave _
    apply AgreeOn.contains_eq
    exact h.restrict (by cases wave <;> decide)
  isAll := by rw [isAll, isAll, h]
  selection := by
    have hbasic : a.basicWave = b.basicWave := by
      rw [basicWave, basicWave, h.restrict (show named &&& 3 = 3 by decide)]
    have hnoise : a.contains (ofWave .noise) = b.contains (ofWave .noise) :=
      AgreeOn.contains_eq (h.restrict (by decide))
    have hcombination : a.combination? = b.combination? := by
      rw [combination?, combination?, h.restrict (show named &&& 7 = 7 by decide), hnoise]
    rw [WaveBits.selection, WaveBits.selection, hbasic, hcombination]

theorem AgreeOn.pulseAlone_iff (h : AgreeOn 7 a b) : a.PulseAlone ↔ b.PulseAlone := by
  rw [WaveBits.pulseAlone_iff, WaveBits.pulseAlone_iff, h]

/-- The rows depend on the low three bits only, unless the pulse is alone. -/
theorem AgreeOn.selection_eq (h : AgreeOn 7 a b) (halone : ¬ a.PulseAlone) :
    a.selection = b.selection := by
  have hlow : a.byte &&& 7 = b.byte &&& 7 := h
  have hbasic : a.basicWave = b.basicWave := by
    rw [basicWave, basicWave, h.restrict (show (7 : UInt8) &&& 3 = 3 by decide)]
  have hcombination : a.combination? = b.combination? := by
    rw [WaveBits.pulseAlone_iff, hlow] at halone
    rw [combination?, combination?, hlow]
    split
    · rfl
    · exact absurd (by assumption) halone
    all_goals rfl
  rw [selection, selection, hbasic, hcombination]

theorem combination?_of_pulseAlone (h : a.PulseAlone) :
    a.combination? = if a.contains (ofWave .noise) then some .noisePulse else none := by
  rw [combination?, pulseAlone_iff.mp h]
  rfl

/-- Switching the noise on or off makes a difference to the rows exactly where the pulse is
alone. -/
theorem selection_noise_ne_iff :
    (a.union (ofWave .noise)).selection ≠ (a.diff (ofWave .noise)).selection ↔ a.PulseAlone := by
  have hon : AgreeOn 7 a (a.union (ofWave .noise)) := a.agreeOn_union_ofWave (by decide)
  have hoff : AgreeOn 7 a (a.diff (ofWave .noise)) := a.agreeOn_diff_ofWave (by decide)
  constructor
  · intro hne
    by_contra halone
    exact hne ((hon.selection_eq halone).symm.trans (hoff.selection_eq halone))
  · intro halone heq
    have hcombination := congrArg Selection.pulldown heq
    simp only [selection, combination?_of_pulseAlone (hon.pulseAlone_iff.mp halone),
      combination?_of_pulseAlone (hoff.pulseAlone_iff.mp halone), contains_union_ofWave,
      contains_diff_ofWave] at hcombination
    cases hcombination

end Views

end WaveBits

namespace WaveStep

open WaveBits

/-- The sets of a run: the first one, and the one after each step. -/
def states (start : WaveBits) (steps : List WaveStep) : List WaveBits :=
  start :: (run start steps).map Prod.fst

/-- A bit after a step depends on the same bit before. -/
theorem bit_apply (step : WaveStep) {a b : WaveBits} {n : Nat} (h : a.bit n = b.bit n) :
    (step.apply a).1.bit n = (step.apply b).1.bit n := by
  cases step with
  | insert c | union c => simp only [apply, bit_union, h]
  | remove c | difference c => simp only [apply, bit_diff, h]
  | toggle c | symmetricDifference c => simp only [apply, bit_symmDiff, h]
  | set c value => cases value <;> simp [apply, bit_union, bit_diff, h]
  | intersection c => simp only [apply, bit_inter, h]
  | complement => simp only [apply, bit_complement, h]
  | contains c | intersects c => exact h
  | ofByte byte =>
    -- the byte decides whether the step is carried out
    simp only [apply]
    cases WaveBits.ofByte? byte with
    | none => exact h
    | some next => rfl
  | ofName name =>
    simp only [apply]
    cases (Wave.ofName? name).map ofWave with
    | none => exact h
    | some next => rfl
  | truncate byte | ofControl control | all | empty => rfl

/-- A step keeps sets in agreement. -/
theorem agreeOn_apply (step : WaveStep) {mask : UInt8} {a b : WaveBits} (h : AgreeOn mask a b) :
    AgreeOn mask (step.apply a).1 (step.apply b).1 := by
  rw [agreeOn_iff] at h ⊢
  intro n hn
  exact step.bit_apply (h n hn)

/-- Runs of the same steps stay in agreement. -/
theorem agreeOn_states {mask : UInt8} {a b : WaveBits} (h : AgreeOn mask a b)
    (steps : List WaveStep) : List.Forall₂ (AgreeOn mask) (states a steps) (states b steps) := by
  induction steps generalizing a b with
  | nil => exact .cons h .nil
  | cons step rest ih => exact .cons h (ih (step.agreeOn_apply h))

/-- Runs of the same steps from two bytes with the same low nibble look alike after every step. In
every set of a run the noise makes a difference to the rows exactly where the pulse is alone; so
runs from two bytes with the same low three bits have the same rows wherever it is not. -/
theorem states_lookAlike (steps : List WaveStep) :
    (∀ first second : UInt8, first &&& 0xf = second &&& 0xf →
      List.Forall₂ LookAlike (states ⟨first⟩ steps) (states ⟨second⟩ steps)) ∧
    (∀ start : WaveBits, ∀ now ∈ states start steps,
      ((now.union (ofWave .noise)).selection ≠ (now.diff (ofWave .noise)).selection ↔
        now.PulseAlone)) ∧
    (∀ first second : UInt8, first &&& 7 = second &&& 7 →
      List.Forall₂ (fun a b => (a.PulseAlone ↔ b.PulseAlone) ∧
        (¬ a.PulseAlone → a.selection = b.selection))
        (states ⟨first⟩ steps) (states ⟨second⟩ steps)) := by
  refine ⟨?_, fun start now _ => selection_noise_ne_iff, ?_⟩
  · intro first second h
    have hagree : AgreeOn named ⟨first⟩ ⟨second⟩ := h
    exact (agreeOn_states hagree steps).imp fun a b => AgreeOn.lookAlike
  · intro first second h
    have hagree : AgreeOn 7 ⟨first⟩ ⟨second⟩ := h
    exact (agreeOn_states hagree steps).imp fun a b hab => ⟨hab.pulseAlone_iff, hab.selection_eq⟩

/-- Two bytes that differ in bits without a name still differ after bits have been flipped and a
byte has been refused, and one of them shares a bit that the other one lacks; but they look alike
all along. At the start the pulse is alone, so there the noise makes a difference. -/
theorem states_lookAlike_mixedSteps :
    let steps : List WaveStep := [.toggle ⟨0xf8⟩, .ofByte 0x31, .intersects ⟨0x20⟩,
      .set ⟨0x8c⟩ true, .complement, .ofControl 0x4f]
    ((0x54 : UInt8) &&& 0xf = 0xf4 &&& 0xf ∧
      (run ⟨0x54⟩ steps).map Prod.snd ≠ (run ⟨0xf4⟩ steps).map Prod.snd ∧
      List.Forall₂ LookAlike (states ⟨0x54⟩ steps) (states ⟨0xf4⟩ steps)) ∧
    (⟨0x54⟩ ∈ states ⟨0x54⟩ steps ∧
      (WaveBits.mk 0x5c).selection ≠ (WaveBits.mk 0x54).selection) ∧
    ((0x5b : UInt8) &&& 7 = 0xa3 &&& 7 ∧
      (WaveBits.mk 0x5b).selection = (WaveBits.mk 0xa3).selection) := by
  intro steps
  obtain ⟨halike, hnoise, hlow⟩ := states_lookAlike steps
  have hnibble : (0x54 : UInt8) &&& 0xf = 0xf4 &&& 0xf := by decide
  have hstart : (⟨0x54⟩ : WaveBits) ∈ states ⟨0x54⟩ steps := List.mem_cons_self
  have halone : (WaveBits.mk 0x54).PulseAlone := pulseAlone_iff.mpr (by decide)
  have hbits : (0x5b : UInt8) &&& 7 = 0xa3 &&& 7 := by decide
  obtain ⟨⟨-, hsame⟩, -⟩ := List.forall₂_cons.mp (hlow 0x5b 0xa3 hbits)
  refine ⟨⟨hnibble, by decide, halike 0x54 0xf4 hnibble⟩, ⟨hstart, ?_⟩, hbits, ?_⟩
  · exact (hnoise ⟨0x54⟩ ⟨0x54⟩ hstart).mpr halone
  · exact hsame (mt pulseAlone_iff.mp (by decide))

end WaveStep

end SidVoice
