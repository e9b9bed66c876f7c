import SidVoice.Pulldown.Profile

/-!
# The pulldown of one phase

Twelve bit lines feed the output. Each line is loaded by every other line: one that is low
pulls its neighbours down by the weight of their offset, and the pulse takes a constant off the
pull. What is left of a line that is high must exceed the threshold to read as one.

All sums run over the other lines in ascending order, with one rounding for each operation, so
their single-precision values are fixed.
-/

namespace SidVoice.Pulldown

/-- A bit line of the output. -/
abbrev Line := Fin 12

/-- The level of a line: the phase bit, scaled at the top line. -/
def level (topBit : Float32) (phase : UInt16) (line : Line) : Float32 :=
  let bit : Float32 := if phase.toNat.testBit line then 1 else 0
  if line = 11 then bit * topBit else bit

/-- The influence of one line on another. -/
def WeightTable.between (weights : WeightTable) (line other : Line) : Float32 :=
  weights[line.val + 12 - other.val]

/-- For each line the other lines, in ascending order. -/
def otherLines : Vector (List Line) 12 :=
  Vector.ofFn fun line => (List.finRange 12).filter (· ≠ line)

/-- The other lines, in ascending order. -/
def others (line : Line) : List Line := otherLines[line]

theorem others_eq_filter (line : Line) : others line = (List.finRange 12).filter (· ≠ line) := by
  simp [others, otherLines]

theorem mem_others {line other : Line} : other ∈ others line ↔ other ≠ line := by
  simp [others_eq_filter]

theorem length_others (line : Line) : (others line).length = 11 := by
  revert line
  decide

/-- How strongly the other lines pull on a line: the sum of what each lacks to a full level,
weighted by its influence. -/
def pull (weights : WeightTable) (levels : Line → Float32) (line : Line) : Float32 :=
  (others line).foldl (fun sum other => sum + (1 - levels other) * weights.between line other) 0

/-- The sum of the influences of the other lines on a line. -/
def influence (weights : WeightTable) (line : Line) : Float32 :=
  (others line).foldl (fun sum other => sum + weights.between line other) 0

/-- The average pull on a line, less the pulse. -/
def pulldown (weights : WeightTable) (pulse : Float32) (levels : Line → Float32) (line : Line) :
    Float32 :=
  (pull weights levels line - pulse) / influence weights line

/-- What is left of a line: nothing unless it is high. -/
def remaining (weights : WeightTable) (pulse : Float32) (levels : Line → Float32) (line : Line) :
    Float32 :=
  if levels line > 0 then 1 - pulldown weights pulse levels line else 0

/-- Add the bit of a line to a word. -/
def packBit (bits : Line → Bool) (word : UInt16) (line : Line) : UInt16 :=
  if bits line then word ||| 1 <<< UInt16.ofNat line.val else word

/-- The word whose bits are the given ones. -/
def packBits (bits : Line → Bool) : UInt16 := (List.finRange 12).foldl (packBit bits) 0

theorem testBit_or_line (word : UInt16) (line k : Line) :
    (word ||| 1 <<< UInt16.ofNat line.val).toNat.testBit k.val =
      (word.toNat.testBit k.val || decide (line = k)) := by
  have hline : ∀ l k : Line,
      (1 <<< UInt16.ofNat l.val : UInt16).toNat.testBit k.val = decide (l = k) := by decide
  rw [UInt16.toNat_or, Nat.testBit_or, hline]

theorem testBit_foldl_packBit (bits : Line → Bool) (lines : List Line) (word : UInt16) (k : Line) :
    (lines.foldl (packBit bits) word).toNat.testBit k.val =
      (word.toNat.testBit k.val || lines.contains k && bits k) := by
  induction lines generalizing word with
  | nil => simp
  | cons line rest ih =>
    rw [List.foldl_cons, ih, packBit]
    by_cases hb : bits line
    · rw [if_pos hb, testBit_or_line, Bool.or_assoc]
      by_cases hk : line = k
      · subst hk
        simp [hb]
      · have hne : k ≠ line := fun h => hk h.symm
        simp [hk, hne]
    · rw [if_neg hb]
      by_cases hk : k = line
      · subst hk
        simp [hb]
      · simp [hk]

/-- The bits of a packed word are the ones that were packed. -/
theorem testBit_packBits (bits : Line → Bool) (line : Line) :
    (packBits bits).toNat.testBit line.val = bits line := by
  rw [packBits, testBit_foldl_packBit]
  simp

/-- Whether a line reads as one. -/
def reads (weights : WeightTable) (pulse threshold : Float32) (levels : Line → Float32)
    (line : Line) : Bool :=
  remaining weights pulse levels line > threshold

/-- The sample of a phase: the lines that exceed the threshold. -/
def sample (weights : WeightTable) (topBit pulse threshold : Float32) (phase : UInt16) : Int16 :=
  let levels := level topBit phase
  (packBits (reads weights pulse threshold levels)).toInt16

end SidVoice.Pulldown
