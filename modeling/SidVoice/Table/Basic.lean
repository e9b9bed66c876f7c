import SidVoice.Table.Matrix
import SidVoice.Waveform

/-!
# The basic table

The samples of the four basic waveforms are words made from the phase. The triangle rises over
the lower half of the phases and falls over the upper half, in even steps; all other waveforms
use the twelve bits as they are.
-/

namespace SidVoice

/-- The triangle of a word: the top bit of a phase inverts the other bits of it, and the result
is shifted up by one. -/
def foldTriangle (word : UInt16) : UInt16 :=
  (if word &&& 0x800 = 0 then word else word ^^^ 0xfff) <<< 1

/-- The sample of a basic waveform for a word. -/
def BasicWave.sampleOf (wave : BasicWave) (word : UInt16) : Int16 :=
  match wave with
  | constantHigh => 0xfff
  | triangle => (foldTriangle word).toInt16
  | sawtooth => word.toInt16
  | sawtoothAnd => word.toInt16 &&& word.toInt16 <<< 1

/-- The samples of the basic waveforms. -/
def basicTable : SampleMatrix 4 :=
  .fill 4 fun row phase => (BasicWave.ofRow row).sampleOf phase.word

@[simp] theorem cell_basicTable (wave : BasicWave) (phase : Phase) :
    basicTable.cell wave.row phase = wave.sampleOf phase.word := by
  simp [basicTable]

end SidVoice
