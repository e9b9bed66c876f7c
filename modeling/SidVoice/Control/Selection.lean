import SidVoice.Control.WaveBits
import SidVoice.Waveform

/-!
# Which rows a voice reads

The low two waveform bits choose the row of the basic table. Where several waveforms load each
other, a row of a combined table is read as well. Noise together with other waveforms reads the
rows of those waveforms alone; only noise with pulse, and neither triangle nor sawtooth, has a
row of its own.
-/

namespace SidVoice

/-- The rows that a voice reads. -/
structure Selection where
  /-- The row of the basic table. -/
  basic : BasicWave
  /-- The row of the combined table, if the combination is modelled. -/
  pulldown : Option Combination
  deriving DecidableEq

namespace WaveBits

/-- The basic row of the low two bits. -/
def basicWave (bits : WaveBits) : BasicWave :=
  match bits.byte &&& 3 with
  | 0 => .constantHigh
  | 1 => .triangle
  | 2 => .sawtooth
  | _ => .sawtoothAnd

/-- The combined row of the low three bits; noise matters for pulse alone. -/
def combination? (bits : WaveBits) : Option Combination :=
  match bits.byte &&& 7 with
  | 3 => some .triangleSawtooth
  | 4 => if bits.contains (ofWave .noise) then some .noisePulse else none
  | 5 => some .pulseTriangle
  | 6 => some .pulseSawtooth
  | 7 => some .pulseTriangleSawtooth
  | _ => none

/-- The rows for a set of waveform bits. -/
def selection (bits : WaveBits) : Selection := ⟨bits.basicWave, bits.combination?⟩

end WaveBits

/-- The rows for a control register. -/
def Selection.ofControl (control : UInt8) : Selection := (WaveBits.ofControl control).selection

end SidVoice
