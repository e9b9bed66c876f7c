/-!
# Waveforms and their rows

A voice reads its samples from two kinds of tables. The *basic* table has a row for each
setting of the two low waveform bits; a *combined* table has a row for each combination of
waveforms whose mutual loading is modelled.
-/

namespace SidVoice

/-- The waveforms of the basic table. -/
inductive BasicWave where
  /-- All bits set: the path of pulse and noise. -/
  | constantHigh
  /-- The triangle, folded at the middle of the phase. -/
  | triangle
  /-- The phase itself. -/
  | sawtooth
  /-- The sawtooth together with itself shifted left by one bit. -/
  | sawtoothAnd
  deriving DecidableEq, Inhabited

namespace BasicWave

/-- Every basic waveform, in row order. -/
def all : List BasicWave := [constantHigh, triangle, sawtooth, sawtoothAnd]

/-- The row of a waveform in the basic table. -/
def row : BasicWave → Fin 4
  | constantHigh => 0
  | triangle => 1
  | sawtooth => 2
  | sawtoothAnd => 3

/-- The waveform of a row. -/
def ofRow : Fin 4 → BasicWave
  | 0 => constantHigh
  | 1 => triangle
  | 2 => sawtooth
  | 3 => sawtoothAnd

/-- The name of a basic waveform. -/
def label : BasicWave → String
  | constantHigh => "ConstantHigh"
  | triangle => "Triangle"
  | sawtooth => "Sawtooth"
  | sawtoothAnd => "SawtoothAnd"

@[simp] theorem ofRow_row (wave : BasicWave) : ofRow wave.row = wave := by cases wave <;> rfl

end BasicWave

/-- The combinations of waveforms whose mutual loading is modelled. -/
inductive Combination where
  /-- Triangle and sawtooth. -/
  | triangleSawtooth
  /-- Pulse and triangle. -/
  | pulseTriangle
  /-- Pulse and sawtooth. -/
  | pulseSawtooth
  /-- Pulse, triangle and sawtooth. -/
  | pulseTriangleSawtooth
  /-- Noise and pulse, with guessed parameters. -/
  | noisePulse
  deriving DecidableEq, Inhabited

namespace Combination

/-- Every combination, in row order. -/
def all : List Combination :=
  [triangleSawtooth, pulseTriangle, pulseSawtooth, pulseTriangleSawtooth, noisePulse]

/-- The row of a combination in a combined table. -/
def row : Combination → Fin 5
  | triangleSawtooth => 0
  | pulseTriangle => 1
  | pulseSawtooth => 2
  | pulseTriangleSawtooth => 3
  | noisePulse => 4

/-- The combination of a row. -/
def ofRow : Fin 5 → Combination
  | 0 => triangleSawtooth
  | 1 => pulseTriangle
  | 2 => pulseSawtooth
  | 3 => pulseTriangleSawtooth
  | 4 => noisePulse

/-- The name of a combination. -/
def label : Combination → String
  | triangleSawtooth => "TriangleSawtooth"
  | pulseTriangle => "PulseTriangle"
  | pulseSawtooth => "PulseSawtooth"
  | pulseTriangleSawtooth => "PulseTriangleSawtooth"
  | noisePulse => "NoisePulse"

/-- The initials of the waveforms in a combination. -/
def initials : Combination → String
  | triangleSawtooth => "TS"
  | pulseTriangle => "PT"
  | pulseSawtooth => "PS"
  | pulseTriangleSawtooth => "PTS"
  | noisePulse => "NP"

@[simp] theorem row_ofRow (r : Fin 5) : (ofRow r).row = r := by
  revert r
  decide

end Combination

end SidVoice
