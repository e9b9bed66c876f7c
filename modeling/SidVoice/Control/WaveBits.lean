import SidVoice.Text.Hexadecimal

/-!
# Waveform bits

The upper nibble of a voice's control register switches four waveforms on and off. A set of
waveform bits is kept as a byte: the four low bits have names, and the four high bits are
carried along without meaning. Set operations work on all eight bits; only the complement
clears the bits without a name.
-/

namespace SidVoice

/-- The waveforms that have a bit in the control register. -/
inductive Wave where
  /-- The triangle. -/
  | triangle
  /-- The sawtooth. -/
  | sawtooth
  /-- The pulse. -/
  | pulse
  /-- The noise. -/
  | noise
  deriving DecidableEq

namespace Wave

/-- Every waveform, from the lowest bit up. -/
def all : List Wave := [triangle, sawtooth, pulse, noise]

/-- The bit of a waveform. -/
def mask : Wave → UInt8
  | triangle => 1
  | sawtooth => 2
  | pulse => 4
  | noise => 8

/-- The name of a waveform. -/
def name : Wave → String
  | triangle => "TRIANGLE"
  | sawtooth => "SAWTOOTH"
  | pulse => "PULSE"
  | noise => "NOISE"

/-- The waveform of exactly this name. -/
def ofName? (name : String) : Option Wave := all.find? fun wave => wave.name == name

end Wave

/-- A set of waveform bits, with four further bits that have no meaning. -/
structure WaveBits where
  /-- The bits as a byte. -/
  byte : UInt8
  deriving DecidableEq

namespace WaveBits

/-- The bits that have names. -/
def named : UInt8 := 15

/-- No bit set. -/
def empty : WaveBits := ⟨0⟩

/-- Every named bit set. -/
def all : WaveBits := ⟨named⟩

/-- The set of a single waveform. -/
def ofWave (wave : Wave) : WaveBits := ⟨wave.mask⟩

/-- Keep the named bits of a byte. -/
def truncate (byte : UInt8) : WaveBits := ⟨byte &&& named⟩

/-- The byte as a set, if it has named bits only. -/
def ofByte? (byte : UInt8) : Option WaveBits :=
  if byte &&& ~~~named = 0 then some ⟨byte⟩ else none

/-- The waveform bits of a control register. -/
def ofControl (control : UInt8) : WaveBits := truncate (control >>> 4)

/-- The bits of either set. -/
def union (a b : WaveBits) : WaveBits := ⟨a.byte ||| b.byte⟩

/-- The bits of both sets. -/
def inter (a b : WaveBits) : WaveBits := ⟨a.byte &&& b.byte⟩

/-- The bits of the first set that the second lacks. -/
def diff (a b : WaveBits) : WaveBits := ⟨a.byte &&& ~~~b.byte⟩

/-- The bits of exactly one of the sets. -/
def symmDiff (a b : WaveBits) : WaveBits := ⟨a.byte ^^^ b.byte⟩

/-- The named bits that are not set. -/
def complement (a : WaveBits) : WaveBits := truncate (~~~a.byte)

/-- Whether every bit of the second set is in the first. -/
def contains (a b : WaveBits) : Bool := a.byte &&& b.byte == b.byte

/-- Whether the sets share a bit. -/
def intersects (a b : WaveBits) : Bool := a.byte &&& b.byte != 0

/-- Whether no bit is set, named or not. -/
def isEmpty (a : WaveBits) : Bool := a.byte == 0

/-- Whether every named bit is set. -/
def isAll (a : WaveBits) : Bool := a.byte &&& named == named

/-- The waveforms that are switched on, from the lowest bit up. -/
def waves (a : WaveBits) : List Wave := Wave.all.filter fun wave => a.contains (ofWave wave)

/-- The bits without a name. -/
def unnamed (a : WaveBits) : UInt8 := a.byte &&& ~~~named

/-- The description of a set: the names of its waveforms, then the bits without a name as a
number; an empty set is the number zero. -/
def describe (a : WaveBits) : String :=
  let names := a.waves.map Wave.name
  let rest := if a.unnamed = 0 then [] else [Text.hexadecimal a.unnamed.toNat]
  let parts := if a.isEmpty then [Text.hexadecimal 0] else names ++ rest
  "WaveformFlags(" ++ String.intercalate " | " parts ++ ")"

@[simp] theorem byte_union (a b : WaveBits) : (a.union b).byte = a.byte ||| b.byte := rfl

@[simp] theorem byte_inter (a b : WaveBits) : (a.inter b).byte = a.byte &&& b.byte := rfl

@[simp] theorem byte_symmDiff (a b : WaveBits) : (a.symmDiff b).byte = a.byte ^^^ b.byte := rfl

end WaveBits

/-- An edit of a set of waveform bits, or a question about it. -/
inductive WaveStep where
  /-- Set bits. -/
  | insert (operand : WaveBits)
  /-- Clear bits. -/
  | remove (operand : WaveBits)
  /-- Flip bits. -/
  | toggle (operand : WaveBits)
  /-- Set bits or clear them. -/
  | set (operand : WaveBits) (value : Bool)
  /-- Replace the set by its union with another. -/
  | union (operand : WaveBits)
  /-- Replace the set by its intersection with another. -/
  | intersection (operand : WaveBits)
  /-- Replace the set by its difference from another. -/
  | difference (operand : WaveBits)
  /-- Replace the set by its symmetric difference with another. -/
  | symmetricDifference (operand : WaveBits)
  /-- Replace the set by its complement among the named bits. -/
  | complement
  /-- Ask whether the set has all the given bits. -/
  | contains (operand : WaveBits)
  /-- Ask whether the set has one of the given bits. -/
  | intersects (operand : WaveBits)
  /-- Replace the set by a byte, if it has named bits only. -/
  | ofByte (byte : UInt8)
  /-- Replace the set by the named bits of a byte. -/
  | truncate (byte : UInt8)
  /-- Replace the set by the waveform bits of a control register. -/
  | ofControl (control : UInt8)
  /-- Replace the set by the waveform of a name, if there is one. -/
  | ofName (name : String)
  /-- Replace the set by all named bits. -/
  | all
  /-- Replace the set by the empty one. -/
  | empty

namespace WaveStep

/-- The set after a step that may be refused, and whether it was carried out. -/
def accept (now : WaveBits) : Option WaveBits → WaveBits × Option Bool
  | some next => (next, some true)
  | none => (now, some false)

/-- The set after a step, and the answer of a step that asks or may be refused. -/
def apply (now : WaveBits) : WaveStep → WaveBits × Option Bool
  | insert b | union b => (now.union b, none)
  | remove b | difference b => (now.diff b, none)
  | toggle b | symmetricDifference b => (now.symmDiff b, none)
  | set b value => (if value then now.union b else now.diff b, none)
  | intersection b => (now.inter b, none)
  | complement => (now.complement, none)
  | contains b => (now, some (now.contains b))
  | intersects b => (now, some (now.intersects b))
  | ofByte byte => accept now (WaveBits.ofByte? byte)
  | truncate byte => (WaveBits.truncate byte, none)
  | ofControl control => (WaveBits.ofControl control, none)
  | ofName name => accept now ((Wave.ofName? name).map WaveBits.ofWave)
  | all => (WaveBits.all, none)
  | empty => (WaveBits.empty, none)

/-- The set and the answer after each of a list of steps. -/
def run (start : WaveBits) : List WaveStep → List (WaveBits × Option Bool)
  | [] => []
  | step :: rest =>
    let next := step.apply start
    next :: run next.1 rest

end WaveStep

end SidVoice
