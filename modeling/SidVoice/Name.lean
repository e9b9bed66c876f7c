import SidVoice.Chip
import SidVoice.Text.Blank
import SidVoice.Waveform

/-!
# Reading names and row numbers

Users name chips and strengths loosely: blanks around the name and the case of ASCII letters
do not matter. Letters outside ASCII never match, even where their Unicode lower case is an
ASCII letter. A name that is not recognised is reported exactly as it was given.
-/

namespace SidVoice

/-- What can be wrong with a name or a row number. -/
inductive NameError where
  /-- No chip has this name. -/
  | unknownChip (given : String)
  /-- No strength has this name. -/
  | unknownStrength (given : String)
  /-- A table with this many rows has no such row. -/
  | unknownRow (given : UInt8) (rows : Nat)
  deriving DecidableEq

/-- The wording of an unrecognised name or row number. -/
def NameError.message : NameError → String
  | unknownChip given => "Unknown chip model: " ++ given
  | unknownStrength given => "Unknown combined waveform strength: " ++ given
  | unknownRow given rows =>
    "Invalid waveform index " ++ toString given.toNat ++ " (expected 0.." ++ toString rows ++ ")"

/-- The form in which names are compared: trimmed, with ASCII letters in lower case. -/
def foldName (given : String) : List Char := (Text.trim given.toList).map Char.toLower

namespace Chip

/-- The folded names of a chip, with and without the maker's initials. -/
def names : Chip → List String
  | mos6581 => ["6581", "mos6581"]
  | mos8580 => ["8580", "mos8580"]

/-- Read the name of a chip. -/
def ofName (given : String) : Except NameError Chip :=
  match all.find? fun chip => chip.names.any fun name => name.toList == foldName given with
  | some chip => .ok chip
  | none => .error (.unknownChip given)

end Chip

namespace Strength

/-- The folded names of a strength. -/
def names (strength : Strength) : List String := [strength.key]

/-- Read the name of a strength. -/
def ofName (given : String) : Except NameError Strength :=
  match all.find? fun s => s.names.any fun name => name.toList == foldName given with
  | some strength => .ok strength
  | none => .error (.unknownStrength given)

end Strength

/-- The basic waveform of a row number. -/
def BasicWave.ofRowNumber (n : UInt8) : Except NameError BasicWave :=
  match all[n.toNat]? with
  | some wave => .ok wave
  | none => .error (.unknownRow n all.length)

/-- The combination of a row number. -/
def Combination.ofRowNumber (n : UInt8) : Except NameError Combination :=
  match all[n.toNat]? with
  | some combination => .ok combination
  | none => .error (.unknownRow n all.length)

end SidVoice
