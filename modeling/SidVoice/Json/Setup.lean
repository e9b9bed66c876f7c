import SidVoice.Chip
import SidVoice.Json.Name

/-!
# Stored setups

A setup is stored as an object with a field for the chip and one for the strength, or as a list
of the two. What is missing takes its default. Other fields of an object are skipped, and may be
repeated; a known field that is repeated is rejected as soon as its key has been read. A list
has no third element.

This is the codec the library runs with. Its readers are not the definition of the format:
`Codec` states what is relied on for any codec.
-/

namespace SidVoice.Json

/-- The stored names of the chips. -/
def chipNames : Names Chip := Chip.all.map fun chip => (chip.key, chip)

/-- The stored names of the strengths. -/
def strengthNames : Names Strength := Strength.all.map fun strength => (strength.key, strength)

/-- The known fields of a setup. -/
inductive Field where
  /-- The chip. -/
  | chip
  /-- The strength. -/
  | strength
  deriving DecidableEq

/-- The key of a field. -/
def Field.key : Field → String
  | chip => "chip_model"
  | strength => "combined_waveforms"

/-- The field of a key. -/
def Field.ofKey? (key : String) : Option Field :=
  if key = chip.key then some chip else if key = strength.key then some strength else none

/-- The fields read so far. -/
structure Fields where
  /-- The chip, if it has been read. -/
  chip : Option Chip := none
  /-- The strength, if it has been read. -/
  strength : Option Strength := none

namespace Fields

/-- Whether a field has been read. -/
def has (fields : Fields) : Field → Bool
  | .chip => fields.chip.isSome
  | .strength => fields.strength.isSome

/-- The setup of the fields, with defaults for the missing ones. -/
def toSetup (fields : Fields) : Setup :=
  ⟨fields.chip.getD default, fields.strength.getD default⟩

end Fields

/-- A setup read in part. -/
inductive SetupState where
  /-- Before the setup. -/
  | start
  /-- Inside a value that is neither an object nor a list. -/
  | misfit (inner : Misfit)
  /-- After the opening bracket. -/
  | firstItem
  /-- Inside the first element. -/
  | chipItem (inner : NameState Chip)
  /-- After the first element. -/
  | afterChip (chip : Chip)
  /-- Inside the second element. -/
  | strengthItem (chip : Chip) (inner : NameState Strength)
  /-- After the second element. -/
  | full (setup : Setup)
  /-- After the opening brace. -/
  | firstKey
  /-- Before a key, after a comma. -/
  | nextKey (fields : Fields)
  /-- Inside a key. -/
  | key (fields : Fields) (literal : Literal)
  /-- After a key, known or not. -/
  | colon (fields : Fields) (field : Option Field)
  /-- Inside the value of the chip's field. -/
  | chipMember (fields : Fields) (inner : NameState Chip)
  /-- Inside the value of the strength's field. -/
  | strengthMember (fields : Fields) (inner : NameState Strength)
  /-- Inside the value of an unknown field. -/
  | skipped (fields : Fields) (skip : Skip)
  /-- After the value of a field. -/
  | afterMember (fields : Fields)

namespace SetupState

/-- What a value that is neither an object nor a list is wanted to be. -/
def wanted : String := "struct TableConfig"

/-- The outcome of a value of the wrong kind. -/
def ofMisfit : Except ReadError Misfit → Step SetupState Setup
  | .ok inner => .more (.misfit inner)
  | .error e => .error e

/-- The outcome of a complete key. -/
def keyed (fields : Fields) (key : String) : Step SetupState Setup :=
  match Field.ofKey? key with
  | some field =>
    if fields.has field then .rejected (.repeatedField field.key)
    else .more (.colon fields (some field))
  | none => .more (.colon fields none)

/-- The state before the value of a field. -/
def member (fields : Fields) : Option Field → SetupState
  | some .chip => .chipMember fields .start
  | some .strength => .strengthMember fields .start
  | none => .skipped fields {}

/-- A character inside the first element of a list. -/
def chipItemStep (inner : NameState Chip) (c : Char) : Step SetupState Setup :=
  (inner.step chipNames c).within .chipItem fun chip => .more (.afterChip chip)

/-- A character after the value of a field. -/
def afterMemberStep (fields : Fields) (c : Char) : Step SetupState Setup :=
  if isSpace c then .more (.afterMember fields)
  else if c = ',' then .more (.nextKey fields)
  else if c = '\x7d' then .done fields.toSetup
  else .malformed

/-- A character inside or just after the value of an unknown field. -/
def skippedStep (fields : Fields) (skip : Skip) (c : Char) : Step SetupState Setup :=
  let settled := skip.settle c
  if settled.isOver then afterMemberStep fields c
  else
    match settled.advance c with
    | .ok next => .more (.skipped fields next)
    | .error e => .error e

/-- The outcome of a character. -/
def step (state : SetupState) (c : Char) : Step SetupState Setup :=
  match state with
  | .start =>
    if isSpace c then .more .start
    else if c = '[' then .more .firstItem
    else if c = '\x7b' then .more .firstKey
    else ofMisfit (Misfit.start wanted c)
  | .misfit inner => ofMisfit (inner.step wanted c)
  | .firstItem =>
    if isSpace c then .more .firstItem
    else if c = ']' then .done {}
    else chipItemStep .start c
  | .chipItem inner => chipItemStep inner c
  | .afterChip chip =>
    if isSpace c then .more (.afterChip chip)
    else if c = ',' then .more (.strengthItem chip .start)
    else if c = ']' then .done { chip := chip }
    else .malformed
  | .strengthItem chip inner =>
    (inner.step strengthNames c).within (.strengthItem chip) fun strength =>
      .more (.full ⟨chip, strength⟩)
  | .full setup =>
    if isSpace c then .more (.full setup)
    else if c = ']' then .done setup
    else .malformed
  | .firstKey =>
    if isSpace c then .more .firstKey
    else if c = '\x7d' then .done {}
    else if c = '"' then .more (.key {} {})
    else .malformed
  | .nextKey fields =>
    if isSpace c then .more (.nextKey fields)
    else if c = '"' then .more (.key fields {})
    else .malformed
  | .key fields literal => (literal.step .decode c).within (.key fields) (keyed fields)
  | .colon fields field =>
    if isSpace c then .more (.colon fields field)
    else if c = ':' then .more (member fields field)
    else .malformed
  | .chipMember fields inner =>
    (inner.step chipNames c).within (.chipMember fields) fun chip =>
      .more (.afterMember { fields with chip := some chip })
  | .strengthMember fields inner =>
    (inner.step strengthNames c).within (.strengthMember fields) fun strength =>
      .more (.afterMember { fields with strength := some strength })
  | .skipped fields skip => skippedStep fields skip c
  | .afterMember fields => afterMemberStep fields c

/-- The error of a text that ends in a state. -/
def atEnd : SetupState → ReadError
  | .misfit inner => inner.atEnd wanted
  | .chipItem inner => inner.atEnd
  | .strengthItem _ inner => inner.atEnd
  | .chipMember _ inner => inner.atEnd
  | .strengthMember _ inner => inner.atEnd
  | .skipped _ skip => skip.atEnd
  | _ => .ended

end SetupState

/-- The reader of a setup. -/
def setupReader : Reader SetupState Setup where
  start := .start
  step := SetupState.step
  atEnd := SetupState.atEnd

/-- Read a stored chip. -/
def readChip (text : String) : Except ReadError Chip := (nameReader chipNames).read text.toList

/-- Read a stored strength. -/
def readStrength (text : String) : Except ReadError Strength :=
  (nameReader strengthNames).read text.toList

/-- Read a stored setup. -/
def readSetup (text : String) : Except ReadError Setup := setupReader.read text.toList

/-- A text between quotes that needs no escapes. -/
def quoted (text : String) : String := "\"" ++ text ++ "\""

/-- The stored form of a chip. -/
def writeChip (chip : Chip) : String := quoted chip.key

/-- The stored form of a strength. -/
def writeStrength (strength : Strength) : String := quoted strength.key

/-- The stored form of a setup: an object with both fields and no blanks. -/
def writeSetup (setup : Setup) : String :=
  "\x7b" ++ quoted Field.chip.key ++ ":" ++ writeChip setup.chip ++ "," ++
    quoted Field.strength.key ++ ":" ++ writeStrength setup.strength ++ "\x7d"

end SidVoice.Json
