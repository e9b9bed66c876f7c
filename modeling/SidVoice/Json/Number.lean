import SidVoice.Json.Reader

/-!
# Numbers

A number is whole digits without needless zeros in front, then perhaps a fraction, then perhaps
an exponent. It ends before the first character that cannot belong to it, so the reader of what
is around it has to look at that character again.

The value of a number is a 64-bit integer where it is written as one and fits. Otherwise its
leading digits, as many as fit into 64 bits, are scaled by a power of ten in double precision;
a number too large for that is refused.
-/

namespace SidVoice.Json

/-- Where the reader is inside a number. -/
inductive NumberPhase where
  /-- After the minus sign. -/
  | minus
  /-- After a single zero. -/
  | zero
  /-- After a whole digit. -/
  | whole
  /-- After the point. -/
  | point
  /-- After a digit of the fraction. -/
  | fraction
  /-- After the mark of the exponent. -/
  | mark
  /-- After the sign of the exponent. -/
  | markSign
  /-- After a digit of the exponent. -/
  | exponent
  deriving DecidableEq

namespace NumberPhase

/-- The phase after the first character of a number. -/
def start? (c : Char) : Option NumberPhase :=
  if c = '-' then some minus
  else if c = '0' then some zero
  else if c.isDigit then some whole
  else none

/-- Whether the number may end in a phase. -/
def complete : NumberPhase → Bool
  | zero | whole | fraction | exponent => true
  | minus | point | mark | markSign => false

/-- The phase after a character that belongs to the number. -/
def next? (phase : NumberPhase) (c : Char) : Option NumberPhase :=
  match phase with
  | minus => if c = '0' then some zero else if c.isDigit then some whole else none
  | zero => if c = '.' then some point else if c = 'e' ∨ c = 'E' then some mark else none
  | whole =>
    if c.isDigit then some whole
    else if c = '.' then some point
    else if c = 'e' ∨ c = 'E' then some mark
    else none
  | point => if c.isDigit then some fraction else none
  | fraction =>
    if c.isDigit then some fraction else if c = 'e' ∨ c = 'E' then some mark else none
  | mark =>
    if c.isDigit then some exponent else if c = '+' ∨ c = '-' then some markSign else none
  | markSign => if c.isDigit then some exponent else none
  | exponent => if c.isDigit then some exponent else none

/-- Whether the number ends before a character: a digit after a leading zero does not end it. -/
def endsBefore (phase : NumberPhase) (c : Char) : Bool :=
  phase.complete && (phase.next? c).isNone && !(phase == zero && c.isDigit)

end NumberPhase

/-- The value of a number. -/
inductive NumberValue where
  /-- A whole number that fits into 64 bits. -/
  | integer (value : Int)
  /-- Any other number. -/
  | float (value : Float)

/-- The value of a decimal digit. -/
def digitValue (c : Char) : Nat := c.toNat - '0'.toNat

/-- The largest number that fits into 64 bits. -/
def largestWord : Nat := 0xffffffffffffffff

/-- Append digits to a number while it does not exceed a limit; the digits left over follow. -/
def takeDigits (limit : Nat) (number : Nat) : List Char → Nat × List Char
  | [] => (number, [])
  | c :: rest =>
    let longer := number * 10 + digitValue c
    if longer ≤ limit then takeDigits limit longer rest else (number, c :: rest)

/-- The largest power of ten that a double holds. -/
def largestPower : Nat := 308

/-- Scale by a power of ten in double precision, in several steps if it is very small. There is
no result beyond the largest double. -/
def scaleByTen (x : Float) (power : Int) : Option Float :=
  if _h : power.natAbs ≤ largestPower then
    let factor := Float.ofScientific 1 false power.natAbs
    if 0 ≤ power then
      let scaled := x * factor
      if scaled.isInf then none else some scaled
    else some (x / factor)
  else if x == 0 then some x
  else if 0 ≤ power then none
  else scaleByTen (x / Float.ofScientific 1 false largestPower) (power + largestPower)
termination_by power.natAbs
decreasing_by
  simp only [largestPower] at *
  omega

/-- The parts of a number's text. -/
structure NumberParts where
  /-- Whether a minus sign comes first. -/
  negative : Bool
  /-- The whole digits. -/
  whole : List Char
  /-- The digits of the fraction. -/
  fraction : List Char
  /-- The sign and digits of the exponent. -/
  exponent : Option (Bool × List Char)

/-- Split a number's text into its parts. -/
def NumberParts.ofText (text : List Char) : NumberParts :=
  let (negative, text) :=
    match text with
    | '-' :: rest => (true, rest)
    | _ => (false, text)
  let (whole, text) := text.span Char.isDigit
  let (fraction, text) :=
    match text with
    | '.' :: rest => rest.span Char.isDigit
    | _ => ([], text)
  let exponent :=
    match text with
    | [] => none
    | _ :: '-' :: digits => some (true, digits)
    | _ :: '+' :: digits => some (false, digits)
    | _ :: digits => some (false, digits)
  ⟨negative, whole, fraction, exponent⟩

/-- Keep a number within the signed 32-bit range. -/
def clampInt32 (n : Int) : Int := max (-0x80000000) (min n 0x7fffffff)

/-- The size of a number that is not a 64-bit integer; nothing if it is too large. -/
def NumberParts.size (parts : NumberParts) : Option Float :=
  let (number, unread) := takeDigits largestWord 0 parts.whole
  let (number, unreadFraction) := takeDigits largestWord number parts.fraction
  let places : Int := unread.length + unreadFraction.length - parts.fraction.length
  let x := (UInt64.ofNat number).toFloat
  match parts.exponent with
  | none => scaleByTen x places
  | some (negative, digits) =>
    let (power, beyond) := takeDigits 0x7fffffff 0 digits
    if beyond.isEmpty then
      scaleByTen x (clampInt32 (if negative then places - power else places + power))
    else if negative || number == 0 then some 0
    else none

/-- The value of a number's text; nothing if it is too large. -/
def numberValue? (text : List Char) : Option NumberValue :=
  let parts := NumberParts.ofText text
  let (number, unread) := takeDigits largestWord 0 parts.whole
  let whole := parts.fraction.isEmpty && parts.exponent.isNone && unread.isEmpty
  if whole && !parts.negative then some (.integer number)
  else if whole && 0 < number && number ≤ 0x8000000000000000 then some (.integer (-number))
  else parts.size.map fun x => .float (if parts.negative then -x else x)

end SidVoice.Json
