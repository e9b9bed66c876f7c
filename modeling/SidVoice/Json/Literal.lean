import SidVoice.Json.Reader

/-!
# Texts between quotes

The reader starts after the opening quote and is done at the closing one. An escape by code
point takes the four bytes after its letter, and judges them when it has all four. Code points
beyond sixteen bits are written as two escapes, a leading surrogate and a trailing one.

A text that is only skipped is held to less: its surrogates need no partner.
-/

namespace SidVoice.Json

/-- Where the reader is inside a text. -/
inductive LiteralPhase where
  /-- Between characters. -/
  | plain
  /-- After a backslash. -/
  | escape
  /-- Inside an escape by code point, after so many bytes with this value, and perhaps after a
  leading surrogate. -/
  | code (lead : Option Nat) (bytes : Nat) (value : Option Nat)
  /-- After a leading surrogate, before the backslash of the trailing one. -/
  | partner (lead : Nat)
  /-- After a leading surrogate and the backslash of the trailing one. -/
  | partnerMark (lead : Nat)

/-- A text read in part. -/
structure Literal where
  /-- The characters so far, the last one first. -/
  reversed : List Char := []
  /-- Where the reader is. -/
  phase : LiteralPhase := .plain

/-- Whether a text is decoded or only skipped. -/
inductive Purpose where
  /-- The characters are wanted. -/
  | decode
  /-- Only the end is wanted. -/
  | skip

/-- The value of a hexadecimal digit. -/
def hexDigit? (c : Char) : Option Nat :=
  if '0' ≤ c ∧ c ≤ '9' then some (c.toNat - '0'.toNat)
  else if 'a' ≤ c ∧ c ≤ 'f' then some (c.toNat - 'a'.toNat + 10)
  else if 'A' ≤ c ∧ c ≤ 'F' then some (c.toNat - 'A'.toNat + 10)
  else none

/-- The character of an escape by letter. -/
def escapeChar? : Char → Option Char
  | '"' => some '"'
  | '\\' => some '\\'
  | '/' => some '/'
  | 'b' => some '\x08'
  | 'f' => some '\x0c'
  | 'n' => some '\n'
  | 'r' => some '\r'
  | 't' => some '\t'
  | _ => none

/-- A leading surrogate. -/
def isLead (code : Nat) : Bool := 0xD800 ≤ code && code ≤ 0xDBFF

/-- A trailing surrogate. -/
def isTrail (code : Nat) : Bool := 0xDC00 ≤ code && code ≤ 0xDFFF

/-- The code point of a leading and a trailing surrogate. -/
def joinSurrogates (lead trail : Nat) : Nat :=
  0x10000 + (lead - 0xD800) * 0x400 + (trail - 0xDC00)

namespace Literal

/-- Add a character. -/
def push (literal : Literal) (c : Char) : Literal := ⟨c :: literal.reversed, .plain⟩

/-- Go to another phase. -/
def goto (literal : Literal) (phase : LiteralPhase) : Literal := { literal with phase := phase }

/-- The end of an escape by code point. -/
def endCode (literal : Literal) (purpose : Purpose) (lead : Option Nat) (code : Nat) :
    Step Literal String :=
  match purpose, lead with
  | .skip, _ => .more (literal.goto .plain)
  | .decode, some lead =>
    if isTrail code then .more (literal.push (Char.ofNat (joinSurrogates lead code)))
    else .malformed
  | .decode, none =>
    if isTrail code then .malformed
    else if isLead code then .more (literal.goto (.partner code))
    else .more (literal.push (Char.ofNat code))

/-- The outcome of a character inside a text. -/
def step (purpose : Purpose) (literal : Literal) (c : Char) : Step Literal String :=
  match literal.phase with
  | .plain =>
    if c = '"' then .done (String.ofList literal.reversed.reverse)
    else if c = '\\' then .more (literal.goto .escape)
    else if c.toNat < 0x20 then .malformed
    else .more (literal.push c)
  | .escape =>
    if c = 'u' then .more (literal.goto (.code none 0 (some 0)))
    else
      match escapeChar? c with
      | some d => .more (literal.push d)
      | none => .malformed
  | .code lead bytes value =>
    let bytes := bytes + c.utf8Size
    let value := do return (← value) * 16 + (← hexDigit? c)
    if bytes < 4 then .more (literal.goto (.code lead bytes value))
    else
      match value with
      | some code => literal.endCode purpose lead code
      | none => .malformed
  | .partner lead => if c = '\\' then .more (literal.goto (.partnerMark lead)) else .malformed
  | .partnerMark lead =>
    if c = 'u' then .more (literal.goto (.code (some lead) 0 (some 0))) else .malformed

end Literal

end SidVoice.Json
