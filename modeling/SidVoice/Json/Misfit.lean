import SidVoice.Json.Skip

/-!
# Values of the wrong kind

Where a value of another kind stands than the wanted one, it is read as far as is needed to name
it: a word, a number or a text to its end, a list or an object by its first character. Reading
never gets past it, because it ends in a rejection or in an error inside the value.
-/

namespace SidVoice.Json

/-- A value of the wrong kind, read in part. -/
inductive Misfit where
  /-- A word that names a value of this kind, with these letters to come. -/
  | word (kind : Kind) (rest : List Char)
  /-- A number, with its characters so far, the last one first. -/
  | number (phase : NumberPhase) (reversed : List Char)
  /-- A text. -/
  | text (literal : Literal)

namespace Misfit

/-- The kind of the value that a word names by its first letter. -/
def wordKind : Char → Kind
  | 't' => .boolean true
  | 'f' => .boolean false
  | _ => .null

/-- The error at the end of a number: a rejection, unless it is too large to be a number. -/
def endNumber (wanted : String) (reversed : List Char) : ReadError :=
  match numberValue? reversed.reverse with
  | some (.integer value) => .rejected (.wrongKind (.integer value) wanted)
  | some (.float value) => .rejected (.wrongKind (.float value) wanted)
  | none => .malformed

/-- The first character of a value. -/
def start (wanted : String) (c : Char) : Except ReadError Misfit :=
  if c = '[' then .error (.rejected (.wrongKind .list wanted))
  else if c = '\x7b' then .error (.rejected (.wrongKind .object wanted))
  else if c = '"' then .ok (.text {})
  else
    match wordRest? c, NumberPhase.start? c with
    | some rest, _ => .ok (.word (wordKind c) rest)
    | none, some phase => .ok (.number phase [c])
    | none, none => .error .malformed

/-- A character inside a value. -/
def step (wanted : String) (misfit : Misfit) (c : Char) : Except ReadError Misfit :=
  match misfit with
  | .word _ [] => .error .malformed
  | .word kind (d :: rest) =>
    if c ≠ d then .error .malformed
    else if rest.isEmpty then .error (.rejected (.wrongKind kind wanted))
    else .ok (.word kind rest)
  | .number phase reversed =>
    match phase.next? c with
    | some next => .ok (.number next (c :: reversed))
    | none => .error (if phase.endsBefore c then endNumber wanted reversed else .malformed)
  | .text literal =>
    match literal.step .decode c with
    | .ok (.more literal) => .ok (.text literal)
    | .ok (.done value) => .error (.rejected (.wrongKind (.text value) wanted))
    | .error e => .error e

/-- The error of a text that ends inside a value. -/
def atEnd (wanted : String) : Misfit → ReadError
  | .number phase reversed => if phase.complete then endNumber wanted reversed else .ended
  | .word _ _ | .text _ => .ended

end Misfit

end SidVoice.Json
