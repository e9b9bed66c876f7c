import SidVoice.Json.Literal
import SidVoice.Json.Number

/-!
# Skipping a value

The value of an unknown field has to be well formed, but nothing of it is kept. The reader
remembers which lists and objects are open, so values may be nested to any depth.

A number at the outermost level is over only when a character follows that does not belong to
it. `settle` closes such a number, and `isOver` then says that the character belongs to what
follows the value.
-/

namespace SidVoice.Json

/-- What encloses a value. -/
inductive Bracket where
  /-- A list. -/
  | list
  /-- An object. -/
  | object
  deriving DecidableEq

/-- Where the reader is inside a value that is skipped. -/
inductive SkipPhase where
  /-- Before a value. -/
  | value
  /-- After the opening bracket of a list. -/
  | firstItem
  /-- After the opening brace of an object. -/
  | firstKey
  /-- Before a key, after a comma. -/
  | nextKey
  /-- Inside a key. -/
  | key (literal : Literal)
  /-- After a key. -/
  | colon
  /-- Inside a text. -/
  | text (literal : Literal)
  /-- Inside a word, with these letters to come. -/
  | word (rest : List Char)
  /-- Inside a number. -/
  | number (phase : NumberPhase)
  /-- After a value. -/
  | after

/-- A value skipped in part. -/
structure Skip where
  /-- The open lists and objects, innermost first. -/
  enclosing : List Bracket := []
  /-- Where the reader is. -/
  phase : SkipPhase := .value

/-- The letters after the first one of a word that is a value. -/
def wordRest? : Char → Option (List Char)
  | 'n' => some ['u', 'l', 'l']
  | 't' => some ['r', 'u', 'e']
  | 'f' => some ['a', 'l', 's', 'e']
  | _ => none

namespace Skip

/-- Go to another phase. -/
def goto (skip : Skip) (phase : SkipPhase) : Skip := { skip with phase := phase }

/-- Close the innermost list or object. -/
def close (skip : Skip) : Skip := ⟨skip.enclosing.tail, .after⟩

/-- Whether the whole value is over. -/
def isOver (skip : Skip) : Bool :=
  match skip.enclosing, skip.phase with
  | [], .after => true
  | _, _ => false

/-- The first character of a value. -/
def enter (skip : Skip) (c : Char) : Except ReadError Skip :=
  if c = '"' then .ok (skip.goto (.text {}))
  else if c = '[' then .ok ⟨.list :: skip.enclosing, .firstItem⟩
  else if c = '\x7b' then .ok ⟨.object :: skip.enclosing, .firstKey⟩
  else
    match wordRest? c, NumberPhase.start? c with
    | some rest, _ => .ok (skip.goto (.word rest))
    | none, some phase => .ok (skip.goto (.number phase))
    | none, none => .error .malformed

/-- Close a number that ends before a character. -/
def settle (skip : Skip) (c : Char) : Skip :=
  match skip.phase with
  | .number phase => if phase.endsBefore c then skip.goto .after else skip
  | _ => skip

/-- A character of a text that is skipped. -/
def literal (skip : Skip) (l : Literal) (c : Char) (inside : Literal → SkipPhase)
    (onDone : SkipPhase) : Except ReadError Skip :=
  match l.step .skip c with
  | .ok (.more l) => .ok (skip.goto (inside l))
  | .ok (.done _) => .ok (skip.goto onDone)
  | .error e => .error e

/-- A character inside a value that is not over. -/
def advance (skip : Skip) (c : Char) : Except ReadError Skip :=
  match skip.phase with
  | .value => if isSpace c then .ok skip else skip.enter c
  | .firstItem =>
    if isSpace c then .ok skip else if c = ']' then .ok skip.close else skip.enter c
  | .firstKey =>
    if isSpace c then .ok skip
    else if c = '\x7d' then .ok skip.close
    else if c = '"' then .ok (skip.goto (.key {}))
    else .error .malformed
  | .nextKey =>
    if isSpace c then .ok skip
    else if c = '"' then .ok (skip.goto (.key {}))
    else .error .malformed
  | .key l => skip.literal l c .key .colon
  | .colon =>
    if isSpace c then .ok skip
    else if c = ':' then .ok (skip.goto .value)
    else .error .malformed
  | .text l => skip.literal l c .text .after
  | .word [] => .error .malformed
  | .word (d :: rest) =>
    if c ≠ d then .error .malformed
    else if rest.isEmpty then .ok (skip.goto .after)
    else .ok (skip.goto (.word rest))
  | .number phase =>
    match phase.next? c with
    | some phase => .ok (skip.goto (.number phase))
    | none => .error .malformed
  | .after =>
    if isSpace c then .ok skip
    else
      match skip.enclosing with
      | [] => .error .malformed
      | .list :: _ =>
        if c = ',' then .ok (skip.goto .value)
        else if c = ']' then .ok skip.close
        else .error .malformed
      | .object :: _ =>
        if c = ',' then .ok (skip.goto .nextKey)
        else if c = '\x7d' then .ok skip.close
        else .error .malformed

/-- The error of a text that ends inside a value: a number that lacks its digits is reported as
malformed. -/
def atEnd (skip : Skip) : ReadError :=
  match skip.phase with
  | .number phase => if phase.complete then .ended else .malformed
  | _ => .ended

end Skip

end SidVoice.Json
