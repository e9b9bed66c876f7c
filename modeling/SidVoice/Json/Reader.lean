import SidVoice.Json.Error

/-!
# Readers

A reader takes a text one character at a time and never looks ahead. It is done when a
character completes its value, and it stops with an error at the first character that cannot be
right; a text that ends before that is a matter of the state it ends in.

Readers are how this library itself reads what is stored. They are one codec among others: what
is proved of decoding is proved of every codec that keeps the laws of the format, and of the
readers that they keep them. No result rests on how a reader goes through a text.
-/

namespace SidVoice.Json

/-- Where a reader is after a character: under way, or done with a value. -/
inductive Progress (σ α : Type) where
  /-- More characters are needed. -/
  | more (state : σ)
  /-- The last character has completed the value. -/
  | done (value : α)

/-- The outcome of a character. -/
abbrev Step (σ α : Type) := Except ReadError (Progress σ α)

namespace Step

variable {σ τ α β : Type}

/-- More characters are needed. -/
def more (state : σ) : Step σ α := .ok (.more state)

/-- The character has completed the value. -/
def done (value : α) : Step σ α := .ok (.done value)

/-- The character breaks the grammar. -/
def malformed : Step σ α := .error .malformed

/-- The character completes something that is rejected. -/
def rejected (reason : Rejection) : Step σ α := .error (.rejected reason)

/-- The outcome for a reader that uses another one for a part of its text. -/
def within (part : Step σ α) (onMore : σ → τ) (onDone : α → Step τ β) : Step τ β :=
  match part with
  | .ok (.more state) => more (onMore state)
  | .ok (.done value) => onDone value
  | .error e => .error e

@[simp] theorem within_more (s : σ) (f : σ → τ) (g : α → Step τ β) :
    within (more s) f g = more (f s) := rfl

@[simp] theorem within_done (a : α) (f : σ → τ) (g : α → Step τ β) :
    within (done a) f g = g a := rfl

@[simp] theorem within_error (e : ReadError) (f : σ → τ) (g : α → Step τ β) :
    within (.error e : Step σ α) f g = .error e := rfl

end Step

/-- The blanks between the tokens of a text. -/
def isSpace (c : Char) : Bool := c == ' ' || c == '\t' || c == '\n' || c == '\r'

/-- A reader of values from characters. -/
structure Reader (σ α : Type) where
  /-- The state before the first character. -/
  start : σ
  /-- The outcome of a character. -/
  step : σ → Char → Step σ α
  /-- The error of a text that ends in a state. -/
  atEnd : σ → ReadError

namespace Reader

variable {σ α : Type}

/-- Take a character of a text that holds one value with blanks around it. -/
def feed (reader : Reader σ α) : Progress σ α → Char → Step σ α
  | .more state, c => reader.step state c
  | .done value, c => if isSpace c then .done value else .malformed

/-- Take the characters of a text in order. -/
def run (reader : Reader σ α) (now : Progress σ α) : List Char → Step σ α
  | [] => .ok now
  | c :: text =>
    match reader.feed now c with
    | .ok next => reader.run next text
    | .error e => .error e

/-- The value of a text, given where its characters lead. -/
def conclude (reader : Reader σ α) : Progress σ α → Except ReadError α
  | .more state => .error (reader.atEnd state)
  | .done value => .ok value

/-- Read a text that holds one value with blanks around it. -/
def read (reader : Reader σ α) (text : List Char) : Except ReadError α :=
  match reader.run (.more reader.start) text with
  | .ok last => reader.conclude last
  | .error e => .error e

/-- A text is read from where the text before it has led. -/
theorem run_append (reader : Reader σ α) (now : Progress σ α) (text rest : List Char) :
    reader.run now (text ++ rest) =
      match reader.run now text with
      | .ok next => reader.run next rest
      | .error e => .error e := by
  induction text generalizing now with
  | nil => rfl
  | cons c text ih =>
    simp only [List.cons_append, run]
    cases reader.feed now c with
    | ok next => exact ih next
    | error e => rfl

end Reader

end SidVoice.Json
