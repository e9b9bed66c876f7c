import SidVoice.Json.Misfit

/-!
# Names of a closed set

A value of a closed set is stored as its name, or as an object whose only key is the name and
whose value is null. A name that is not known is rejected as soon as it has been read.

A value of another kind is no name and breaks the grammar of names, and so does a key that is not
a text, or the lack of one: null, a number or a list where the key should be is malformed, not a
value of the wrong kind. Only the value after the key is judged by its kind.
-/

namespace SidVoice.Json

/-- The values of a closed set with their names. -/
abbrev Names (α : Type) := List (String × α)

/-- The value of a name. -/
def Names.find? {α : Type} (names : Names α) (given : String) : Option α :=
  (List.find? (fun entry => entry.1 == given) names).map Prod.snd

/-- A name read in part. -/
inductive NameState (α : Type) where
  /-- Before the name. -/
  | start
  /-- Inside the name. -/
  | text (literal : Literal)
  /-- After the opening brace. -/
  | opened
  /-- Inside the name as a key. -/
  | key (literal : Literal)
  /-- After the key. -/
  | colon (value : α)
  /-- Before the null value. -/
  | unit (value : α)
  /-- Inside the null value, with these letters to come. -/
  | null (value : α) (rest : List Char)
  /-- Inside a value that should have been null. -/
  | misfit (inner : Misfit)
  /-- After the null value. -/
  | closing (value : α)

namespace NameState

variable {α : Type}

/-- What a value that should be null is wanted to be. -/
def wanted : String := "unit"

/-- The outcome of a value that should be null. -/
def ofMisfit : Except ReadError Misfit → Step (NameState α) α
  | .ok inner => .more (.misfit inner)
  | .error e => .error e

/-- The outcome of a complete name. -/
def named (names : Names α) (onValue : α → Step (NameState α) α) (given : String) :
    Step (NameState α) α :=
  match names.find? given with
  | some value => onValue value
  | none => .rejected (.unknownName given (names.map Prod.fst))

/-- The outcome of a character. -/
def step (names : Names α) (state : NameState α) (c : Char) : Step (NameState α) α :=
  match state with
  | .start =>
    if isSpace c then .more .start
    else if c = '"' then .more (.text {})
    else if c = '\x7b' then .more .opened
    else .malformed
  | .text literal => (literal.step .decode c).within .text (named names .done)
  | .opened =>
    if isSpace c then .more .opened
    else if c = '"' then .more (.key {})
    else .malformed
  | .key literal =>
    (literal.step .decode c).within .key (named names fun value => .more (.colon value))
  | .colon value =>
    if isSpace c then .more (.colon value)
    else if c = ':' then .more (.unit value)
    else .malformed
  | .unit value =>
    if isSpace c then .more (.unit value)
    else if c = 'n' then .more (.null value ['u', 'l', 'l'])
    else ofMisfit (Misfit.start wanted c)
  | .null _ [] => .malformed
  | .null value (d :: rest) =>
    if c ≠ d then .malformed
    else if rest.isEmpty then .more (.closing value)
    else .more (.null value rest)
  | .misfit inner => ofMisfit (inner.step wanted c)
  | .closing value =>
    if isSpace c then .more (.closing value)
    else if c = '\x7d' then .done value
    else .malformed

/-- The error of a text that ends in a state. -/
def atEnd : NameState α → ReadError
  | .misfit inner => inner.atEnd wanted
  | _ => .ended

end NameState

/-- The reader of a name. -/
def nameReader {α : Type} (names : Names α) : Reader (NameState α) α where
  start := .start
  step := NameState.step names
  atEnd := NameState.atEnd

end SidVoice.Json
