import SidVoice.Number.Shortest
import SidVoice.Text.Quoted

/-!
# What can be wrong with a stored configuration

A text can end too early, break the grammar of JSON, or be well formed so far and still be
rejected: for a name that is not known, a field that has been given before, or a value of the
wrong kind. Reading stops at the first of these.

Only a rejection is worded here, since it is about what is stored. How the format words an end or
a broken text, and how it gives the place of an error, is left to it.
-/

namespace SidVoice.Json

/-- A value, as far as its kind is reported. -/
inductive Kind where
  /-- The null value. -/
  | null
  /-- A truth value. -/
  | boolean (value : Bool)
  /-- A whole number that fits into 64 bits. -/
  | integer (value : Int)
  /-- Any other number. -/
  | float (value : Float)
  /-- A text. -/
  | text (value : String)
  /-- A list. -/
  | list
  /-- An object. -/
  | object

/-- Why a text is rejected that is well formed so far. -/
inductive Rejection where
  /-- A name that is not among the known ones. -/
  | unknownName (given : String) (known : List String)
  /-- A field that has been given before. -/
  | repeatedField (field : String)
  /-- A value of another kind than the wanted one. -/
  | wrongKind (found : Kind) (wanted : String)

/-- Why reading stops, whatever the place. -/
inductive ReadError where
  /-- The text ends too early, in the format's own words. -/
  | ended
  /-- The text breaks the grammar, in the format's own words. -/
  | malformed
  /-- The text is rejected. -/
  | rejected (reason : Rejection)

/-- Floating-point numbers are written without an exponent from `1e-5` to below `1e+16`, and an
exponent shows its sign. -/
def floatStyle : Number.DecimalStyle := ⟨16, -5, "+"⟩

/-- The wording of a kind. -/
def Kind.describe : Kind → String
  | null => "null"
  | boolean value => "boolean `" ++ toString value ++ "`"
  | integer value => "integer `" ++ toString value ++ "`"
  | float value => "floating point `" ++ floatStyle.ofFloat value ++ "`"
  | text value => "string " ++ Text.quote value
  | list => "sequence"
  | object => "map"

/-- The wording of the names that would have been known. -/
def expectation : List String → String
  | [] => "there are no variants"
  | [a] => "expected `" ++ a ++ "`"
  | [a, b] => "expected `" ++ a ++ "` or `" ++ b ++ "`"
  | names => "expected one of " ++ String.intercalate ", " (names.map fun n => "`" ++ n ++ "`")

/-- The wording of a rejection. -/
def Rejection.message : Rejection → String
  | unknownName given known => "unknown variant `" ++ given ++ "`, " ++ expectation known
  | repeatedField field => "duplicate field `" ++ field ++ "`"
  | wrongKind found wanted => "invalid type: " ++ found.describe ++ ", expected " ++ wanted

end SidVoice.Json
