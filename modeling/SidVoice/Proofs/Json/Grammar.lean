/-!
# The grammar of JSON

The texts of JSON as relations on lists of characters, with no reader in sight.

A text between quotes comes in two forms. `Spells` says which characters it stands for, so its
surrogates come in pairs. `Body` says only that it is well formed, and lets a surrogate stand
alone, as the grammar does.
-/

namespace SidVoice.Json.Grammar

/-- A run of the blanks that may stand between tokens. -/
def Blank (text : List Char) : Prop :=
  ∀ c ∈ text, c = ' ' ∨ c = '\t' ∨ c = '\n' ∨ c = '\r'

theorem blank_nil : Blank [] := nofun

theorem Blank.tail {c : Char} {text : List Char} (h : Blank (c :: text)) : Blank text :=
  fun d hd => h d (List.mem_cons_of_mem c hd)

/-! ## Texts between quotes -/

/-- A body between quotes. -/
def inQuotes (body : List Char) : List Char := '"' :: body ++ ['"']

/-- A character that stands for itself between quotes. -/
structure Plain (c : Char) : Prop where
  /-- It does not end the text. -/
  ne_quote : c ≠ '"'
  /-- It does not begin an escape. -/
  ne_backslash : c ≠ '\\'
  /-- It is not a control character. -/
  not_control : 0x20 ≤ c.toNat

instance (c : Char) : Decidable (Plain c) :=
  decidable_of_iff (c ≠ '"' ∧ c ≠ '\\' ∧ 0x20 ≤ c.toNat)
    ⟨fun ⟨hquote, hbackslash, hcontrol⟩ => ⟨hquote, hbackslash, hcontrol⟩,
      fun ⟨hquote, hbackslash, hcontrol⟩ => ⟨hquote, hbackslash, hcontrol⟩⟩

/-- The letters of escapes and what they stand for. -/
inductive Escape : Char → Char → Prop
  | quote : Escape '"' '"'
  | backslash : Escape '\\' '\\'
  | slash : Escape '/' '/'
  | backspace : Escape 'b' '\x08'
  | formFeed : Escape 'f' '\x0c'
  | lineFeed : Escape 'n' '\n'
  | carriageReturn : Escape 'r' '\r'
  | tab : Escape 't' '\t'

/-- A hexadecimal digit of either case and its value. -/
def HexDigit (digit : Char) (value : Nat) : Prop :=
  value < 16 ∧ (digit = value.digitChar ∨ digit = value.digitChar.toUpper)

/-- Four hexadecimal digits and the number they write. -/
inductive CodeUnit : List Char → Nat → Prop
  | digits {p q r s : Char} {a b c d : Nat} :
    HexDigit p a → HexDigit q b → HexDigit r c → HexDigit s d →
      CodeUnit [p, q, r, s] (((a * 16 + b) * 16 + c) * 16 + d)

/-- A body between quotes and the characters it stands for. -/
inductive Spells : List Char → List Char → Prop
  | nil : Spells [] []
  | plain {c : Char} {body chars : List Char} :
    Plain c → Spells body chars → Spells (c :: body) (c :: chars)
  | escape {letter c : Char} {body chars : List Char} :
    Escape letter c → Spells body chars → Spells ('\\' :: letter :: body) (c :: chars)
  | code {digits : List Char} {c : Char} {body chars : List Char} :
    CodeUnit digits c.toNat → Spells body chars →
      Spells ('\\' :: 'u' :: digits ++ body) (c :: chars)
  | pair {lead trail : List Char} {high low : Nat} {c : Char} {body chars : List Char} :
    high < 0x400 → low < 0x400 → c.toNat = 0x10000 + high * 0x400 + low →
      CodeUnit lead (0xD800 + high) → CodeUnit trail (0xDC00 + low) → Spells body chars →
      Spells ('\\' :: 'u' :: lead ++ ('\\' :: 'u' :: trail ++ body)) (c :: chars)

/-- A body between quotes, whatever it stands for. -/
inductive Body : List Char → Prop
  | nil : Body []
  | plain {c : Char} {body : List Char} : Plain c → Body body → Body (c :: body)
  | escape {letter c : Char} {body : List Char} :
    Escape letter c → Body body → Body ('\\' :: letter :: body)
  | code {digits : List Char} {unit : Nat} {body : List Char} :
    CodeUnit digits unit → Body body → Body ('\\' :: 'u' :: digits ++ body)

/-- Characters that need no escape spell themselves. -/
theorem Spells.self {chars : List Char} (h : chars.all (fun c => decide (Plain c)) = true) :
    Spells chars chars := by
  induction chars with
  | nil => exact .nil
  | cons c chars ih =>
    rw [List.all_cons, Bool.and_eq_true, decide_eq_true_eq] at h
    exact .plain h.1 (ih h.2)

/-- What spells characters is well formed. -/
theorem Spells.body {body chars : List Char} (h : Spells body chars) : Body body := by
  induction h with
  | nil => exact .nil
  | plain hplain _ ih => exact .plain hplain ih
  | escape hescape _ ih => exact .escape hescape ih
  | code hdigits _ ih => exact .code hdigits ih
  | pair _ _ _ hlead htrail _ ih => exact .code hlead (.code htrail ih)

/-! ## Numbers -/

/-- One or more decimal digits. -/
inductive Digits : List Char → Prop
  | digits {c : Char} {rest : List Char} :
    c.isDigit → (∀ d ∈ rest, d.isDigit) → Digits (c :: rest)

/-- Whole digits: a single zero, or digits of which the first is not zero. -/
inductive Whole : List Char → Prop
  | zero : Whole ['0']
  | digits {c : Char} {rest : List Char} :
    c.isDigit → c ≠ '0' → (∀ d ∈ rest, d.isDigit) → Whole (c :: rest)

/-- A fraction, or nothing. -/
inductive Fraction : List Char → Prop
  | none : Fraction []
  | digits {digits : List Char} : Digits digits → Fraction ('.' :: digits)

/-- An exponent, or nothing. -/
inductive Exponent : List Char → Prop
  | none : Exponent []
  | digits {mark : Char} {sign digits : List Char} :
    mark = 'e' ∨ mark = 'E' → sign = [] ∨ sign = ['+'] ∨ sign = ['-'] → Digits digits →
      Exponent (mark :: sign ++ digits)

/-- A number. -/
inductive Numeral : List Char → Prop
  | parts {sign whole fraction exponent : List Char} :
    sign = [] ∨ sign = ['-'] → Whole whole → Fraction fraction → Exponent exponent →
      Numeral (sign ++ (whole ++ (fraction ++ exponent)))

/-! ## Values -/

/-- What a part of a value's text is. -/
inductive Part where
  /-- A value. -/
  | value
  /-- A value with blanks around it. -/
  | padded
  /-- The elements of a list that is not empty. -/
  | items
  /-- A key and its value, with blanks around both. -/
  | entry
  /-- The members of an object that is not empty. -/
  | members

/-- The texts of values and of their parts. -/
inductive Phrase : Part → List Char → Prop
  | null : Phrase .value ['n', 'u', 'l', 'l']
  | true : Phrase .value ['t', 'r', 'u', 'e']
  | false : Phrase .value ['f', 'a', 'l', 's', 'e']
  | number {text : List Char} : Numeral text → Phrase .value text
  | text {body : List Char} : Body body → Phrase .value (inQuotes body)
  | emptyList {blank : List Char} : Blank blank → Phrase .value ('[' :: blank ++ [']'])
  | list {items : List Char} : Phrase .items items → Phrase .value ('[' :: items ++ [']'])
  | emptyObject {blank : List Char} : Blank blank → Phrase .value ('\x7b' :: blank ++ ['\x7d'])
  | object {members : List Char} :
    Phrase .members members → Phrase .value ('\x7b' :: members ++ ['\x7d'])
  | padded {before value after : List Char} :
    Blank before → Phrase .value value → Blank after → Phrase .padded (before ++ value ++ after)
  | lastItem {item : List Char} : Phrase .padded item → Phrase .items item
  | item {item items : List Char} :
    Phrase .padded item → Phrase .items items → Phrase .items (item ++ ',' :: items)
  | entry {before key after value : List Char} :
    Blank before → Body key → Blank after → Phrase .padded value →
      Phrase .entry (before ++ inQuotes key ++ after ++ ':' :: value)
  | lastMember {entry : List Char} : Phrase .entry entry → Phrase .members entry
  | member {entry members : List Char} :
    Phrase .entry entry → Phrase .members members → Phrase .members (entry ++ ',' :: members)

end SidVoice.Json.Grammar
