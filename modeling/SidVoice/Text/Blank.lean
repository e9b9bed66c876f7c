/-!
# Blank characters and trimming

The blank characters are the Unicode property `White_Space`. Zero-width characters and the
byte order mark are not in it. Trimming removes blanks at both ends of a text and leaves those
inside it alone.
-/

namespace SidVoice.Text

/-- The ranges of code points with the property `White_Space`, in ascending order. -/
def blankRanges : List (Nat × Nat) :=
  [(0x9, 0xD), (0x20, 0x20), (0x85, 0x85), (0xA0, 0xA0), (0x1680, 0x1680), (0x2000, 0x200A),
    (0x2028, 0x2029), (0x202F, 0x202F), (0x205F, 0x205F), (0x3000, 0x3000)]

/-- A character is blank if its code point lies in one of `blankRanges`. -/
def isBlank (c : Char) : Bool :=
  blankRanges.any fun r => r.1 ≤ c.toNat && c.toNat ≤ r.2

/-- Remove the blanks at both ends. -/
def trim (text : List Char) : List Char :=
  ((text.dropWhile isBlank).reverse.dropWhile isBlank).reverse

theorem dropWhile_isBlank_of_all {text : List Char} (h : ∀ c ∈ text, isBlank c = true) :
    text.dropWhile isBlank = [] := by
  induction text with
  | nil => rfl
  | cons c rest ih =>
    rw [List.dropWhile_cons, if_pos (h c List.mem_cons_self)]
    exact ih fun d hd => h d (List.mem_cons_of_mem c hd)

end SidVoice.Text
