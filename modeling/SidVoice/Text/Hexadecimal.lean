/-!
# Hexadecimal numbers

Numbers that stand for bit patterns are written in base sixteen, with lower-case digits after
a marker and no leading zeros.
-/

namespace SidVoice.Text

/-- Lower-case hexadecimal digits after `0x`. -/
def hexadecimal (n : Nat) : String := "0x" ++ String.ofList (Nat.toDigits 16 n)

end SidVoice.Text
