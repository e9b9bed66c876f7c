/-!
# Binary magnitudes

A magnitude is a natural number times a power of two. Products of magnitudes are exact until
their digits are cut to a working length; a cut that loses a nonzero digit leaves a mark, so
that a later rounding does not take an inexact number for a tie.

No claim is made about how far an inexact magnitude is from the number it stands for: the
caller chooses a working length that leaves room.
-/

namespace SidVoice.Number

/-- The number `digits * 2 ^ scale`, up to what has been cut off if it is not exact. -/
structure Magnitude where
  /-- The significant digits, as a natural number. -/
  digits : Nat
  /-- The exponent of the last digit. -/
  scale : Int
  /-- Whether a nonzero digit has been cut off. -/
  inexact : Bool := false
  deriving DecidableEq

namespace Magnitude

/-- The number one. -/
def one : Magnitude := ⟨1, 0, false⟩

/-- The length of the digits in bits. -/
def length (x : Magnitude) : Nat := if x.digits = 0 then 0 else x.digits.log2 + 1

/-- The product, with all its digits. -/
def mul (x y : Magnitude) : Magnitude :=
  ⟨x.digits * y.digits, x.scale + y.scale, x.inexact || y.inexact⟩

/-- Cut the digits to a working length. -/
def cut (working : Nat) (x : Magnitude) : Magnitude :=
  let excess := x.length - working
  ⟨x.digits >>> excess, x.scale + excess, x.inexact || x.digits % (1 <<< excess) != 0⟩

/-- A power by repeated squaring, cut to a working length after each product. -/
def pow (working : Nat) (x : Magnitude) (n : Nat) : Magnitude :=
  if h : n = 0 then one
  else
    let half := pow working x (n / 2)
    let square := (half.mul half).cut working
    if n % 2 = 0 then square else (square.mul x).cut working
termination_by n
decreasing_by omega

/-- The reciprocal of a nonzero magnitude, to a working length. -/
def inv (working : Nat) (x : Magnitude) : Magnitude :=
  let places := x.length + working
  ⟨(1 <<< places) / x.digits, -x.scale - places, x.inexact || (1 <<< places) % x.digits != 0⟩

/-- Drop digits at the end, rounding to the nearest; a tie between two exact neighbours goes to
the even one. -/
def drop (count : Nat) (x : Magnitude) : Magnitude :=
  if count = 0 then x
  else
    let kept := x.digits >>> count
    let lost := x.digits % (1 <<< count)
    let half := 1 <<< (count - 1)
    let up := half < lost || half == lost && (x.inexact || kept % 2 == 1)
    ⟨if up then kept + 1 else kept, x.scale + count, false⟩

/-- Round to at most so many digits. -/
def round (precision : Nat) (x : Magnitude) : Magnitude := x.drop (x.length - precision)

/-- Round to at most so many digits, the last of which is no finer than `2 ^ finest`. -/
def roundWithin (precision : Nat) (finest : Int) (x : Magnitude) : Magnitude :=
  let count := max (x.length - precision) (finest - x.scale).toNat
  if x.length + 1 < count then ⟨0, finest, false⟩ else x.drop count

end Magnitude

end SidVoice.Number
