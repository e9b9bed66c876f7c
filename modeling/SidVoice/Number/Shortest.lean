/-!
# The shortest decimal that reads back

A binary floating-point number stands for all reals that round to it. Its shortest decimal is
the one on the coarsest decimal grid that still rounds to it. A point of a grid lies among those
reals only if one of the two grid points next to the number does, so these two are all that need
testing on each grid; of two the nearer is taken, and of two equally near the even one.
-/

namespace SidVoice.Number

/-- A positive binary floating-point number with its bounds, in units of a common scale. -/
structure Interval where
  /-- The number. -/
  middle : Nat
  /-- Halfway to the next smaller number. -/
  low : Nat
  /-- Halfway to the next larger number. -/
  high : Nat
  /-- Whether the bounds themselves round to the number. -/
  closed : Bool

/-- Whether a real rounds to the number. -/
def Interval.holds (i : Interval) (point : Nat) : Bool :=
  if i.closed then i.low ≤ point && point ≤ i.high else i.low < point && point < i.high

/-- The multiple of the unit that lies in the interval, if one next to the number does. -/
def Interval.onGrid? (i : Interval) (unit : Nat) : Option Nat :=
  let below := i.middle / unit
  let above := below + 1
  match i.holds (below * unit), i.holds (above * unit) with
  | true, true =>
    let down := i.middle - below * unit
    let up := above * unit - i.middle
    if down < up || down == up && below % 2 == 0 then some below else some above
  | true, false => some below
  | false, true => some above
  | false, false => none

/-- The interval of `mantissa * 2 ^ scale` and the unit `10 ^ place`, over one denominator.
A power of two has a closer neighbour below it than above. -/
def intervalAt (mantissa : Nat) (scale : Int) (powerOfTwo : Bool) (place : Int) :
    Interval × Nat :=
  let quarter := scale - 2
  let factor := (1 <<< quarter.toNat) * Nat.pow 10 (-place).toNat
  let unit := Nat.pow 10 place.toNat * (1 <<< (-quarter).toNat)
  let below := if powerOfTwo then 1 else 2
  (⟨4 * mantissa * factor, (4 * mantissa - below) * factor, (4 * mantissa + 2) * factor,
    mantissa % 2 == 0⟩, unit)

/-- The shortest decimal `digits * 10 ^ place` that reads back as `mantissa * 2 ^ scale`, for a
positive double-precision number. -/
def shortestDecimal (mantissa : Nat) (scale : Int) (powerOfTwo : Bool) : Nat × Int :=
  let found := (List.range 700).findSome? fun (step : Nat) =>
    let place : Int := 309 - (step : Int)
    let (interval, unit) := intervalAt mantissa scale powerOfTwo place
    (interval.onGrid? unit).map fun digits => (digits, place)
  found.getD (0, 0)

/-- The shortest decimal of the magnitude of a finite nonzero double, from its bits. -/
def shortestOfBits (bits : UInt64) : Nat × Int :=
  let fraction : Nat := bits.toNat % 0x10000000000000
  let field : Nat := bits.toNat / 0x10000000000000 % 0x800
  if field = 0 then shortestDecimal fraction (-1074) false
  else
    let powerOfTwo := fraction == 0 && 1 < field
    shortestDecimal (0x10000000000000 + fraction) ((field : Int) - 1075) powerOfTwo

/-- How decimals are written. -/
structure DecimalStyle where
  /-- Numbers below `10 ^ highest` are written without an exponent. -/
  highest : Int
  /-- Numbers of at least `10 ^ lowest` are written without an exponent. -/
  lowest : Int
  /-- What stands before an exponent that is not negative. -/
  plus : String

/-- The decimal `digits * 10 ^ place` in a style: whole numbers keep one zero after the point,
and an exponent follows the first digit, with a point only if more digits come. -/
def DecimalStyle.write (style : DecimalStyle) (digits : Nat) (place : Int) : String :=
  let ds := Nat.toDigits 10 digits
  let length : Int := ds.length + place
  let zeros := fun (n : Int) => List.replicate n.toNat '0'
  if style.lowest < length && length ≤ style.highest then
    if 0 ≤ place then String.ofList (ds ++ zeros place ++ ['.', '0'])
    else if 0 < length then
      String.ofList (ds.take length.toNat ++ ['.'] ++ ds.drop length.toNat)
    else String.ofList (['0', '.'] ++ zeros (-length) ++ ds)
  else
    let head := ds.take 1 ++ (if ds.length = 1 then [] else '.' :: ds.drop 1)
    let exponent := length - 1
    String.ofList head ++ "e" ++ (if exponent < 0 then "" else style.plus) ++ toString exponent

/-- The text of a finite double: the shortest decimal that reads back. -/
def DecimalStyle.ofFloat (style : DecimalStyle) (x : Float) : String :=
  let bits := x.toBits
  let sign := if bits >>> 63 == 1 then "-" else ""
  let size := bits &&& 0x7fffffffffffffff
  if size = 0 then sign ++ "0.0"
  else
    let (digits, place) := shortestOfBits bits
    sign ++ style.write digits place

end SidVoice.Number
