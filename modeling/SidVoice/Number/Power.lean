import SidVoice.Number.Magnitude

/-!
# Integer powers of single-precision numbers

A power is evaluated in double precision and then narrowed, so it is rounded twice: to 53
binary digits and to single precision. In between the exponent is not limited, because what a
double cannot hold a single cannot hold either.

The powers of zero and of infinity carry the sign of the base when the exponent is odd. The
zeroth power is one for every base, even for one that is not a number.
-/

namespace SidVoice.Number

/-- The working length of a power: exact for up to thirteen factors of 24 digits. -/
def workingLength : Nat := 320

/-- The single-precision number nearest to a magnitude, or infinity beyond the largest. -/
def singleOfMagnitude (negative : Bool) (x : Magnitude) : Float32 :=
  let rounded := x.roundWithin 24 (-149)
  -- a number with few digits is written with the scale of its 24-digit form
  let shift := min (24 - rounded.length) (rounded.scale + 149).toNat
  let digits := rounded.digits <<< shift
  let scale := rounded.scale - shift
  let bits := if digits = 0 then 0 else (scale + 149).toNat * 0x800000 + digits
  let sign := if negative then 0x80000000 else 0
  Float32.ofBits (sign ||| (UInt32.ofNat (min bits 0x7f800000)))

/-- A signed single-precision infinity. -/
def infinity (negative : Bool) : Float32 :=
  Float32.ofBits (if negative then 0xff800000 else 0x7f800000)

/-- A signed single-precision zero. -/
def zero (negative : Bool) : Float32 := Float32.ofBits (if negative then 0x80000000 else 0)

/-- The magnitude of a finite single-precision number, from its bits. -/
def magnitudeOfBits (bits : UInt32) : Magnitude :=
  let fraction : Nat := bits.toNat % 0x800000
  let field : Nat := bits.toNat / 0x800000 % 0x100
  if field = 0 then ⟨fraction, -149, false⟩ else ⟨0x800000 + fraction, (field : Int) - 150, false⟩

/-- The magnitude of a power with a nonzero finite base, rounded to 53 digits. -/
def powerMagnitude (base : Magnitude) (exponent : Int) : Magnitude :=
  let power := base.pow workingLength exponent.natAbs
  let signed := if exponent < 0 then power.inv workingLength else power
  signed.round 53

/-- The power of a single-precision number to an integer. -/
def power (base : Float32) (exponent : Int) : Float32 :=
  if exponent = 0 then 1
  else if base.isNaN then base
  else
    let bits := base.toBits
    let negative := bits >>> 31 == 1 && exponent % 2 == 1
    let size := bits &&& 0x7fffffff
    if size = 0 then if exponent < 0 then infinity negative else zero negative
    else if size = 0x7f800000 then if exponent < 0 then zero negative else infinity negative
    else singleOfMagnitude negative (powerMagnitude (magnitudeOfBits bits) exponent)

end SidVoice.Number
