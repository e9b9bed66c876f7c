import SidVoice.Fault
import SidVoice.Number.Power

/-!
# How influence decays with distance

Neighbouring bit lines load each other, the less the further apart they are. A decay curve
turns a distance parameter and an offset in lines into a weight.

The offset is a signed 32-bit number and its arithmetic is checked: an offset can be too large
to negate or to square. The offsets between two of the twelve lines never are, so tables of
weights use the unchecked form; `weight?_eq_ok` says when both agree.
-/

namespace SidVoice.Pulldown

/-- The curves along which influence decays with distance. -/
inductive DecayCurve where
  /-- The distance to the power of the negated offset, evaluated in double precision. -/
  | exponential
  /-- The reciprocal of one plus the offset times the distance. -/
  | linear
  /-- The reciprocal of one plus the squared offset times the distance. -/
  | quadratic
  deriving DecidableEq, Inhabited

namespace DecayCurve

/-- The name of a curve. -/
def label : DecayCurve → String
  | exponential => "Exponential"
  | linear => "Linear"
  | quadratic => "Quadratic"

/-- Every curve. -/
def all : List DecayCurve := [exponential, linear, quadratic]

end DecayCurve

/-- Whether an integer is a signed 32-bit number. -/
def fits (n : Int) : Bool := -0x80000000 ≤ n && n ≤ 0x7fffffff

/-- The single-precision number nearest to a 32-bit integer. -/
def single (i : Int32) : Float32 :=
  let size := (UInt32.ofNat i.toInt.natAbs).toFloat32
  if i < 0 then -size else size

namespace DecayCurve

/-- The weight at an offset whose arithmetic fits into 32 bits. -/
def weight (curve : DecayCurve) (distance : Float32) (offset : Int32) : Float32 :=
  match curve with
  | exponential => Number.power distance (-offset).toInt
  | linear => 1 / (1 + single offset * distance)
  | quadratic => 1 / (1 + single (offset * offset) * distance)

/-- The fault of an offset whose negation or square is needed and does not fit into 32 bits. -/
def fault? (curve : DecayCurve) (offset : Int32) : Option Fault :=
  match curve with
  | exponential => if fits (-offset.toInt) then none else some .negateOverflow
  | linear => none
  | quadratic => if fits (offset.toInt * offset.toInt) then none else some .multiplyOverflow

/-- The weight at any offset, or the fault of its arithmetic. -/
def weight? (curve : DecayCurve) (distance : Float32) (offset : Int32) : Except Fault Float32 :=
  match curve.fault? offset with
  | some fault => .error fault
  | none => .ok (curve.weight distance offset)

theorem weight?_eq_ok {curve : DecayCurve} {distance : Float32} {offset : Int32}
    (h : curve.fault? offset = none) :
    curve.weight? distance offset = .ok (curve.weight distance offset) := by
  rw [weight?, h]

end DecayCurve

end SidVoice.Pulldown
