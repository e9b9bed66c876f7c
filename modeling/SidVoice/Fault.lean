import SidVoice.Text.Hexadecimal

/-!
# Faults

A fault ends a single request: a phase with more than twelve bits, a row or phase outside a
table, or checked integer arithmetic that does not fit into 32 bits. A fault is an answer like
any other; whoever asked may go on asking.
-/

namespace SidVoice

/-- The ways in which a request can fault. -/
inductive Fault where
  /-- A phase of more than twelve bits. -/
  | widePhase (phase : UInt16)
  /-- A position at or beyond the end of a sequence. -/
  | outOfBounds (length : Nat) (position : Nat)
  /-- A product outside the signed 32-bit range. -/
  | multiplyOverflow
  /-- A negation outside the signed 32-bit range. -/
  | negateOverflow
  deriving DecidableEq

/-- The wording of a fault. -/
def Fault.message : Fault → String
  | widePhase phase => "phase " ++ Text.hexadecimal phase.toNat ++ " exceeds 12 bits"
  | outOfBounds length position =>
    "index out of bounds: the len is " ++ toString length ++ " but the index is " ++
      toString position
  | multiplyOverflow => "attempt to multiply with overflow"
  | negateOverflow => "attempt to negate with overflow"

end SidVoice
