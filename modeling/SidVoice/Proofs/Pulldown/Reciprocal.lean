import SidVoice.Proofs.Pulldown.Decay
import SidVoice.Proofs.Pulldown.Sums

/-!
# Regular weights of reciprocal curves

On a linear or a quadratic curve with distance parameters that are not negative, the weights lie
between zero and one. With great parameters they may vanish, so not all of them need be positive.

But a neighbour's weight has the parameter itself in its denominator, and if this is finite, the
reciprocal of one plus the largest number does not vanish. This alone keeps the influence on a line
positive.
-/

namespace SidVoice.Pulldown

open Number

section Neighbours

variable {curve : DecayCurve} {distance : Float32}

/-- A neighbour's weight has the distance itself in its denominator, and does not vanish. -/
theorem weight_one_pos (hcurve : curve = .linear ∨ curve = .quadratic)
    (hfinite : distance.isFinite = true) (hnonneg : 0 ≤ distance) :
    0 < curve.weight distance 1 := by
  have hweight : curve.weight distance 1 = 1 / (1 + distance) := by
    have hlinear : single 1 = 1 := by decide
    have hquadratic : single (1 * 1) = 1 := by decide
    obtain rfl | rfl := hcurve
    · rw [DecayCurve.weight, hlinear, one_mul_single]
    · rw [DecayCurve.weight, hquadratic, one_mul_single]
  rw [hweight]
  exact reciprocal_pos hnonneg hfinite

end Neighbours

/-- A linear or a quadratic curve with distance parameters that are finite and not negative. -/
structure Profile.Reciprocal (profile : Profile) : Prop where
  curve : profile.curve = .linear ∨ profile.curve = .quadratic
  isFinite_higher : profile.higher.isFinite = true
  higher_nonneg : 0 ≤ profile.higher
  isFinite_lower : profile.lower.isFinite = true
  lower_nonneg : 0 ≤ profile.lower

namespace Profile.Reciprocal

variable {profile : Profile}

theorem decaying (h : profile.Reciprocal) : profile.Decaying :=
  ⟨h.curve, h.higher_nonneg, h.lower_nonneg⟩

theorem higher_neighbour_pos (h : profile.Reciprocal) : 0 < profile.weights.get 11 := by
  have hentry : profile.weights.get 11 = profile.curve.weight profile.higher 1 :=
    profile.getElem_weights 11
  rw [hentry]
  exact weight_one_pos h.curve h.isFinite_higher h.higher_nonneg

theorem lower_neighbour_pos (h : profile.Reciprocal) : 0 < profile.weights.get 13 := by
  have hentry : profile.weights.get 13 = profile.curve.weight profile.lower 1 :=
    profile.getElem_weights 13
  rw [hentry]
  exact weight_one_pos h.curve h.isFinite_lower h.lower_nonneg

/-- The weight table of such a profile is regular. -/
theorem regular (h : profile.Reciprocal) : Regular profile.weights :=
  regular_of_le_one (fun entry _ _ _ => h.decaying.entry_mem_unit entry) h.higher_neighbour_pos
    h.lower_neighbour_pos

/-- The influence on a line is positive, and at most eleven. -/
theorem influence_bounds (h : profile.Reciprocal) (line : Line) :
    0 < influence profile.weights line ∧ influence profile.weights line ≤ 11 :=
  Pulldown.influence_bounds (fun entry _ _ _ => h.decaying.entry_mem_unit entry)
    h.higher_neighbour_pos h.lower_neighbour_pos line

end Profile.Reciprocal

end SidVoice.Pulldown
