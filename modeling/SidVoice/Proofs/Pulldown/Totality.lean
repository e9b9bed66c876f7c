import SidVoice.Proofs.Pulldown.Reciprocal
import SidVoice.Proofs.Pulldown.Saturation

/-!
# No pulldown fails to be a number

With a regular weight table, a finite factor on the top line and a finite pulse, the pull on each
line, its average and what is left of the line are numbers, and no divisor is a zero or infinite.

The pull may well be infinite: one less a factor far from one is finite, but its product with a
weight need not be. What cannot happen is that infinities of both signs meet in one sum, since only
the top line can lack more than a full level or have more than one. Hence the two cases here. If the
factor is not negative no sum rises above that of the weights, and if it is not positive none falls
below zero.
-/

namespace SidVoice.Pulldown

open Number

section Pulls

variable {weights : WeightTable} {topBit : Float32}

/-- The pull on a line is a number. -/
theorem Regular.isNumber_pull (h : Regular weights) (htop : topBit.isFinite = true)
    (phase : UInt16) (line : Line) : IsNumber (pull weights (level topBit phase) line) := by
  have hfinite := isFinite_level htop phase
  rcases le_total_single isNumber_zero (isNumber_of_isFinite htop) with hnonneg | hnonpos
  · have hraised := Raised.refl hfinite (level_nonneg htop hnonneg phase)
    exact (le_iff_value.mp (h.pull_le hraised line).2).1
  · have hlevels := level_le_one htop (le_trans_single hnonpos (by decide)) phase
    exact (nonneg_iff_value.mp (h.pull_nonneg hfinite hlevels line)).1

end Pulls

/-- With regular weights, a finite factor and a finite pulse, all divisors of a pulldown are finite
and positive, and the pull on each line, what the pulse leaves of it, its average and what is left
of the line are numbers. All reciprocal profiles have regular weights: none of them is above one,
and they add up to eleven at most. -/
theorem isNumber_steps :
    (∀ weights : WeightTable, Regular weights → ∀ topBit pulse : Float32,
      topBit.isFinite = true → pulse.isFinite = true → ∀ (phase : UInt16) (line : Line),
        let levels := level topBit phase
        ((influence weights line).isFinite = true ∧ 0 < influence weights line) ∧
          IsNumber (pull weights levels line) ∧ IsNumber (pull weights levels line - pulse) ∧
          IsNumber (pulldown weights pulse levels line) ∧
          IsNumber (1 - pulldown weights pulse levels line)) ∧
    ∀ profile : Profile, profile.Reciprocal →
      Regular profile.weights ∧
      (∀ entry : Fin 25, 0 ≤ profile.weights.get entry ∧ profile.weights.get entry ≤ 1) ∧
      ∀ line, 0 < influence profile.weights line ∧ influence profile.weights line ≤ 11 := by
  constructor
  · intro weights h topBit pulse htop hpulse phase line levels
    have hpull : IsNumber (pull weights levels line) := h.isNumber_pull htop phase line
    have hrest : IsNumber (pull weights levels line - pulse) := isNumber_sub hpull hpulse
    have hpulldown : IsNumber (pulldown weights pulse levels line) :=
      isNumber_div hrest (h.isFinite_influence line) (h.influence_pos line)
    exact ⟨⟨h.isFinite_influence line, h.influence_pos line⟩, hpull, hrest, hpulldown,
      isNumber_one_sub hpulldown⟩
  · intro profile h
    exact ⟨h.regular, h.decaying.entry_mem_unit, h.influence_bounds⟩

/-- On a strong 6581 a factor at the lower end pulls the lowest line infinitely, and what is left of
it is a number. With the largest distance parameters the weights of a quadratic profile vanish but
for neighbours, and they are regular. -/
theorem isNumber_steps_largest :
    let weights := (fitted ⟨.mos6581, .strong⟩ .triangleSawtooth).weights
    let far : Profile := ⟨.quadratic, 0, 1, 0, largest, largest⟩
    (Regular weights ∧ (-largest).isFinite = true ∧ largest.isFinite = true ∧
      (pull weights (level (-largest) 0x801) 0).isInf = true ∧
      IsNumber (1 - pulldown weights largest (level (-largest) 0x801) 0)) ∧
      far.Reciprocal ∧ far.weights.get 10 = 0 ∧ Regular far.weights := by
  intro weights far
  have hregular : Regular weights := regular_triangleSawtooth ⟨.mos6581, .strong⟩
  have hlargest : largest.isFinite = true ∧ (-largest).isFinite = true ∧ 0 ≤ largest := by decide
  have hfar : far.Reciprocal :=
    ⟨Or.inr rfl, hlargest.1, hlargest.2.2, hlargest.1, hlargest.2.2⟩
  obtain ⟨hsteps, hprofiles⟩ := isNumber_steps
  obtain ⟨-, -, -, -, hleft⟩ :=
    hsteps weights hregular (-largest) largest hlargest.2.1 hlargest.1 0x801 0
  obtain ⟨htable, -, -⟩ := hprofiles far hfar
  exact ⟨⟨hregular, hlargest.2.1, hlargest.1, by decide +kernel, hleft⟩, hfar, by decide +kernel,
    htable⟩

end SidVoice.Pulldown
