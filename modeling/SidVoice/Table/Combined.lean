import SidVoice.Pulldown.Fitted
import SidVoice.Pulldown.Sample
import SidVoice.Table.Matrix

/-!
# Combined tables

The combined table of five profiles has a row for each: the pulldown of every phase. The weights
of a profile are worked out once for its row.
-/

namespace SidVoice

open Pulldown (Profile)

/-- The pulldown of every phase under a profile. -/
def pulldownRow (profile : Profile) : SampleRow :=
  let weights := profile.weights
  Vector.ofFn fun phase : Phase =>
    Pulldown.sample weights profile.topBit profile.pulse profile.threshold phase.word

/-- A table with a row for each combination. -/
abbrev CombinedTable := SampleMatrix 5

/-- The table of five profiles. -/
def combinedTable (profiles : Vector Profile 5) : CombinedTable :=
  .ofRows fun row => pulldownRow profiles[row]

/-- The table of a setup. -/
def Setup.table (setup : Setup) : CombinedTable := combinedTable setup.profiles

theorem get_pulldownRow (profile : Profile) (phase : Phase) :
    (pulldownRow profile).get phase =
      Pulldown.sample profile.weights profile.topBit profile.pulse profile.threshold
        phase.word := by
  simp [pulldownRow]

@[simp] theorem get_combinedTable (profiles : Vector Profile 5) (row : Fin 5) :
    (combinedTable profiles).get row = pulldownRow profiles[row] :=
  SampleMatrix.get_ofRows _ row

/-- A row of a setup's table is the pulldown under the fitted profile of its combination. -/
theorem get_table (setup : Setup) (combination : Combination) :
    setup.table.get combination.row = pulldownRow (Pulldown.fitted setup combination) :=
  get_combinedTable setup.profiles combination.row

end SidVoice
