import SidVoice.Chip
import SidVoice.Pulldown.Profile
import SidVoice.Waveform

/-!
# Fitted profiles

For each strength there is a table of profiles, with a line for each chip and in it a profile for
each combination of waveforms. Lines and profiles stand in the order of the numbers of chips and
of the rows of combinations. A profile is fitted to samplings of a real chip; the parameters of
noise with pulse are guessed, and the same for every strength.

The decimal digits are those of the fit; what counts is the single-precision number nearest to
each. Nothing is proved about how well a profile fits.
-/

namespace SidVoice

namespace Pulldown

/-- The profiles of an average 6581. -/
def averageMos6581 : Vector Profile 5 := #v[
  ⟨.exponential, 0.877322257, 1.11349654, 0.0, 2.14537621, 9.08618164⟩,
  ⟨.linear, 0.941692829, 1.0, 1.80072665, 0.033124879, 0.232303441⟩,
  ⟨.linear, 1.66494179, 1.03760982, 5.62705326, 0.291590303, 0.283631504⟩,
  ⟨.linear, 1.09762526, 0.975265801, 1.52196741, 0.151528224, 0.841949463⟩,
  ⟨.exponential, 0.96, 1.0, 2.5, 1.1, 1.2⟩]

/-- The profiles of a weak 6581. -/
def weakMos6581 : Vector Profile 5 := #v[
  ⟨.exponential, 0.886832297, 1.0, 0.0, 2.14438701, 9.51839447⟩,
  ⟨.linear, 1.01262534, 1.0, 2.46070528, 0.0537485816, 0.0986242667⟩,
  ⟨.linear, 2.14896345, 1.0216713, 10.5400085, 0.244498149, 0.126134038⟩,
  ⟨.linear, 1.29061747, 0.9754318, 3.15377498, 0.0968349651, 0.318573922⟩,
  ⟨.exponential, 0.96, 1.0, 2.5, 1.1, 1.2⟩]

/-- The profiles of a strong 6581. -/
def strongMos6581 : Vector Profile 5 := #v[
  ⟨.exponential, 0.000637792516, 1.56725872, 0.0, 0.00036806846, 1.51800942⟩,
  ⟨.linear, 0.924824238, 1.0, 1.96749473, 0.0891806409, 0.234794483⟩,
  ⟨.linear, 1.2328074, 0.73079139, 3.9719491, 0.00156516861, 0.314677745⟩,
  ⟨.linear, 1.08558261, 0.857638359, 1.52781796, 0.152927235, 1.02657032⟩,
  ⟨.exponential, 0.96, 1.0, 2.5, 1.1, 1.2⟩]

/-- The profiles of an average 8580. -/
def averageMos8580 : Vector Profile 5 := #v[
  ⟨.exponential, 0.841851234, 1.09233654, 0.0, 1.85262764, 6.22224379⟩,
  ⟨.exponential, 0.929835618, 1.0, 1.12836814, 1.10453653, 1.48065746⟩,
  ⟨.quadratic, 0.911938608, 0.996440411, 1.2278074, 0.000117214302, 0.18948476⟩,
  ⟨.exponential, 0.932317019, 1.03892183, 1.2068342, 0.891974986, 1.42451835⟩,
  ⟨.exponential, 0.95, 1.0, 1.15, 1.0, 1.45⟩]

/-- The profiles of a weak 8580. -/
def weakMos8580 : Vector Profile 5 := #v[
  ⟨.exponential, 0.816124022, 1.31208789, 0.0, 1.92347884, 2.35027933⟩,
  ⟨.exponential, 0.917997837, 1.0, 1.01248944, 1.05761552, 1.37529826⟩,
  ⟨.quadratic, 0.970038712, 1.00844693, 1.30298805, 0.0097996993, 0.146854922⟩,
  ⟨.exponential, 0.941834152, 1.06401193, 0.991132736, 0.995310068, 1.41105855⟩,
  ⟨.exponential, 0.95, 1.0, 1.15, 1.0, 1.45⟩]

/-- The profiles of a strong 8580. -/
def strongMos8580 : Vector Profile 5 := #v[
  ⟨.exponential, 0.89762634, 56.7594185, 0.0, 7.68995237, 12.0754194⟩,
  ⟨.exponential, 0.867885351, 1.0, 1.4511894, 1.07057536, 1.43333757⟩,
  ⟨.quadratic, 0.89255774, 1.2253896, 1.75615835, 0.0245045591, 0.12982437⟩,
  ⟨.linear, 0.91124934, 0.963609755, 0.909965038, 1.07445884, 1.82399702⟩,
  ⟨.exponential, 0.95, 1.0, 1.15, 1.0, 1.45⟩]

/-- The profiles of a strength, with a line for each chip. -/
def profileTable : Strength → Vector (Vector Profile 5) 2
  | .average => #v[averageMos6581, averageMos8580]
  | .weak => #v[weakMos6581, weakMos8580]
  | .strong => #v[strongMos6581, strongMos8580]

end Pulldown

/-- The fitted profiles of a setup, in row order. -/
def Setup.profiles (setup : Setup) : Vector Pulldown.Profile 5 :=
  (Pulldown.profileTable setup.strength).get setup.chip.index

/-- The profile of a combination under a setup. -/
def Pulldown.fitted (setup : Setup) (combination : Combination) : Profile :=
  setup.profiles.get combination.row

theorem Setup.get_profiles (setup : Setup) (row : Fin 5) :
    setup.profiles.get row = Pulldown.fitted setup (.ofRow row) := by
  rw [Pulldown.fitted, Combination.row_ofRow]

end SidVoice
