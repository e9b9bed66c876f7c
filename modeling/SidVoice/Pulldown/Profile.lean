import SidVoice.Pulldown.Decay

/-!
# Profiles and their weights

A profile holds the fitted parameters of one combination of waveforms. Its weight table lists
the influence of a line on another by their offset: entry twelve is a line's influence on
itself, the entries below it are those of higher lines, and the entries above it those of
lower lines.
-/

namespace SidVoice.Pulldown

/-- The fitted parameters of one combination of waveforms. -/
structure Profile where
  /-- The curve along which influence decays. -/
  curve : DecayCurve
  /-- What a line must exceed after pulldown to read as one. -/
  threshold : Float32
  /-- The factor on the level of the top line. -/
  topBit : Float32
  /-- What the pulse takes off the pull on each line. -/
  pulse : Float32
  /-- The distance parameter for the influence of higher lines. -/
  higher : Float32
  /-- The distance parameter for the influence of lower lines. -/
  lower : Float32
  deriving BEq, Inhabited

/-- The weights of the offsets from minus twelve to twelve, the middle entry being offset zero. -/
abbrev WeightTable := Vector Float32 25

namespace Profile

/-- The weight of one entry: the further from the middle, the greater the offset. -/
def weightEntry (profile : Profile) (entry : Fin 25) : Float32 :=
  if entry.val < 12 then profile.curve.weight profile.higher (Int32.ofNat (12 - entry.val))
  else if entry.val = 12 then 1
  else profile.curve.weight profile.lower (Int32.ofNat (entry.val - 12))

/-- The weights of a profile. -/
def weights (profile : Profile) : WeightTable := Vector.ofFn profile.weightEntry

theorem getElem_weights (profile : Profile) (entry : Fin 25) :
    profile.weights[entry] = profile.weightEntry entry := by
  simp [weights]

/-- The offsets of a weight table have no fault on any curve. -/
theorem fault?_offset (curve : DecayCurve) (k : Fin 13) :
    curve.fault? (Int32.ofNat k.val) = none := by
  revert k
  cases curve <;> decide

/-- The checked weight at an offset of a weight table is the unchecked one. -/
theorem weight?_offset (curve : DecayCurve) (distance : Float32) (k : Fin 13) :
    curve.weight? distance (Int32.ofNat k.val) =
      .ok (curve.weight distance (Int32.ofNat k.val)) :=
  DecayCurve.weight?_eq_ok (fault?_offset curve k)

end Profile

end SidVoice.Pulldown
