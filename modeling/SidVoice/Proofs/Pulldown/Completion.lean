import SidVoice.Proofs.Pulldown.Checked
import SidVoice.Proofs.Pulldown.Formula

/-!
# Making a table never fails

A table is made here as a machine makes it: one checked step after the other, with the sums of a
line taken along with each other, and with each bit put into the sample when its line has been
looked at. What is made so is the table itself, so it has all its entries, and no number changes on
the way.

A weight has no value at one offset of the exponential curve, the least one, and at those offsets
of the quadratic curve whose squares are too great. The offsets between two lines are far from
both. The parameters only enter single-precision operations, and those have a result for infinities
and for what is no number too.
-/

namespace SidVoice

open Checked

namespace Pulldown

section Weights

/-- The weight at an offset. -/
def offsetWeight (curve : DecayCurve) (distance : Float32) (offset : Nat) :
    Except Mishap Float32 := do
  (curve.weight? distance (← offsetOf offset)).mapError Mishap.fault

theorem fits_neg_iff {offset : Int32} :
    fits (-offset.toInt) = false ↔ offset.toInt = -0x80000000 := by
  have hlower : -2 ^ 31 ≤ offset.toInt := offset.le_toInt
  have hupper : offset.toInt < 2 ^ 31 := offset.toInt_lt
  rw [fits, Bool.and_eq_false_iff, decide_eq_false_iff_not, decide_eq_false_iff_not]
  omega

/-- The squares that fit into 32 bits are those of the numbers up to 46340. -/
theorem fits_square_iff {offset : Int32} :
    fits (offset.toInt * offset.toInt) = false ↔ 46341 ≤ offset.toInt.natAbs := by
  have hsquare : offset.toInt * offset.toInt = (offset.toInt.natAbs * offset.toInt.natAbs : ℕ) :=
    Int.natAbs_mul_self.symm
  rw [hsquare, fits, Bool.and_eq_false_iff, decide_eq_false_iff_not, decide_eq_false_iff_not]
  generalize offset.toInt.natAbs = size
  constructor
  · intro h
    by_contra hsmall
    have hle : size * size ≤ 46340 * 46340 := Nat.mul_self_le_mul_self (by omega)
    omega
  · intro h
    have hle : 46341 * 46341 ≤ size * size := Nat.mul_self_le_mul_self h
    omega

/-- An offset has no weight exactly if it cannot be negated or squared. -/
theorem weight?_eq_error_iff {curve : DecayCurve} {distance : Float32} {offset : Int32}
    {fault : Fault} :
    curve.weight? distance offset = .error fault ↔
      curve = .exponential ∧ offset.toInt = -0x80000000 ∧ fault = .negateOverflow ∨
      curve = .quadratic ∧ 46341 ≤ offset.toInt.natAbs ∧ fault = .multiplyOverflow := by
  have hfault : curve.weight? distance offset = .error fault ↔
      curve.fault? offset = some fault := by
    rw [DecayCurve.weight?]
    cases curve.fault? offset <;> simp
  rw [hfault, ← fits_neg_iff, ← fits_square_iff]
  cases curve with
  | exponential =>
    cases hfits : fits (-offset.toInt) with
    | false => simpa [DecayCurve.fault?, hfits] using eq_comm
    | true => simp [DecayCurve.fault?, hfits]
  | linear => simp [DecayCurve.fault?]
  | quadratic =>
    cases hfits : fits (offset.toInt * offset.toInt) with
    | false => simpa [DecayCurve.fault?, hfits] using eq_comm
    | true => simp [DecayCurve.fault?, hfits]

example : DecayCurve.quadratic.weight? 1 46341 = .error .multiplyOverflow := rfl

theorem offsetWeight_of_le (curve : DecayCurve) (distance : Float32) {offset : Nat}
    (h : offset ≤ 12) :
    offsetWeight curve distance offset = .ok (curve.weight distance (Int32.ofNat offset)) := by
  have hweight := Profile.weight?_offset curve distance ⟨offset, Nat.lt_succ_of_le h⟩
  rw [offsetWeight, offsetOf_of_le h, ok_bind, hweight]
  rfl

namespace Profile

/-- Write the weights at an offset on both sides of the middle. -/
def writeOffset (profile : Profile) (draft : Draft Float32 25) (offset : Nat) :
    Except Mishap (Draft Float32 25) := do
  let higher ← offsetWeight profile.curve profile.higher offset
  let draft ← store draft (← minus 12 offset) (some higher)
  let lower ← offsetWeight profile.curve profile.lower offset
  store draft (← plus 12 offset) (some lower)

/-- The weights of a profile: the middle first, and then outwards. -/
def weights? (profile : Profile) : Except Mishap WeightTable := do
  let draft ← store Draft.empty 12 (some 1)
  let draft ← (List.range' 1 12).foldlM profile.writeOffset draft
  Draft.finish draft

/-- How far an entry is from the middle. -/
def fromMiddle (i : Fin 25) : Nat := (12 - i.val) + (i.val - 12)

/-- Whether the weights at some offsets are left to be written. -/
structure Widening (profile : Profile) (left : List Nat) (draft : Draft Float32 25) : Prop where
  /-- The entries at an offset that is left are in the table, and not in the middle. -/
  near : ∀ offset ∈ left, 1 ≤ offset ∧ offset ≤ 12
  /-- The other entries have been written. -/
  written : draft.Written profile.weightEntry fun i => fromMiddle i ∈ left

section Widening

variable (profile : Profile)

theorem weightEntry_before {offset : Nat} (hpos : 1 ≤ offset) (hle : offset ≤ 12) :
    profile.weightEntry ⟨12 - offset, by omega⟩ =
      profile.curve.weight profile.higher (Int32.ofNat offset) := by
  have hlow : 12 - offset < 12 := by omega
  have hoffset : 12 - (12 - offset) = offset := by omega
  rw [weightEntry, if_pos hlow, hoffset]

theorem weightEntry_behind {offset : Nat} (hpos : 1 ≤ offset) (hle : offset ≤ 12) :
    profile.weightEntry ⟨12 + offset, by omega⟩ =
      profile.curve.weight profile.lower (Int32.ofNat offset) := by
  have hnotLow : ¬ 12 + offset < 12 := by omega
  have hnotMiddle : ¬ 12 + offset = 12 := by omega
  have hoffset : 12 + offset - 12 = offset := by omega
  rw [weightEntry, if_neg hnotLow, if_neg hnotMiddle, hoffset]

/-- When the middle has been written, all offsets are left. -/
theorem widening_middle : ∃ draft, store Draft.empty 12 (some 1) = .ok draft ∧
    profile.Widening (List.range' 1 12) draft := by
  have hblank : (Draft.empty : Draft Float32 25).Written profile.weightEntry fun _ => True :=
    Draft.written_empty
  obtain ⟨draft, hdraft, hwritten⟩ := hblank.store 12
  refine ⟨draft, hdraft, fun offset hmem => ?_, hwritten.mono fun i hi => ?_⟩
  · rw [List.mem_range'_1] at hmem
    omega
  · have hne : i.val ≠ 12 := fun heq => hi.2 (Fin.ext heq)
    rw [List.mem_range'_1, fromMiddle]
    omega

variable {profile}

/-- The weights at an offset are written on both sides of the middle. -/
theorem Widening.writeOffset {offset : Nat} {rest : List Nat} {draft : Draft Float32 25}
    (h : profile.Widening (offset :: rest) draft) :
    ∃ next, profile.writeOffset draft offset = .ok next ∧ profile.Widening rest next := by
  obtain ⟨hpos, hle⟩ := h.near offset List.mem_cons_self
  obtain ⟨draft', hbefore, hwritten'⟩ := h.written.store ⟨12 - offset, by omega⟩
  obtain ⟨next, hbehind, hwritten⟩ := hwritten'.store ⟨12 + offset, by omega⟩
  rw [profile.weightEntry_before hpos hle] at hbefore
  rw [profile.weightEntry_behind hpos hle] at hbehind
  refine ⟨next, ?_, fun other hmem => h.near other (List.mem_cons_of_mem _ hmem),
    hwritten.mono fun i hi => ?_⟩
  · rw [Profile.writeOffset, offsetWeight_of_le _ _ hle, ok_bind, minus_of_le hle, ok_bind, hbefore,
      ok_bind, offsetWeight_of_le _ _ hle, ok_bind, plus_of_lt (by omega), ok_bind, hbehind]
  · -- an entry that is neither of the two is at another offset
    obtain ⟨⟨hmem, hnotBefore⟩, hnotBehind⟩ := hi
    apply List.mem_of_ne_of_mem _ hmem
    intro heq
    rw [fromMiddle] at heq
    by_cases hside : i.val ≤ 12
    · have hbefore : i.val = 12 - offset := by omega
      exact hnotBefore (Fin.ext hbefore)
    · have hbehind : i.val = 12 + offset := by omega
      exact hnotBehind (Fin.ext hbehind)

/-- All entries of a weight table are written, each with its weight. -/
theorem weights?_eq_ok (profile : Profile) : profile.weights? = .ok profile.weights := by
  obtain ⟨first, hfirst, hstart⟩ := profile.widening_middle
  obtain ⟨last, hlast, hdone⟩ :=
    exists_foldlM_eq_ok profile.Widening (fun _ _ _ hleft => hleft.writeOffset) hstart
  rw [weights?, hfirst, ok_bind, hlast, ok_bind]
  exact hdone.written.finish_eq_ok fun i => List.not_mem_nil

end Widening

end Profile

end Weights

section Samples

/-- The level of a line before the factor. -/
def bitLevel (phase : UInt16) (line : Line) : Float32 :=
  if phase.toNat.testBit line.val then 1 else 0

/-- The level of a line before the factor, by the mask of the line. -/
def bitLevel? (phase : UInt16) (line : Line) : Except Mishap Float32 := do
  return if phase &&& (← maskOf line.val) = 0 then 0 else 1

/-- The levels of all lines: those of the bits, and then the factor on the top one. -/
def levels? (topBit : Float32) (phase : UInt16) : Except Mishap (Vector Float32 12) := do
  let bits ← Draft.fill (bitLevel? phase)
  store bits 11 ((← fetch bits 11) * topBit)

/-- Add what another line lacks, and its weight, to the sums of a line. -/
def addOther (weights : WeightTable) (levels : Vector Float32 12) (line : Line)
    (sums : Float32 × Float32) (other : Line) : Except Mishap (Float32 × Float32) :=
  if other = line then return sums
  else do
    let weight ← fetch weights (← minus (← plus line.val 12) other.val)
    let level ← fetch levels other.val
    return (sums.1 + (1 - level) * weight, sums.2 + weight)

/-- The average pull on a line, less the pulse. -/
def pulldown? (weights : WeightTable) (pulse : Float32) (levels : Vector Float32 12)
    (line : Line) : Except Mishap Float32 := do
  let sums ← (List.finRange 12).foldlM (addOther weights levels line) (0, 0)
  return (sums.1 - pulse) / sums.2

/-- Put the bit of a line into a sample, if enough is left of the line. -/
def addLine (threshold : Float32) (levels pulldowns : Vector Float32 12) (value : Int16)
    (line : Line) : Except Mishap Int16 := do
  let level ← fetch levels line.val
  let pulldown ← fetch pulldowns line.val
  let left := if level > 0 then 1 - pulldown else 0
  if left > threshold then return value ||| (← bitOf line.val) else return value

/-- The sample of a phase. -/
def sample? (weights : WeightTable) (topBit pulse threshold : Float32) (phase : UInt16) :
    Except Mishap Int16 := do
  let levels ← levels? topBit phase
  let pulldowns ← Draft.fill (pulldown? weights pulse levels)
  (List.finRange 12).foldlM (addLine threshold levels pulldowns) 0

variable {weights : WeightTable} {levels : Line → Float32} {pulse threshold : Float32}
  {line : Line}

/-- The mask of a line tells whether a phase has the bit of it. -/
theorem and_mask_eq_zero_iff (phase : UInt16) (line : Line) :
    phase &&& 1 <<< UInt16.ofNat line.val = 0 ↔ phase.toNat.testBit line.val = false := by
  have hmask : (1 <<< UInt16.ofNat line.val : UInt16).toNat = 2 ^ line.val := by
    revert line
    decide
  exact and_eq_zero_iff hmask

theorem bitLevel?_eq_ok (phase : UInt16) (line : Line) :
    bitLevel? phase line = .ok (bitLevel phase line) := by
  rw [bitLevel?, maskOf_line, ok_bind, bitLevel]
  simp only [and_mask_eq_zero_iff]
  cases phase.toNat.testBit line.val <;> rfl

/-- The factor goes on the top line, and on no other one. -/
theorem setIfInBounds_bitLevel (topBit : Float32) (phase : UInt16) :
    (Vector.ofFn (bitLevel phase)).setIfInBounds 11 (bitLevel phase 11 * topBit) =
      Vector.ofFn (level topBit phase) := by
  apply Vector.ext
  intro i hi
  rw [Vector.getElem_setIfInBounds hi, Vector.getElem_ofFn, Vector.getElem_ofFn, level]
  by_cases htop : 11 = i
  · subst htop
    rfl
  · rw [if_neg htop, if_neg fun heq => htop (congrArg Fin.val heq).symm, bitLevel]

theorem levels?_eq_ok (topBit : Float32) (phase : UInt16) :
    levels? topBit phase = .ok (Vector.ofFn (level topBit phase)) := by
  have htop : fetch (Vector.ofFn (bitLevel phase)) 11 = .ok (bitLevel phase 11) :=
    fetch_ofFn (bitLevel phase) 11
  rw [levels?, Draft.fill_eq_ok (bitLevel?_eq_ok phase), ok_bind, htop, ok_bind,
    store_of_lt (by decide), setIfInBounds_bitLevel]

/-- Another line adds its terms to the sums of a line. -/
theorem addOther_eq_ok (sums : Float32 × Float32) (other : Line) :
    addOther weights (Vector.ofFn levels) line sums other =
      .ok (if other = line then sums
        else (sums.1 + (1 - levels other) * weights.between line other,
          sums.2 + weights.between line other)) := by
  have hentry : line.val + 12 - other.val < 25 := by omega
  have hweight : fetch weights (line.val + 12 - other.val) = .ok (weights.between line other) :=
    fetch_get weights ⟨line.val + 12 - other.val, hentry⟩
  rw [addOther]
  split
  · rfl
  · rw [plus_of_lt (by omega), ok_bind, minus_of_le (by omega), ok_bind, hweight, ok_bind,
      fetch_ofFn, ok_bind]
    rfl

/-- Sums that are taken along with each other are the same sums. -/
theorem foldl_sums (line : Line) (first second : Line → Float32) (lines : List Line)
    (a b : Float32) :
    lines.foldl (fun sums other => if other = line then sums
        else (sums.1 + first other, sums.2 + second other)) (a, b) =
      (lines.foldl (fun sum other => if other = line then sum else sum + first other) a,
        lines.foldl (fun sum other => if other = line then sum else sum + second other) b) := by
  induction lines generalizing a b with
  | nil => rfl
  | cons other rest ih =>
    by_cases h : other = line
    · simp only [List.foldl_cons, if_pos h, ih]
    · simp only [List.foldl_cons, if_neg h, ih]

theorem pulldown?_eq_ok (weights : WeightTable) (pulse : Float32) (levels : Line → Float32)
    (line : Line) :
    pulldown? weights pulse (Vector.ofFn levels) line =
      .ok (pulldown weights pulse levels line) := by
  rw [pulldown?, foldlM_eq_ok addOther_eq_ok, ok_bind,
    foldl_sums line (fun other => (1 - levels other) * weights.between line other)
      (weights.between line)]
  rw [pulldown, pull, influence,
    foldl_others line fun other => (1 - levels other) * weights.between line other,
    foldl_others line (weights.between line)]
  rfl

/-- A line adds its bit to a sample if it reads as one. -/
theorem addLine_eq_ok (value : Int16) (line : Line) :
    addLine threshold (Vector.ofFn levels) (Vector.ofFn (pulldown weights pulse levels)) value
        line =
      .ok (if reads weights pulse threshold levels line
        then value ||| 1 <<< Int16.ofNat line.val else value) := by
  have hreads : reads weights pulse threshold levels line = true ↔
      (if levels line > 0 then 1 - pulldown weights pulse levels line else 0) > threshold := by
    rw [reads, remaining, decide_eq_true_iff]
  rw [addLine, fetch_ofFn, ok_bind, fetch_ofFn, ok_bind, bitOf_line]
  by_cases h : reads weights pulse threshold levels line = true
  · rw [if_pos h]
    exact if_pos (hreads.mp h)
  · rw [if_neg h]
    exact if_neg (mt hreads.mpr h)

/-- A sample that gathers the bits of its lines is the word that does. -/
theorem toInt16_foldl_packBit (bits : Line → Bool) (lines : List Line) (word : UInt16) :
    lines.foldl (fun value line =>
        if bits line then value ||| 1 <<< Int16.ofNat line.val else value) word.toInt16 =
      (lines.foldl (packBit bits) word).toInt16 := by
  have hline : ∀ line : Line,
      (1 <<< UInt16.ofNat line.val : UInt16).toInt16 = 1 <<< Int16.ofNat line.val := by decide
  induction lines generalizing word with
  | nil => rfl
  | cons line rest ih =>
    rw [List.foldl_cons, List.foldl_cons, packBit]
    by_cases h : bits line
    · rw [if_pos h, if_pos h, ← hline, ← UInt16.toInt16_or, ih]
    · rw [if_neg h, if_neg h, ih]

theorem sample?_eq_ok (weights : WeightTable) (topBit pulse threshold : Float32) (phase : UInt16) :
    sample? weights topBit pulse threshold phase =
      .ok (sample weights topBit pulse threshold phase) := by
  rw [sample?, levels?_eq_ok, ok_bind,
    Draft.fill_eq_ok (pulldown?_eq_ok weights pulse (level topBit phase)), ok_bind,
    foldlM_eq_ok addLine_eq_ok]
  exact congrArg Except.ok (toInt16_foldl_packBit _ (List.finRange 12) 0)

end Samples

end Pulldown

open Pulldown

section Rows

/-- The samples of all phases under a profile. -/
def pulldownRow? (profile : Profile) : Except Mishap SampleRow := do
  let weights ← profile.weights?
  Draft.fill fun phase : Phase => do
    sample? weights profile.topBit profile.pulse profile.threshold (← wordOf phase.val)

/-- The sample of a row at a phase. -/
def rowSample? (rows : Vector SampleRow 5) (row : Fin 5) (phase : Phase) :
    Except Mishap Int16 := do
  let word ← wordOf phase.val
  fetch (← fetch rows row.val) word.toNat

/-- The table of five profiles: their rows, and then a copy of each sample. -/
def combinedTable? (profiles : Vector Profile 5) : Except Mishap CombinedTable := do
  let rows ← profiles.mapM pulldownRow?
  return ⟨← Draft.fill fun row => Draft.fill (rowSample? rows row)⟩

theorem pulldownRow?_eq_ok (profile : Profile) :
    pulldownRow? profile = .ok (pulldownRow profile) := by
  rw [pulldownRow?, Profile.weights?_eq_ok, ok_bind]
  apply Draft.fill_eq_ok
  intro phase
  rw [wordOf_phase, ok_bind, sample?_eq_ok]

/-- A cell of the table is the sample of its row. -/
theorem rowSample?_eq_ok (profiles : Vector Profile 5) (row : Fin 5) (phase : Phase) :
    rowSample? (profiles.map pulldownRow) row phase =
      .ok ((combinedTable profiles).cell row phase) := by
  have hrow : (profiles.map pulldownRow).get row = (combinedTable profiles).get row := by
    rw [get_combinedTable]
    exact Vector.getElem_map pulldownRow row.isLt
  rw [rowSample?, wordOf_phase, ok_bind, fetch_get, ok_bind, Phase.toNat_word, fetch_get, hrow]
  rfl

theorem combinedTable?_eq_ok (profiles : Vector Profile 5) :
    combinedTable? profiles = .ok (combinedTable profiles) := by
  have hrows : profiles.mapM pulldownRow? = .ok (profiles.map pulldownRow) := by
    have hpure : pulldownRow? = fun profile => pure (pulldownRow profile) :=
      funext pulldownRow?_eq_ok
    rw [hpure]
    exact Vector.mapM_pure pulldownRow
  have hfill : SampleMatrix.fill 5 (combinedTable profiles).cell = combinedTable profiles :=
    SampleMatrix.ext (SampleMatrix.cell_fill _)
  rw [combinedTable?, hrows, ok_bind,
    Draft.fill_eq_ok fun row => Draft.fill_eq_ok (rowSample?_eq_ok profiles row), ok_bind]
  exact congrArg Except.ok hfill

end Rows

/-- An offset has no weight exactly if it is the least one of the exponential curve, or if the
quadratic curve would square a number above 46340. A sample can be made from any weights, whatever
the parameters and the phase word, and so can the weights and the row of any profile and the table
of any five profiles: all their entries are written. A phase keeps its number as a word, and a
sample, which has twelve bits, keeps its number as a word too. -/
theorem combinedTable_completes :
    (∀ (curve : DecayCurve) (distance : Float32) (offset : Int32) (fault : Fault),
      curve.weight? distance offset = .error fault ↔
        curve = .exponential ∧ offset.toInt = -0x80000000 ∧ fault = .negateOverflow ∨
        curve = .quadratic ∧ 46341 ≤ offset.toInt.natAbs ∧ fault = .multiplyOverflow) ∧
    (∀ (weights : WeightTable) (topBit pulse threshold : Float32) (phase : UInt16),
      sample? weights topBit pulse threshold phase =
        .ok (sample weights topBit pulse threshold phase)) ∧
    (∀ profile : Profile, profile.weights? = .ok profile.weights ∧
      pulldownRow? profile = .ok (pulldownRow profile) ∧
      ∀ phase : Phase, phase.word.toNat = phase.val ∧
        let found := (pulldownRow profile).get phase
        found.toInt = found.toUInt16.toNat ∧ found.toUInt16.toNat < 0x1000) ∧
    ∀ profiles : Vector Profile 5, combinedTable? profiles = .ok (combinedTable profiles) := by
  refine ⟨fun _ _ _ _ => weight?_eq_error_iff, sample?_eq_ok, fun profile => ?_,
    combinedTable?_eq_ok⟩
  refine ⟨profile.weights?_eq_ok, pulldownRow?_eq_ok profile, fun phase => ?_⟩
  refine ⟨Phase.toNat_word phase, ?_⟩
  rw [get_pulldownRow]
  exact ⟨toInt_sample _ _ _ _ _, toNat_sample_lt _ _ _ _ _⟩

end SidVoice
