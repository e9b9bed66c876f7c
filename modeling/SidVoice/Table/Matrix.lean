import SidVoice.Fault

/-!
# Sample matrices

A sample matrix has rows of 4096 samples, one for each phase. It is filled by a computation
that is run once for each cell, row by row and phase by phase, and that may carry state from
one cell to the next.

A cell can be read in two ways, which differ only in what they report when both the row and the
phase are wrong: `sample` looks at the phase first, `entry` at the row.
-/

namespace SidVoice

/-- The number of phases: a phase has twelve bits. -/
def phaseCount : Nat := 4096

/-- A phase of an oscillator. -/
abbrev Phase := Fin phaseCount

/-- The phase as a word of the accumulator. -/
def Phase.word (phase : Phase) : UInt16 := UInt16.ofNat phase.val

@[simp] theorem Phase.toNat_word (phase : Phase) : phase.word.toNat = phase.val := by
  have hlt : phase.val < UInt16.size :=
    Nat.lt_trans phase.isLt (by decide : phaseCount < UInt16.size)
  rw [word, UInt16.toNat_ofNat_of_lt' hlt]

/-- The samples of one waveform, by phase. -/
abbrev SampleRow := Vector Int16 phaseCount

/-- The sample at a position in a row. -/
def SampleRow.entry (samples : SampleRow) (position : Nat) : Except Fault Int16 :=
  match samples[position]? with
  | some sample => .ok sample
  | none => .error (.outOfBounds phaseCount position)

@[simp] theorem SampleRow.get_ofFn {n : Nat} (value : Fin n → Int16) (i : Fin n) :
    (Vector.ofFn value).get i = value i := by
  simp only [Vector.get, Vector.toArray_ofFn, Array.getElem_ofFn]
  rfl

theorem SampleRow.entry_of_lt (samples : SampleRow) (phase : Phase) :
    samples.entry phase.val = .ok (samples.get phase) := by
  have hget : samples[phase.val]? = some (samples.get phase) :=
    Vector.getElem?_eq_getElem phase.isLt
  rw [entry, hget]

/-- A matrix of samples, by row and phase. -/
structure SampleMatrix (rows : Nat) where
  /-- The rows, in order. -/
  toVector : Vector SampleRow rows
  deriving DecidableEq

namespace SampleMatrix

variable {rows : Nat}

/-- Fill a matrix by a computation run for each row and phase in order. -/
def fillM {m : Type → Type} [Monad m] (rows : Nat) (value : Fin rows → Phase → m Int16) :
    m (SampleMatrix rows) :=
  mk <$> Vector.ofFnM fun row : Fin rows => Vector.ofFnM fun phase : Phase => value row phase

/-- A matrix of the given rows. -/
def ofRows {rows : Nat} (samples : Fin rows → SampleRow) : SampleMatrix rows :=
  ⟨Vector.ofFn samples⟩

/-- Fill a matrix by a function of row and phase. -/
def fill (rows : Nat) (value : Fin rows → Phase → Int16) : SampleMatrix rows :=
  ofRows fun row => Vector.ofFn (value row)

/-- The row of a number inside the matrix. -/
def get (matrix : SampleMatrix rows) (row : Fin rows) : SampleRow := matrix.toVector[row]

/-- The sample of a cell inside the matrix. -/
def cell (matrix : SampleMatrix rows) (row : Fin rows) (phase : Phase) : Int16 :=
  (matrix.get row).get phase

/-- The rows in order. -/
def toList (matrix : SampleMatrix rows) : List SampleRow := matrix.toVector.toList

/-- The row of a number. -/
def row (matrix : SampleMatrix rows) (number : Nat) : Except Fault SampleRow :=
  match matrix.toVector[number]? with
  | some samples => .ok samples
  | none => .error (.outOfBounds rows number)

/-- The sample of a row and a position in it; the row is checked first. -/
def entry (matrix : SampleMatrix rows) (number position : Nat) : Except Fault Int16 := do
  SampleRow.entry (← matrix.row number) position

/-- The sample of a row at a phase; the phase is checked first. -/
def sample (matrix : SampleMatrix rows) (number : Nat) (phase : UInt16) : Except Fault Int16 :=
  if phase.toNat < phaseCount then matrix.entry number phase.toNat else .error (.widePhase phase)

/-- The description of a matrix as a value: its size without its samples. -/
def describe (_ : SampleMatrix rows) : String :=
  "WaveTable \x7b rows: " ++ toString rows ++ ", size: " ++ toString phaseCount ++ ", .. \x7d"

/-- The description over several lines, all but the first after the given indentation. -/
def describeLines (indent : String) (_ : SampleMatrix rows) : String :=
  "WaveTable \x7b\n" ++
    indent ++ "    rows: " ++ toString rows ++ ",\n" ++
    indent ++ "    size: " ++ toString phaseCount ++ ",\n" ++
    indent ++ "    ..\n" ++
    indent ++ "\x7d"

@[ext] theorem ext {a b : SampleMatrix rows}
    (h : ∀ row phase, a.cell row phase = b.cell row phase) : a = b := by
  obtain ⟨va⟩ := a
  obtain ⟨vb⟩ := b
  congr 1
  apply Vector.ext
  intro i hi
  apply Vector.ext
  intro j hj
  exact h ⟨i, hi⟩ ⟨j, hj⟩

theorem get_ofRows (samples : Fin rows → SampleRow) (row : Fin rows) :
    (ofRows samples).get row = samples row := by
  simp [ofRows, get]

@[simp] theorem cell_ofRows (samples : Fin rows → SampleRow) (row : Fin rows) (phase : Phase) :
    (ofRows samples).cell row phase = (samples row).get phase := by
  rw [cell, get_ofRows]

@[simp] theorem cell_fill (value : Fin rows → Phase → Int16) (row : Fin rows) (phase : Phase) :
    (fill rows value).cell row phase = value row phase := by
  simp [fill]

/-- A computation without effects fills a matrix with its values. -/
theorem fillM_pure {m : Type → Type} [Monad m] [LawfulMonad m] (rows : Nat)
    (value : Fin rows → Phase → Int16) :
    fillM rows (fun row phase => (pure (value row phase) : m Int16)) = pure (fill rows value) := by
  have hrow : (fun row : Fin rows => Vector.ofFnM fun phase => (pure (value row phase) : m Int16)) =
      fun row => pure (Vector.ofFn (value row)) :=
    funext fun row => Vector.ofFnM_pure
  rw [fillM, hrow, Vector.ofFnM_pure, map_pure]
  rfl

theorem row_of_lt (matrix : SampleMatrix rows) (number : Fin rows) :
    matrix.row number = .ok (matrix.get number) := by
  simp [row, get]

theorem row_of_le (matrix : SampleMatrix rows) {number : Nat} (h : rows ≤ number) :
    matrix.row number = .error (.outOfBounds rows number) := by
  simp [row, Vector.getElem?_eq_none h]

theorem entry_of_lt (matrix : SampleMatrix rows) (number : Fin rows) (phase : Phase) :
    matrix.entry number phase.val = .ok (matrix.cell number phase) := by
  rw [entry, row_of_lt]
  exact SampleRow.entry_of_lt _ phase

theorem sample_of_lt (matrix : SampleMatrix rows) (number : Fin rows) {phase : UInt16}
    (h : phase.toNat < phaseCount) :
    matrix.sample number phase = .ok (matrix.cell number ⟨phase.toNat, h⟩) := by
  rw [sample, if_pos h]
  exact matrix.entry_of_lt number ⟨phase.toNat, h⟩

theorem sample_of_wide (matrix : SampleMatrix rows) (number : Nat) {phase : UInt16}
    (h : phaseCount ≤ phase.toNat) : matrix.sample number phase = .error (.widePhase phase) := by
  rw [sample, if_neg (by omega)]

end SampleMatrix

end SidVoice
