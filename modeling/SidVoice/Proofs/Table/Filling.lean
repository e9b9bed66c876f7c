import Mathlib.Data.List.FinRange
import Mathlib.Logic.Equiv.Fin.Basic
import SidVoice.Table.Matrix
import SidVoice.Waveform

/-!
# Filling a matrix and reading it back

A matrix is filled by two nested loops, and the computation for a cell runs in the state that the
one before it has left. The cells are numbered in the order in which they are filled, row by row
and phase by phase, so a cell holds the result of the call of its number.

All ways of reading a cell inside the matrix give the sample in it. Outside, the ways differ in
what they look at first.
-/

namespace SidVoice

/-- Computations that lead from each state of a chain to the next fill a vector with their
results. -/
theorem run_ofFnM {σ α : Type} {n : Nat} (call : Fin n → StateM σ α) (states : Nat → σ)
    (result : Fin n → α)
    (h : ∀ i, (call i).run (states i.val) = (result i, states (i.val + 1))) :
    (Vector.ofFnM call).run (states 0) = (Vector.ofFn result, states n) := by
  induction n with
  | zero =>
    rw [Vector.ofFnM_zero]
    exact Prod.ext (Vector.ext fun i hi => absurd hi (Nat.not_lt_zero i)) rfl
  | succ n ih =>
    have hfirst := ih (fun i => call i.castSucc) (fun i => result i.castSucc)
      fun i => h i.castSucc
    have hlast : (call (Fin.last n)).run (states n) = (result (Fin.last n), states (n + 1)) :=
      h (Fin.last n)
    calc
      (Vector.ofFnM call).run (states 0)
        = (do
            let results ← Vector.ofFnM fun i : Fin n => call i.castSucc
            let last ← call (Fin.last n)
            pure (results.push last) : StateM σ (Vector α (n + 1))).run (states 0) := by
          rw [Vector.ofFnM_succ]
      _ = ((Vector.ofFn fun i : Fin n => result i.castSucc).push (result (Fin.last n)),
            states (n + 1)) := by
          rw [StateT.run_bind, hfirst]
          change (do
            let last ← call (Fin.last n)
            pure (_ : Vector α (n + 1)) : StateM σ (Vector α (n + 1))).run (states n) = _
          rw [StateT.run_bind, hlast]
          rfl
      _ = (Vector.ofFn result, states (n + 1)) := by
          rw [Vector.ofFn_succ]
          rfl

namespace SampleMatrix

variable {rows : Nat} {σ : Type}

/-- The cells of a matrix in the order in which they are filled. -/
def cells (rows : Nat) : List (Fin rows × Phase) :=
  (List.finRange (rows * phaseCount)).map fun number => (number.divNat, number.modNat)

/-- The number of a cell in the order in which cells are filled. -/
def cellNumber (row : Fin rows) (phase : Phase) : Nat := row.val * phaseCount + phase.val

/-- The state after so many calls. -/
def stateAfter (value : Fin rows → Phase → StateM σ Int16) (start : σ) (calls : Nat) : σ :=
  ((cells rows).take calls).foldl (fun now cell => ((value cell.1 cell.2).run now).2) start

/-- The result of the call for a cell, in the state after the calls before it. -/
def resultAt (value : Fin rows → Phase → StateM σ Int16) (start : σ) (row : Fin rows)
    (phase : Phase) : Int16 :=
  ((value row phase).run (stateAfter value start (cellNumber row phase))).1

/-- A computation that also records the cells it is called for. -/
def recording (value : Fin rows → Phase → StateM σ Int16) (row : Fin rows) (phase : Phase) :
    StateM (σ × List (Fin rows × Phase)) Int16 := fun now =>
  let (sample, next) := (value row phase).run now.1
  (sample, next, now.2 ++ [(row, phase)])

theorem length_cells (rows : Nat) : (cells rows).length = rows * phaseCount := by
  simp [cells]

/-- A cell is called for under its number. -/
theorem getElem?_cells (row : Fin rows) (phase : Phase) :
    (cells rows)[cellNumber row phase]? = some (row, phase) := by
  let number := finProdFinEquiv (row, phase)
  have hnumber : number.val = cellNumber row phase := by
    rw [finProdFinEquiv_apply_val, cellNumber, Nat.mul_comm, Nat.add_comm]
  have hcell : (number.divNat, number.modNat) = (row, phase) :=
    finProdFinEquiv.symm_apply_apply (row, phase)
  rw [← hnumber, cells, List.getElem?_map, List.getElem?_eq_getElem (by simp),
    List.getElem_finRange, Option.map_some]
  exact congrArg some hcell

/-- The call for a cell leads from the state of its number to the next one. -/
theorem run_value (value : Fin rows → Phase → StateM σ Int16) (start : σ) (row : Fin rows)
    (phase : Phase) :
    (value row phase).run (stateAfter value start (cellNumber row phase)) =
      (resultAt value start row phase, stateAfter value start (cellNumber row phase + 1)) := by
  refine Prod.ext rfl ?_
  simp only [stateAfter, List.take_add_one, getElem?_cells, Option.toList_some,
    List.foldl_append, List.foldl_cons, List.foldl_nil]

/-- Filling calls the computation once for each cell, in order, and keeps the results. -/
theorem run_fillM (value : Fin rows → Phase → StateM σ Int16) (start : σ) :
    (fillM rows value).run start =
      (fill rows (resultAt value start), stateAfter value start (rows * phaseCount)) := by
  have hrow (row : Fin rows) :
      (Vector.ofFnM fun phase : Phase => value row phase).run
          (stateAfter value start (row.val * phaseCount)) =
        (Vector.ofFn (resultAt value start row),
          stateAfter value start ((row.val + 1) * phaseCount)) := by
    rw [Nat.succ_mul]
    have hphase (phase : Phase) :
        (value row phase).run (stateAfter value start (row.val * phaseCount + phase.val)) =
          (resultAt value start row phase,
            stateAfter value start (row.val * phaseCount + (phase.val + 1))) := by
      have hnext : row.val * phaseCount + (phase.val + 1) = cellNumber row phase + 1 :=
        (Nat.add_assoc _ _ _).symm
      rw [hnext]
      exact run_value value start row phase
    have hvector := run_ofFnM (fun phase : Phase => value row phase)
      (fun calls => stateAfter value start (row.val * phaseCount + calls)) _ hphase
    simp only [Nat.add_zero] at hvector
    exact hvector
  have hrows := run_ofFnM _ (fun calls => stateAfter value start (calls * phaseCount)) _ hrow
  have hstart : stateAfter value start (0 * phaseCount) = start := by
    rw [Nat.zero_mul]
    rfl
  simp only [hstart] at hrows
  rw [fillM, StateT.run_map, hrows]
  rfl

/-- Recording adds the cells to the state, in the order of the calls. -/
theorem stateAfter_recording (value : Fin rows → Phase → StateM σ Int16) (start : σ)
    (calls : Nat) :
    stateAfter (recording value) (start, []) calls =
      (stateAfter value start calls, (cells rows).take calls) := by
  have hfold (called : List (Fin rows × Phase)) (now : σ) (before : List (Fin rows × Phase)) :
      called.foldl (fun now cell => ((recording value cell.1 cell.2).run now).2) (now, before) =
        (called.foldl (fun now cell => ((value cell.1 cell.2).run now).2) now,
          before ++ called) := by
    induction called generalizing now before with
    | nil => simp
    | cons cell rest ih =>
      rw [List.foldl_cons, List.foldl_cons, List.append_cons]
      exact ih _ _
  exact hfold _ start []

/-- Recording changes neither the samples nor the state, and records every cell once. -/
theorem run_fillM_recording (value : Fin rows → Phase → StateM σ Int16) (start : σ) :
    (fillM rows (recording value)).run (start, []) =
      (((fillM rows value).run start).1, ((fillM rows value).run start).2, cells rows) := by
  have hresult : resultAt (recording value) (start, []) = resultAt value start := by
    funext row phase
    rw [resultAt, stateAfter_recording]
    rfl
  have hall : (cells rows).take (rows * phaseCount) = cells rows :=
    List.take_of_length_le (length_cells rows).le
  rw [run_fillM, run_fillM, hresult, stateAfter_recording, hall]

/-- Whether every way of reading a cell gives a sample. -/
structure ReadsAs (matrix : SampleMatrix rows) (row : Fin rows) (phase : Phase)
    (sample : Int16) : Prop where
  /-- The row of the number has the sample at the phase. -/
  of_row : ∃ samples, matrix.row row = .ok samples ∧ samples.entry phase = .ok sample
  /-- So has the row of that position in the list of all rows. -/
  of_item : ∃ samples, matrix.toList[row.val]? = some samples ∧ samples.entry phase = .ok sample
  /-- Reading row first. -/
  of_entry : matrix.entry row phase = .ok sample
  /-- Reading phase first. -/
  of_sample : matrix.sample row phase.word = .ok sample

/-- Every way of reading a cell gives the sample in it. -/
theorem readsAs_cell (matrix : SampleMatrix rows) (row : Fin rows) (phase : Phase) :
    matrix.ReadsAs row phase (matrix.cell row phase) where
  of_row := ⟨matrix.get row, matrix.row_of_lt row, SampleRow.entry_of_lt _ phase⟩
  of_item := by
    refine ⟨matrix.get row, ?_, SampleRow.entry_of_lt _ phase⟩
    rw [toList, Vector.getElem?_toList]
    exact Vector.getElem?_eq_getElem row.isLt
  of_entry := matrix.entry_of_lt row phase
  of_sample := by
    have hphase : phase.word.toNat < phaseCount := by
      rw [Phase.toNat_word]
      exact phase.isLt
    have hsame : (⟨phase.word.toNat, hphase⟩ : Phase) = phase := Fin.ext phase.toNat_word
    rw [sample_of_lt _ _ hphase, hsame]

/-- A row outside the matrix is reported, whatever the position in it. -/
theorem entry_of_le (matrix : SampleMatrix rows) {number : Nat} (h : rows ≤ number)
    (position : Nat) : matrix.entry number position = .error (.outOfBounds rows number) := by
  rw [entry, matrix.row_of_le h]
  rfl

/-- A position outside a row is reported by its row. -/
theorem entry_of_long (matrix : SampleMatrix rows) (row : Fin rows) {position : Nat}
    (h : phaseCount ≤ position) :
    matrix.entry row position = .error (.outOfBounds phaseCount position) := by
  rw [entry, row_of_lt]
  change SampleRow.entry _ position = _
  rw [SampleRow.entry, Vector.getElem?_eq_none h]

/-- A matrix filled with the samples read from another one is the same matrix. -/
theorem fillM_sample (matrix : SampleMatrix rows) :
    (fillM rows fun row phase => matrix.sample row phase.word : Except Fault (SampleMatrix rows)) =
      .ok matrix := by
  have hsample : (fun (row : Fin rows) (phase : Phase) => matrix.sample row phase.word) =
      fun row phase => (pure (matrix.cell row phase) : Except Fault Int16) := by
    funext row phase
    exact (matrix.readsAs_cell row phase).of_sample
  have hcells : fill rows matrix.cell = matrix := by
    ext row phase
    rw [cell_fill]
  rw [hsample, fillM_pure, hcells]
  rfl

/-- Filling runs the computation once for each cell, row by row and phase by phase; the result of
a call is what every way of reading its cell gives; outside the matrix reading faults, by the
phase first or by the row first; and a matrix is made of nothing but its cells. -/
theorem readsAs_filled (rows : Nat) {σ : Type} (value : Fin rows → Phase → StateM σ Int16)
    (start : σ) :
    let filled := (fillM rows value).run start
    ((fillM rows (recording value)).run (start, []) = (filled.1, filled.2, cells rows) ∧
      (cells rows).length = rows * phaseCount ∧
      filled.2 = stateAfter value start (rows * phaseCount) ∧
      ∀ row phase, (cells rows)[row.val * phaseCount + phase.val]? = some (row, phase) ∧
        (value row phase).run (stateAfter value start (row.val * phaseCount + phase.val)) =
          (filled.1.cell row phase,
            stateAfter value start (row.val * phaseCount + phase.val + 1))) ∧
    (∀ row phase, filled.1.ReadsAs row phase (filled.1.cell row phase)) ∧
    (∀ (basic : SampleMatrix 4) (wave : BasicWave) (phase : Phase),
      basic.entry wave.row phase = .ok (basic.cell wave.row phase)) ∧
    (∀ (combined : SampleMatrix 5) (combination : Combination) (phase : Phase),
      combined.entry combination.row phase = .ok (combined.cell combination.row phase)) ∧
    (∀ (matrix : SampleMatrix rows) (number position : Nat) (phase : UInt16),
      (phaseCount ≤ phase.toNat → matrix.sample number phase = .error (.widePhase phase)) ∧
      (phase.toNat < phaseCount → rows ≤ number →
        matrix.sample number phase = .error (.outOfBounds rows number)) ∧
      (rows ≤ number → matrix.row number = .error (.outOfBounds rows number) ∧
        matrix.entry number position = .error (.outOfBounds rows number)) ∧
      (number < rows → phaseCount ≤ position →
        matrix.entry number position = .error (.outOfBounds phaseCount position))) ∧
    (∀ a b : SampleMatrix rows,
      ((a == b) = true ↔ ∀ row phase, a.cell row phase = b.cell row phase) ∧
      (fillM rows fun row phase => a.sample row phase.word : Except Fault (SampleMatrix rows)) =
        .ok a) := by
  intro filled
  refine ⟨⟨run_fillM_recording value start, length_cells rows, ?_, ?_⟩, filled.1.readsAs_cell,
    fun basic wave => basic.entry_of_lt wave.row,
    fun combined combination => combined.entry_of_lt combination.row, ?_, ?_⟩
  · exact congrArg Prod.snd (run_fillM value start)
  · intro row phase
    have hcell : filled.1.cell row phase = resultAt value start row phase := by
      rw [congrArg Prod.fst (run_fillM value start), cell_fill]
    rw [hcell]
    exact ⟨getElem?_cells row phase, run_value value start row phase⟩
  · intro matrix number position phase
    refine ⟨matrix.sample_of_wide number, ?_, ?_, ?_⟩
    · intro hphase hrow
      rw [sample, if_pos hphase, matrix.entry_of_le hrow]
    · intro hrow
      exact ⟨matrix.row_of_le hrow, matrix.entry_of_le hrow position⟩
    · intro hrow hposition
      exact matrix.entry_of_long ⟨number, hrow⟩ hposition
  · intro a b
    refine ⟨?_, a.fillM_sample⟩
    rw [beq_iff_eq]
    exact ⟨fun h row phase => h ▸ rfl, ext⟩

/-- Two rows filled by a counter take 8192 calls; the cell of row 1 and phase 3 is the call of
number 4099; and outside the rows the two orders of checks report different faults. -/
theorem readsAs_filled_counter :
    let value (_ : Fin 2) (_ : Phase) : StateM Nat Int16 := fun calls =>
      (Int16.ofNat calls, calls + 1)
    let filled := (fillM 2 value).run 0
    ((fillM 2 (recording value)).run (0, [])).2.2.length = 8192 ∧
      (cells 2)[4099]? = some (1, ⟨3, by decide⟩) ∧
      filled.1.sample 9 0x1000 = .error (.widePhase 0x1000) ∧
      filled.1.sample 9 0xfff = .error (.outOfBounds 2 9) ∧
      filled.1.entry 9 5000 = .error (.outOfBounds 2 9) ∧
      filled.1.entry 1 5000 = .error (.outOfBounds 4096 5000) := by
  intro value filled
  obtain ⟨⟨hcalls, hlength, -, hcell⟩, -, -, -, hfaults, -⟩ := readsAs_filled 2 value 0
  obtain ⟨hwide, -, -, -⟩ := hfaults filled.1 9 5000 0x1000
  obtain ⟨-, hrow, hentry, -⟩ := hfaults filled.1 9 5000 0xfff
  obtain ⟨-, -, -, hlong⟩ := hfaults filled.1 1 5000 0xfff
  refine ⟨?_, (hcell 1 ⟨3, by decide⟩).1, hwide (by decide), hrow (by decide) (by decide),
    (hentry (by decide)).2, hlong (by decide) (by decide)⟩
  rw [hcalls, hlength]
  decide

end SampleMatrix

end SidVoice
