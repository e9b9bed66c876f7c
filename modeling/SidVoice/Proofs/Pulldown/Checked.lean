import SidVoice.Pulldown.Sample
import SidVoice.Table.Matrix

/-!
# Steps with checks

A table is made in arrays, at positions that are worked out from the numbers of lines, offsets and
phases. Here are the steps of that with a check in each: a difference is not below zero, a number
is within its range, a position is inside its array. An array starts out blank, and it is not
finished as long as an entry of it is blank. The first failure ends everything.

Positions are counted in sixteen bits, the least that a machine has for them.
-/

namespace SidVoice

/-- What can go wrong while a table is made. -/
inductive Mishap where
  /-- A weight has no value, or a position is outside an array. -/
  | fault (fault : Fault)
  /-- A difference is below zero. -/
  | belowZero (minuend subtrahend : Nat)
  /-- A number is not below the limit of its range. -/
  | beyond (limit number : Nat)
  /-- An entry has been left blank. -/
  | blank (position : Nat)

section Results

variable {α β ε : Type}

theorem ok_bind (a : α) (f : α → Except ε β) : (Except.ok a >>= f) = f a := rfl

/-- A loop whose steps never fail, by what holds of the state and the items that are left. -/
theorem exists_foldlM_eq_ok {step : β → α → Except ε β} (inv : List α → β → Prop)
    (hstep : ∀ item rest now, inv (item :: rest) now →
      ∃ next, step now item = .ok next ∧ inv rest next) {items : List α} {now : β}
    (h : inv items now) : ∃ last, items.foldlM step now = .ok last ∧ inv [] last := by
  induction items generalizing now with
  | nil => exact ⟨now, rfl, h⟩
  | cons item rest ih =>
    obtain ⟨next, hnext, hrest⟩ := hstep item rest now h
    obtain ⟨last, hlast, hdone⟩ := ih hrest
    exact ⟨last, by rw [List.foldlM_cons, hnext, ok_bind, hlast], hdone⟩

/-- A loop whose steps are plain ones is the plain fold. -/
theorem foldlM_eq_ok {step : β → α → Except ε β} {plain : β → α → β}
    (h : ∀ now item, step now item = .ok (plain now item)) (items : List α) (now : β) :
    items.foldlM step now = .ok (items.foldl plain now) := by
  have hpure : step = fun now item => pure (plain now item) := funext fun now => funext (h now)
  rw [hpure]
  exact List.foldlM_pure

end Results

namespace Checked

section Numbers

/-- A number below a limit. -/
def bounded (limit number : Nat) : Except Mishap Nat :=
  if number < limit then .ok number else .error (.beyond limit number)

/-- The sum of two positions. -/
def plus (a b : Nat) : Except Mishap Nat := bounded 0x10000 (a + b)

/-- The difference of two positions. -/
def minus (a b : Nat) : Except Mishap Nat :=
  if b ≤ a then .ok (a - b) else .error (.belowZero a b)

/-- The bit of a line as a word, if the word has it. -/
def maskOf (line : Nat) : Except Mishap UInt16 := do
  return 1 <<< UInt16.ofNat (← bounded 16 line)

/-- The bit of a line as a sample, if the sample has it. -/
def bitOf (line : Nat) : Except Mishap Int16 := do
  return 1 <<< Int16.ofNat (← bounded 16 line)

/-- A position as a phase word, if it is the same number there. -/
def wordOf (position : Nat) : Except Mishap UInt16 := do
  return UInt16.ofNat (← bounded 0x10000 position)

/-- A position as an offset, if it is the same number there. -/
def offsetOf (position : Nat) : Except Mishap Int32 := do
  return Int32.ofNat (← bounded 0x80000000 position)

theorem bounded_of_lt {limit number : Nat} (h : number < limit) :
    bounded limit number = .ok number := if_pos h

theorem plus_of_lt {a b : Nat} (h : a + b < 0x10000) : plus a b = .ok (a + b) := bounded_of_lt h

theorem minus_of_le {a b : Nat} (h : b ≤ a) : minus a b = .ok (a - b) := if_pos h

theorem maskOf_line (line : Pulldown.Line) :
    maskOf line.val = .ok (1 <<< UInt16.ofNat line.val) := by
  rw [maskOf, bounded_of_lt (Nat.lt_trans line.isLt (by decide))]
  rfl

theorem bitOf_line (line : Pulldown.Line) :
    bitOf line.val = .ok (1 <<< Int16.ofNat line.val) := by
  rw [bitOf, bounded_of_lt (Nat.lt_trans line.isLt (by decide))]
  rfl

theorem wordOf_phase (phase : Phase) : wordOf phase.val = .ok phase.word := by
  rw [wordOf, bounded_of_lt (Nat.lt_trans phase.isLt (by decide))]
  rfl

theorem offsetOf_of_le {offset : Nat} (h : offset ≤ 12) :
    offsetOf offset = .ok (Int32.ofNat offset) := by
  rw [offsetOf, bounded_of_lt (Nat.lt_of_le_of_lt h (by decide))]
  rfl

end Numbers

section Arrays

variable {α : Type} {n : Nat}

/-- The entry at a position. -/
def fetch (values : Vector α n) (position : Nat) : Except Mishap α :=
  match values[position]? with
  | some value => .ok value
  | none => .error (.fault (.outOfBounds n position))

/-- Put a value at a position. -/
def store (values : Vector α n) (position : Nat) (value : α) : Except Mishap (Vector α n) :=
  if position < n then .ok (values.setIfInBounds position value)
  else .error (.fault (.outOfBounds n position))

theorem fetch_get (values : Vector α n) (i : Fin n) : fetch values i.val = .ok (values.get i) := by
  have hget : values[i.val]? = some (values.get i) := Vector.getElem?_eq_getElem i.isLt
  rw [fetch, hget]

theorem fetch_ofFn (value : Fin n → α) (i : Fin n) :
    fetch (Vector.ofFn value) i.val = .ok (value i) := by
  have hget : (Vector.ofFn value)[i.val]? = some (value i) := by
    rw [Vector.getElem?_eq_getElem i.isLt, Vector.getElem_ofFn]
  rw [fetch, hget]

theorem store_of_lt {position : Nat} (h : position < n) (values : Vector α n) (value : α) :
    store values position value = .ok (values.setIfInBounds position value) := if_pos h

theorem get_setIfInBounds (values : Vector α n) (position : Nat) (value : α) (i : Fin n) :
    (values.setIfInBounds position value).get i =
      if position = i.val then value else values.get i :=
  Vector.getElem_setIfInBounds i.isLt

end Arrays

end Checked

open Checked

/-- An array some of whose entries are still blank. -/
abbrev Draft (α : Type) (n : Nat) := Vector (Option α) n

namespace Draft

variable {α : Type} {n : Nat}

/-- An array with nothing in it. -/
def empty : Draft α n := Vector.replicate n none

/-- An entry that has been written. -/
def entry (draft : Draft α n) (i : Fin n) : Except Mishap α :=
  match draft.get i with
  | some value => .ok value
  | none => .error (.blank i.val)

/-- The array, once all its entries have been written. -/
def finish (draft : Draft α n) : Except Mishap (Vector α n) := Vector.ofFnM draft.entry

/-- Work out an entry and write it. -/
def writeEntry (work : Fin n → Except Mishap α) (draft : Draft α n) (i : Fin n) :
    Except Mishap (Draft α n) := do
  store draft i.val (some (← work i))

/-- The array whose entries are worked out and written one after the other. -/
def fill (work : Fin n → Except Mishap α) : Except Mishap (Vector α n) := do
  finish (← (List.finRange n).foldlM (writeEntry work) empty)

/-- Whether each entry has been written with its value, but for those that are left. -/
def Written (draft : Draft α n) (value : Fin n → α) (left : Fin n → Prop) : Prop :=
  ∀ i, ¬ left i → draft.get i = some (value i)

section Writing

variable {draft : Draft α n} {value : Fin n → α} {left : Fin n → Prop}

theorem written_empty : (empty : Draft α n).Written value fun _ => True :=
  fun _ h => absurd trivial h

theorem Written.mono (h : draft.Written value left) {more : Fin n → Prop}
    (hmore : ∀ i, left i → more i) : draft.Written value more := fun i hi => h i (mt (hmore i) hi)

/-- An entry that is written with its value is no longer left. -/
theorem Written.store (h : draft.Written value left) (i : Fin n) :
    ∃ next, Checked.store draft i.val (some (value i)) = .ok next ∧
      Written next value fun j => left j ∧ j ≠ i := by
  refine ⟨draft.setIfInBounds i.val (some (value i)), store_of_lt i.isLt _ _, fun j hj => ?_⟩
  rw [get_setIfInBounds]
  by_cases heq : i = j
  · rw [if_pos (congrArg Fin.val heq), heq]
  · rw [if_neg fun hval => heq (Fin.ext hval)]
    exact h j fun hleft => hj ⟨hleft, fun hji => heq hji.symm⟩

/-- When no entry is left, the draft is finished. -/
theorem Written.finish_eq_ok (h : draft.Written value left) (hnone : ∀ i, ¬ left i) :
    finish draft = .ok (Vector.ofFn value) := by
  have hentry : draft.entry = fun i => pure (value i) := by
    funext i
    rw [entry, h i (hnone i)]
    rfl
  rw [finish, hentry]
  exact Vector.ofFnM_pure

example : finish (#v[some 0, none, some 2] : Draft Nat 3) = .error (.blank 1) := by cbv

variable {work : Fin n → Except Mishap α}

theorem Written.writeEntry {i : Fin n} {rest : List (Fin n)} (hwork : work i = .ok (value i))
    (h : draft.Written value (· ∈ i :: rest)) :
    ∃ next, draft.writeEntry work i = .ok next ∧ Written next value (· ∈ rest) := by
  obtain ⟨next, hnext, hwritten⟩ := h.store i
  refine ⟨next, ?_, hwritten.mono fun j hj => ?_⟩
  · rw [Draft.writeEntry, hwork, ok_bind, hnext]
  · obtain ⟨hmem, hne⟩ := hj
    exact List.mem_of_ne_of_mem hne hmem

/-- An array is filled if each of its entries can be worked out. -/
theorem fill_eq_ok (h : ∀ i, work i = .ok (value i)) : fill work = .ok (Vector.ofFn value) := by
  have hstart : (empty : Draft α n).Written value (· ∈ List.finRange n) :=
    written_empty.mono fun i _ => List.mem_finRange i
  obtain ⟨draft, hdraft, hdone⟩ :=
    exists_foldlM_eq_ok (fun rest (draft : Draft α n) => draft.Written value (· ∈ rest))
      (fun i _ _ hleft => hleft.writeEntry (h i)) hstart
  rw [fill, hdraft, ok_bind]
  exact hdone.finish_eq_ok fun i => List.not_mem_nil

end Writing

end Draft

end SidVoice
