import SidVoice.Proofs.Control.Unnamed

/-!
# Operations on sets of bits

The operations on sets of waveform bits are not this library's own. It relies on each of them being
the bitwise one that its documentation says, and on a set keeping every bit of the byte that it is
made of. Here the operations are parameters, and what is relied on are laws about them, one for
each operation, bit by bit.

Runs of the same steps by two such kinds of operations go through the same bytes, so they all are
runs of the library's own definitions. Which rows a set reads is decided here and not by the
operations: from the byte of the set, and from the question whether the noise is in it.
-/

namespace SidVoice

/-- Operations on sets of bits. -/
structure BitOperations (α : Type) where
  /-- The bits of a set as a byte. -/
  byte : α → UInt8
  /-- The set of all bits of a byte. -/
  retain : UInt8 → α
  /-- The set of the named bits of a byte. -/
  truncate : UInt8 → α
  /-- The set of a byte, if it has named bits only. -/
  ofByte? : UInt8 → Option α
  /-- The set of a single waveform by its name. -/
  ofName? : String → Option α
  /-- The set without bits. -/
  empty : α
  /-- The set of the named bits. -/
  all : α
  /-- Set the bits of the second set. -/
  insert : α → α → α
  /-- Clear the bits of the second set. -/
  remove : α → α → α
  /-- Flip the bits of the second set. -/
  toggle : α → α → α
  /-- Set or clear the bits of the second set. -/
  set : α → α → Bool → α
  /-- The bits of either set. -/
  union : α → α → α
  /-- The bits of both sets. -/
  inter : α → α → α
  /-- The bits of the first set that the second lacks. -/
  diff : α → α → α
  /-- The bits of exactly one of the sets. -/
  symmDiff : α → α → α
  /-- The named bits that are not set. -/
  complement : α → α
  /-- Whether every bit of the second set is in the first. -/
  contains : α → α → Bool
  /-- Whether the sets share a bit. -/
  intersects : α → α → Bool
  /-- Whether every named bit is set. -/
  isAll : α → Bool

namespace BitOperations

variable {α : Type} (ops : BitOperations α)

/-- A set by its bits. -/
def view (a : α) : WaveBits := ⟨ops.byte a⟩

/-- A bit of a set. -/
def bit (a : α) (n : Nat) : Bool := (ops.view a).bit n

/-- What the operations are documented to do. The named bits are the low four. -/
structure Documented : Prop where
  /-- A set is made of a byte with all its bits. -/
  byte_retain : ∀ byte, ops.byte (ops.retain byte) = byte
  /-- Bits without a name are cleared. -/
  bit_truncate : ∀ byte n,
    ops.bit (ops.truncate byte) n = (byte.toNat.testBit n && decide (n < 4))
  /-- A byte with a bit that has no name is refused. -/
  ofByte?_unnamed : ∀ byte n, 4 ≤ n → byte.toNat.testBit n = true → ops.ofByte? byte = none
  /-- A byte with named bits only is taken as it is. -/
  ofByte?_named : ∀ byte, (∀ n, byte.toNat.testBit n = true → n < 4) →
    ops.ofByte? byte = some (ops.retain byte)
  /-- A waveform is found by exactly its name. -/
  ofName? : ∀ name,
    ops.ofName? name = (Wave.ofName? name).map fun wave => ops.retain wave.mask
  /-- No bit is set. -/
  bit_empty : ∀ n, ops.bit ops.empty n = false
  /-- Every named bit is set, and no other. -/
  bit_all : ∀ n, ops.bit ops.all n = decide (n < 4)
  /-- Bits are set by a disjunction. -/
  bit_insert : ∀ a b n, ops.bit (ops.insert a b) n = (ops.bit a n || ops.bit b n)
  /-- Bits are cleared, also those without a name. -/
  bit_remove : ∀ a b n, ops.bit (ops.remove a b) n = (ops.bit a n && !ops.bit b n)
  /-- Bits are flipped by an exclusive disjunction. -/
  bit_toggle : ∀ a b n, ops.bit (ops.toggle a b) n = (ops.bit a n ^^ ops.bit b n)
  /-- A flag says whether bits are set or cleared. -/
  set : ∀ a b value, ops.set a b value = if value then ops.insert a b else ops.remove a b
  /-- The union is the disjunction. -/
  bit_union : ∀ a b n, ops.bit (ops.union a b) n = (ops.bit a n || ops.bit b n)
  /-- The intersection is the conjunction. -/
  bit_inter : ∀ a b n, ops.bit (ops.inter a b) n = (ops.bit a n && ops.bit b n)
  /-- The difference is the conjunction with the negation, which is not cut to the named bits. -/
  bit_diff : ∀ a b n, ops.bit (ops.diff a b) n = (ops.bit a n && !ops.bit b n)
  /-- The symmetric difference is the exclusive disjunction. -/
  bit_symmDiff : ∀ a b n, ops.bit (ops.symmDiff a b) n = (ops.bit a n ^^ ops.bit b n)
  /-- The complement is the negation, cut to the named bits. -/
  bit_complement : ∀ a n, ops.bit (ops.complement a) n = (decide (n < 4) && !ops.bit a n)
  /-- Every bit of the second set, named or not, is in the first. -/
  contains_iff : ∀ a b,
    ops.contains a b = true ↔ ∀ n, ops.bit b n = true → ops.bit a n = true
  /-- Some bit, named or not, is in both sets. -/
  intersects_iff : ∀ a b,
    ops.intersects a b = true ↔ ∃ n, ops.bit a n = true ∧ ops.bit b n = true
  /-- Every named bit is in the set. -/
  isAll_iff : ∀ a, ops.isAll a = true ↔ ∀ n < 4, ops.bit a n = true

end BitOperations

namespace WaveBits

variable {a b : WaveBits}

/-- Sets with the same bits are the same. -/
theorem eq_of_bit_eq (h : ∀ n, a.bit n = b.bit n) : a = b := by
  obtain ⟨x⟩ := a
  obtain ⟨y⟩ := b
  rw [mk.injEq]
  exact UInt8.toNat_inj.mp (Nat.eq_of_testBit_eq h)

theorem bit_empty (n : Nat) : empty.bit n = false := Nat.zero_testBit n

theorem bit_all (n : Nat) : all.bit n = decide (n < 4) := Nat.testBit_two_pow_sub_one 4 n

theorem bit_truncate (byte : UInt8) (n : Nat) :
    (truncate byte).bit n = (byte.toNat.testBit n && decide (n < 4)) := by
  rw [← bit_all]
  exact bit_inter ⟨byte⟩ all n

theorem contains_iff : a.contains b = true ↔ ∀ n, b.bit n = true → a.bit n = true := by
  have hinter : a.contains b = true ↔ a.inter b = b := by
    rw [contains, beq_iff_eq, ← byte_inter]
    exact ⟨fun h => congrArg mk h, fun h => congrArg byte h⟩
  rw [hinter]
  constructor
  · intro h n hn
    rw [← h, bit_inter, Bool.and_eq_true] at hn
    exact hn.1
  · intro h
    apply eq_of_bit_eq
    intro n
    rw [bit_inter, Bool.and_eq_right_iff_imp]
    exact h n

theorem intersects_iff : a.intersects b = true ↔ ∃ n, a.bit n = true ∧ b.bit n = true := by
  have hempty : a.intersects b = false ↔ a.inter b = empty := by
    rw [intersects, bne_eq_false_iff_eq, ← byte_inter]
    exact ⟨fun h => congrArg mk h, fun h => congrArg byte h⟩
  rw [← Bool.not_eq_false, hempty, ← not_iff_not, not_not]
  constructor
  · rintro h ⟨n, hn⟩
    rw [← Bool.and_eq_true, ← bit_inter, h, bit_empty] at hn
    exact Bool.false_ne_true hn
  · intro h
    apply eq_of_bit_eq
    intro n
    rw [bit_inter, bit_empty, ← Bool.not_eq_true, Bool.and_eq_true]
    exact fun hn => h ⟨n, hn⟩

theorem isAll_iff : a.isAll = true ↔ ∀ n < 4, a.bit n = true := by
  have hcontains : a.isAll = a.contains all := rfl
  simp only [hcontains, contains_iff, bit_all, decide_eq_true_eq]

/-- A byte has named bits only exactly if none of its bits is beyond them. -/
theorem and_not_named_eq_zero_iff (byte : UInt8) :
    byte &&& ~~~named = 0 ↔ ∀ n, byte.toNat.testBit n = true → n < 4 := by
  have hdiff : byte &&& ~~~named = 0 ↔ (mk byte).diff all = empty :=
    ⟨fun h => congrArg mk h, fun h => congrArg WaveBits.byte h⟩
  have hbit (n : Nat) : ((mk byte).diff all).bit n = (byte.toNat.testBit n && !decide (n < 4)) := by
    rw [bit_diff, bit_all, bit]
  rw [hdiff]
  constructor
  · intro h n hn
    have hnone := hbit n
    rw [h, bit_empty, hn, Bool.true_and] at hnone
    simpa using hnone
  · intro h
    apply eq_of_bit_eq
    intro n
    rw [hbit, bit_empty, Bool.and_eq_false_imp]
    intro hn
    rw [decide_eq_true (h n hn), Bool.not_true]

theorem ofByte?_of_named {byte : UInt8} (h : ∀ n, byte.toNat.testBit n = true → n < 4) :
    ofByte? byte = some ⟨byte⟩ :=
  if_pos ((and_not_named_eq_zero_iff byte).mpr h)

theorem ofByte?_of_unnamed {byte : UInt8} {n : Nat} (hn : 4 ≤ n)
    (h : byte.toNat.testBit n = true) : ofByte? byte = none :=
  if_neg fun hnamed => Nat.not_lt.mpr hn ((and_not_named_eq_zero_iff byte).mp hnamed n h)

end WaveBits

namespace BitOperations

/-- The library's own operations. -/
def waveBits : BitOperations WaveBits where
  byte := WaveBits.byte
  retain := WaveBits.mk
  truncate := WaveBits.truncate
  ofByte? := WaveBits.ofByte?
  ofName? name := (Wave.ofName? name).map WaveBits.ofWave
  empty := WaveBits.empty
  all := WaveBits.all
  insert := WaveBits.union
  remove := WaveBits.diff
  toggle := WaveBits.symmDiff
  set a b value := if value then a.union b else a.diff b
  union := WaveBits.union
  inter := WaveBits.inter
  diff := WaveBits.diff
  symmDiff := WaveBits.symmDiff
  complement := WaveBits.complement
  contains := WaveBits.contains
  intersects := WaveBits.intersects
  isAll := WaveBits.isAll

/-- The library's own operations do what is documented. -/
theorem waveBits_documented : waveBits.Documented where
  byte_retain _ := rfl
  bit_truncate := WaveBits.bit_truncate
  ofByte?_unnamed _ _ := WaveBits.ofByte?_of_unnamed
  ofByte?_named _ := WaveBits.ofByte?_of_named
  ofName? _ := rfl
  bit_empty := WaveBits.bit_empty
  bit_all := WaveBits.bit_all
  bit_insert := WaveBits.bit_union
  bit_remove := WaveBits.bit_diff
  bit_toggle := WaveBits.bit_symmDiff
  set _ _ _ := rfl
  bit_union := WaveBits.bit_union
  bit_inter := WaveBits.bit_inter
  bit_diff := WaveBits.bit_diff
  bit_symmDiff := WaveBits.bit_symmDiff
  bit_complement a n := by
    refine (WaveBits.bit_complement a n).trans ?_
    rw [WaveBits.bit_all]
    by_cases hn : n < 4
    · simp [hn, Nat.lt_trans hn (by decide : 4 < 8), bit, view, waveBits]
    · simp [hn]
  contains_iff _ _ := WaveBits.contains_iff
  intersects_iff _ _ := WaveBits.intersects_iff
  isAll_iff _ := WaveBits.isAll_iff

section Steps

variable {α : Type} (ops : BitOperations α)

/-- The set after a step, and the answer of a step that asks or may be refused. Operands are sets of
all the bits of a byte. -/
def apply (now : α) : WaveStep → α × Option Bool
  | .insert b => (ops.insert now (ops.retain b.byte), none)
  | .remove b => (ops.remove now (ops.retain b.byte), none)
  | .toggle b => (ops.toggle now (ops.retain b.byte), none)
  | .set b value => (ops.set now (ops.retain b.byte) value, none)
  | .union b => (ops.union now (ops.retain b.byte), none)
  | .intersection b => (ops.inter now (ops.retain b.byte), none)
  | .difference b => (ops.diff now (ops.retain b.byte), none)
  | .symmetricDifference b => (ops.symmDiff now (ops.retain b.byte), none)
  | .complement => (ops.complement now, none)
  | .contains b => (now, some (ops.contains now (ops.retain b.byte)))
  | .intersects b => (now, some (ops.intersects now (ops.retain b.byte)))
  | .ofByte byte => ((ops.ofByte? byte).getD now, some (ops.ofByte? byte).isSome)
  | .truncate byte => (ops.truncate byte, none)
  | .ofControl control => (ops.truncate (control >>> 4), none)
  | .ofName name => ((ops.ofName? name).getD now, some (ops.ofName? name).isSome)
  | .all => (ops.all, none)
  | .empty => (ops.empty, none)

/-- The set and the answer after each of a list of steps. -/
def run (start : α) : List WaveStep → List (α × Option Bool)
  | [] => []
  | step :: rest =>
    let next := ops.apply start step
    next :: run next.1 rest

/-- The sets of a run: the first one, and the one after each step. -/
def states (start : α) (steps : List WaveStep) : List α :=
  start :: (ops.run start steps).map Prod.fst

/-- The combined row of the low three bits; noise matters for pulse alone. -/
def combination? (a : α) : Option Combination :=
  match ops.byte a &&& 7 with
  | 3 => some .triangleSawtooth
  | 4 => if ops.contains a (ops.retain Wave.noise.mask) then some .noisePulse else none
  | 5 => some .pulseTriangle
  | 6 => some .pulseSawtooth
  | 7 => some .pulseTriangleSawtooth
  | _ => none

/-- The rows for a set of waveform bits. -/
def selection (a : α) : Selection := ⟨(ops.view a).basicWave, ops.combination? a⟩

/-- The waveforms that are switched on. -/
def waves (a : α) : List Wave :=
  Wave.all.filter fun wave => ops.contains a (ops.retain wave.mask)

end Steps

namespace Documented

variable {α : Type} {ops : BitOperations α} (h : ops.Documented)

include h

theorem view_retain (byte : UInt8) : ops.view (ops.retain byte) = ⟨byte⟩ :=
  congrArg WaveBits.mk (h.byte_retain byte)

/-- Operations that combine bits alike combine sets alike. -/
theorem view_operand (f : Bool → Bool → Bool) {op : α → α → α}
    {own : WaveBits → WaveBits → WaveBits}
    (hop : ∀ a b n, ops.bit (op a b) n = f (ops.bit a n) (ops.bit b n))
    (hown : ∀ a b n, (own a b).bit n = f (a.bit n) (b.bit n)) (now : α) (operand : WaveBits) :
    ops.view (op now (ops.retain operand.byte)) = own (ops.view now) operand := by
  apply WaveBits.eq_of_bit_eq
  intro n
  calc
    ops.bit (op now (ops.retain operand.byte)) n =
        f (ops.bit now n) (ops.bit (ops.retain operand.byte) n) := hop _ _ n
    _ = f ((ops.view now).bit n) (operand.bit n) := by rw [bit, bit, h.view_retain]
    _ = (own (ops.view now) operand).bit n := (hown _ _ n).symm

theorem view_truncate (byte : UInt8) : ops.view (ops.truncate byte) = .truncate byte :=
  WaveBits.eq_of_bit_eq fun n => (h.bit_truncate byte n).trans (WaveBits.bit_truncate byte n).symm

theorem view_all : ops.view ops.all = .all :=
  WaveBits.eq_of_bit_eq fun n => (h.bit_all n).trans (WaveBits.bit_all n).symm

theorem view_empty : ops.view ops.empty = .empty :=
  WaveBits.eq_of_bit_eq fun n => (h.bit_empty n).trans (WaveBits.bit_empty n).symm

theorem view_complement (a : α) : ops.view (ops.complement a) = (ops.view a).complement :=
  WaveBits.eq_of_bit_eq fun n =>
    (h.bit_complement a n).trans (waveBits_documented.bit_complement (ops.view a) n).symm

theorem contains_view (a b : α) : ops.contains a b = (ops.view a).contains (ops.view b) := by
  rw [Bool.eq_iff_iff, h.contains_iff, WaveBits.contains_iff]
  rfl

theorem intersects_view (a b : α) :
    ops.intersects a b = (ops.view a).intersects (ops.view b) := by
  rw [Bool.eq_iff_iff, h.intersects_iff, WaveBits.intersects_iff]
  rfl

theorem isAll_view (a : α) : ops.isAll a = (ops.view a).isAll := by
  rw [Bool.eq_iff_iff, h.isAll_iff, WaveBits.isAll_iff]
  rfl

theorem ofByte?_view (byte : UInt8) : (ops.ofByte? byte).map ops.view = WaveBits.ofByte? byte := by
  by_cases hnamed : ∀ n, byte.toNat.testBit n = true → n < 4
  · rw [h.ofByte?_named byte hnamed, WaveBits.ofByte?_of_named hnamed, Option.map_some,
      h.view_retain]
  · obtain ⟨n, hn⟩ := not_forall.mp hnamed
    obtain ⟨hbit, hn⟩ := Classical.not_imp.mp hn
    rw [h.ofByte?_unnamed byte n (Nat.le_of_not_lt hn) hbit,
      WaveBits.ofByte?_of_unnamed (Nat.le_of_not_lt hn) hbit, Option.map_none]

theorem ofName?_view (name : String) :
    (ops.ofName? name).map ops.view = (Wave.ofName? name).map WaveBits.ofWave := by
  rw [h.ofName?, Option.map_map]
  exact congrArg (Option.map · _) (funext fun wave => h.view_retain wave.mask)

/-- A step by documented operations is the step that the library computes. -/
theorem apply_view (now : α) (step : WaveStep) :
    Prod.map ops.view id (ops.apply now step) = step.apply (ops.view now) := by
  have hinsert := h.view_operand or h.bit_insert WaveBits.bit_union now
  have hremove := h.view_operand (fun x y => x && !y) h.bit_remove WaveBits.bit_diff now
  cases step with
  | insert b => exact Prod.ext (hinsert b) rfl
  | remove b => exact Prod.ext (hremove b) rfl
  | toggle b => exact Prod.ext (h.view_operand xor h.bit_toggle WaveBits.bit_symmDiff now b) rfl
  | set b value =>
    simp only [apply, h.set]
    cases value
    · exact Prod.ext (hremove b) rfl
    · exact Prod.ext (hinsert b) rfl
  | union b => exact Prod.ext (h.view_operand or h.bit_union WaveBits.bit_union now b) rfl
  | intersection b => exact Prod.ext (h.view_operand and h.bit_inter WaveBits.bit_inter now b) rfl
  | difference b =>
    exact Prod.ext (h.view_operand (fun x y => x && !y) h.bit_diff WaveBits.bit_diff now b) rfl
  | symmetricDifference b =>
    exact Prod.ext (h.view_operand xor h.bit_symmDiff WaveBits.bit_symmDiff now b) rfl
  | complement => exact Prod.ext (h.view_complement now) rfl
  | contains b =>
    refine Prod.ext rfl (congrArg some ?_)
    rw [h.contains_view, h.view_retain]
  | intersects b =>
    refine Prod.ext rfl (congrArg some ?_)
    rw [h.intersects_view, h.view_retain]
  | ofByte byte =>
    have hview := h.ofByte?_view byte
    simp only [apply, WaveStep.apply, ← hview]
    cases ops.ofByte? byte <;> rfl
  | truncate byte => exact Prod.ext (h.view_truncate byte) rfl
  | ofControl control => exact Prod.ext (h.view_truncate (control >>> 4)) rfl
  | ofName name =>
    have hview := h.ofName?_view name
    simp only [apply, WaveStep.apply, ← hview]
    cases ops.ofName? name <;> rfl
  | all => exact Prod.ext h.view_all rfl
  | empty => exact Prod.ext h.view_empty rfl

/-- A run by documented operations is the run that the library computes. -/
theorem run_view (start : α) (steps : List WaveStep) :
    (ops.run start steps).map (Prod.map ops.view id) = WaveStep.run (ops.view start) steps := by
  induction steps generalizing start with
  | nil => rfl
  | cons step rest ih =>
    have hstep := h.apply_view start step
    rw [run, List.map_cons, ih, WaveStep.run, ← hstep]
    rfl

/-- What is read off a set is what the library reads off its bits. -/
theorem waves_view (a : α) : ops.waves a = (ops.view a).waves := by
  refine List.filter_congr fun wave _ => ?_
  rw [h.contains_view, h.view_retain]
  rfl

theorem selection_view (a : α) : ops.selection a = (ops.view a).selection := by
  have hnoise : ops.contains a (ops.retain Wave.noise.mask) =
      (ops.view a).contains (.ofWave .noise) := by
    rw [h.contains_view, h.view_retain]
    rfl
  have hcombination : ops.combination? a = (ops.view a).combination? := by
    rw [combination?, WaveBits.combination?, hnoise]
    rfl
  rw [selection, WaveBits.selection, hcombination]

theorem states_view (start : α) (steps : List WaveStep) :
    (ops.states start steps).map ops.view = WaveStep.states (ops.view start) steps := by
  rw [states, List.map_cons, WaveStep.states, ← h.run_view, List.map_map, List.map_map]
  rfl

/-- What holds of two runs of the library's own definitions holds of two runs by documented
operations. -/
theorem forall₂_states {steps : List WaveStep} {first second : UInt8}
    {R : WaveBits → WaveBits → Prop}
    (hown : List.Forall₂ R (WaveStep.states ⟨first⟩ steps) (WaveStep.states ⟨second⟩ steps)) :
    List.Forall₂ (fun a b => R (ops.view a) (ops.view b))
      (ops.states (ops.retain first) steps) (ops.states (ops.retain second) steps) := by
  rw [← h.view_retain first, ← h.view_retain second, ← h.states_view, ← h.states_view] at hown
  exact List.forall₂_map_right_iff.mp (List.forall₂_map_left_iff.mp hown)

/-- By documented operations, runs of the same steps from two bytes with the same low nibble look
alike after every step. -/
theorem states_alike (steps : List WaveStep) {first second : UInt8}
    (hlow : first &&& 0xf = second &&& 0xf) :
    List.Forall₂ (fun a b => ops.waves a = ops.waves b ∧ ops.isAll a = ops.isAll b ∧
        ops.selection a = ops.selection b)
      (ops.states (ops.retain first) steps) (ops.states (ops.retain second) steps) := by
  have hagree : WaveBits.AgreeOn WaveBits.named ⟨first⟩ ⟨second⟩ := hlow
  refine (h.forall₂_states (WaveStep.agreeOn_states hagree steps)).imp fun a b hab => ?_
  have halike := hab.lookAlike
  rw [h.waves_view, h.waves_view, h.isAll_view, h.isAll_view, h.selection_view, h.selection_view]
  exact ⟨halike.waves, halike.isAll, halike.selection⟩

/-- By documented operations, runs of the same steps from two bytes with the same low three bits
read the same rows wherever the pulse is not alone. -/
theorem states_selection (steps : List WaveStep) {first second : UInt8}
    (hlow : first &&& 7 = second &&& 7) :
    List.Forall₂ (fun a b => ¬ (ops.view a).PulseAlone → ops.selection a = ops.selection b)
      (ops.states (ops.retain first) steps) (ops.states (ops.retain second) steps) := by
  have hagree : WaveBits.AgreeOn 7 ⟨first⟩ ⟨second⟩ := hlow
  refine (h.forall₂_states (WaveStep.agreeOn_states hagree steps)).imp fun a b hab halone => ?_
  rw [h.selection_view, h.selection_view]
  exact hab.selection_eq halone

/-- By documented operations, the noise makes a difference to the rows exactly where the pulse is
alone. -/
theorem selection_noise_ne (a : α) :
    ops.selection (ops.union a (ops.retain Wave.noise.mask)) ≠
        ops.selection (ops.diff a (ops.retain Wave.noise.mask)) ↔
      (ops.view a).PulseAlone := by
  have hon := h.view_operand or h.bit_union WaveBits.bit_union a (.ofWave .noise)
  have hoff := h.view_operand (fun x y => x && !y) h.bit_diff WaveBits.bit_diff a (.ofWave .noise)
  rw [h.selection_view, h.selection_view, ← WaveBits.selection_noise_ne_iff, ← hon, ← hoff]
  rfl

end Documented

end BitOperations

end SidVoice
