import SidVoice.Control.Selection
import SidVoice.Json.Setup
import SidVoice.Store.TableStore
import SidVoice.Table.Basic

/-!
# Requests to stores and generators

A generator owns a basic table and a store of combined tables, and answers requests for tables
and for single samples. A store can also be asked on its own.

A request for a combined sample builds the table of its setup before it looks at the phase, so a
bad phase is reported after the table has been built and kept. A request for the samples of a
voice reads the basic sample first, and builds nothing if the phase is bad.
-/

namespace SidVoice

/-- Why a request is not answered. -/
inductive Failure where
  /-- The request faults. -/
  | fault (fault : Fault)
  /-- The stored setup in the request cannot be read. -/
  | unreadable (error : Json.ReadError)
  /-- There is no store, generator or table of this number. -/
  | unknown (number : Nat)

/-- A basic table with a store of combined tables. -/
structure Generator where
  /-- The basic table. -/
  basic : SampleMatrix 4
  /-- The combined tables built so far. -/
  store : TableStore

/-- What a request is answered with. -/
inductive Answer where
  /-- A combined table. -/
  | table (shared : SharedTable)
  /-- A table that has not been built. -/
  | noTable
  /-- The state of a store. -/
  | store (store : TableStore)
  /-- The state of a generator. -/
  | generator (generator : Generator)
  /-- The number of a new store or generator. -/
  | opened (number : Nat)
  /-- A store or generator has been closed. -/
  | closed
  /-- A single sample. -/
  | sample (value : Int16)
  /-- The samples of a voice and the rows they come from. -/
  | voice (selection : Selection) (basic : Int16) (pulldown : Option Int16)
  /-- A row of samples. -/
  | row (samples : SampleRow)
  /-- A basic table. -/
  | basicTable (table : SampleMatrix 4)
  /-- Whether two tables hold the same samples. -/
  | sameSamples (value : Bool)
  /-- Whether two uses of the shared generator are of the same one. -/
  | sameInstance (value : Bool)

/-- The result of a request to something that keeps tables. -/
structure Handled (σ : Type) where
  /-- The state afterwards. -/
  state : σ
  /-- The next free identity. -/
  fresh : Nat
  /-- What is logged, in order. -/
  log : List LogEvent := []
  /-- The answer. -/
  outcome : Except Failure Answer

/-- The requests to a store. -/
inductive StoreRequest where
  /-- The table of a setup, if it has been built. -/
  | get (setup : Setup)
  /-- The table of a setup, built if need be. -/
  | obtain (setup : Setup)
  /-- The state of the store. -/
  | stats

/-- Answer a request to a store. -/
def TableStore.handle (store : TableStore) (fresh : Nat) : StoreRequest → Handled TableStore
  | .get setup =>
    match store.get? setup with
    | some table => { state := store, fresh := fresh, outcome := .ok (.table table) }
    | none => { state := store, fresh := fresh, outcome := .ok .noTable }
  | .obtain setup =>
    let got := store.obtain fresh setup
    { state := got.store, fresh := got.fresh, log := [got.event],
      outcome := .ok (.table got.table) }
  | .stats => { state := store, fresh := fresh, outcome := .ok (.store store) }

/-! ## Cells -/

/-- A place that holds nothing until it is first used, and the same value ever after. -/
structure OnceCell (α : Type) where
  /-- The value with its identity, once it has been made. -/
  made? : Option (Nat × α) := none

/-- What a use of a cell gives. -/
structure OnceCell.Use (α : Type) where
  /-- The identity of the value. -/
  ident : Nat
  /-- The value. -/
  value : α
  /-- The cell afterwards. -/
  cell : OnceCell α
  /-- What is logged, in order. -/
  log : List LogEvent

/-- Use a cell. If it holds nothing, the given value is made under a fresh identity, with what is
logged of that. -/
def OnceCell.use {α : Type} (cell : OnceCell α) (fresh : Nat) (make : α × List LogEvent) :
    OnceCell.Use α :=
  match cell.made? with
  | some (ident, value) => ⟨ident, value, cell, []⟩
  | none => ⟨fresh, make.1, ⟨some (fresh, make.1)⟩, make.2⟩

/-- Use a cell once for each of the given fresh identities. -/
def OnceCell.uses {α : Type} (cell : OnceCell α) (make : α × List LogEvent) :
    List Nat → List (OnceCell.Use α)
  | [] => []
  | fresh :: rest =>
    let first := cell.use fresh make
    first :: first.cell.uses make rest

/-- A cell that has been used gives the same value again, changes nothing and logs nothing. -/
theorem OnceCell.use_use {α : Type} (cell : OnceCell α) (fresh again : Nat)
    (make : α × List LogEvent) :
    (cell.use fresh make).cell.use again make = { cell.use fresh make with log := [] } := by
  obtain ⟨made?⟩ := cell
  cases made? <;> rfl

/-- However often a cell is used, each use gives what the first gives, and only the first logs. -/
theorem OnceCell.uses_cons {α : Type} (cell : OnceCell α) (fresh : Nat) (rest : List Nat)
    (make : α × List LogEvent) :
    cell.uses make (fresh :: rest) =
      cell.use fresh make :: rest.map fun _ => { cell.use fresh make with log := [] } := by
  induction rest generalizing cell fresh with
  | nil => rfl
  | cons again rest ih => rw [uses, ih, use_use, List.map_cons]

/-! ## Generators -/

/-- The requests to a generator. -/
inductive GeneratorRequest where
  /-- The table of a setup. -/
  | build (setup : Setup)
  /-- The table of a stored setup. -/
  | buildFor (text : String)
  /-- A combined sample. -/
  | pulldown (setup : Setup) (combination : Combination) (phase : UInt16)
  /-- A basic sample. -/
  | basic (wave : BasicWave) (phase : UInt16)
  /-- The whole basic table. -/
  | basicTable
  /-- The state of the generator. -/
  | stats
  /-- The samples of a voice with this control register. -/
  | voice (setup : Setup) (control : UInt8) (phase : UInt16)

namespace Generator

/-- A generator whose combined tables are all still to be built. -/
def new : Generator := ⟨basicTable, .empty⟩

/-- Make a generator. -/
def make : Generator × List LogEvent := (new, [.basicTable])

@[simp] theorem make_fst : make.1 = new := rfl

@[simp] theorem make_snd : make.2 = [.basicTable] := rfl

/-- The cell of the generator that all share. Its first use comes before every session, so in a
session its uses log nothing. -/
def sharedCell : OnceCell Generator := (({} : OnceCell Generator).use 0 make).cell

/-- The generator that all share. -/
def shared : Generator := (sharedCell.use 0 make).value

/-- A basic sample. -/
def basicSample (generator : Generator) (wave : BasicWave) (phase : UInt16) :
    Except Fault Int16 := generator.basic.sample wave.row phase

/-- A request that changes nothing and logs nothing. -/
def unchanged (generator : Generator) (fresh : Nat) (outcome : Except Failure Answer) :
    Handled Generator :=
  { state := generator, fresh := fresh, outcome := outcome }

/-- A request that needs the table of a setup. -/
def withTable (generator : Generator) (fresh : Nat) (setup : Setup)
    (answer : SharedTable → Except Failure Answer) : Handled Generator :=
  let got := generator.store.obtain fresh setup
  { state := { generator with store := got.store }, fresh := got.fresh, log := [got.event],
    outcome := answer got.table }

/-- The answer of a sample that may fault. -/
def sampleAnswer (sample : Except Fault Int16) (answer : Int16 → Answer) :
    Except Failure Answer :=
  match sample with
  | .ok value => .ok (answer value)
  | .error fault => .error (.fault fault)

/-- Answer a request to a generator. -/
def handle (generator : Generator) (fresh : Nat) : GeneratorRequest → Handled Generator
  | .build setup => generator.withTable fresh setup fun got => .ok (.table got)
  | .buildFor text =>
    match Json.readSetup text with
    | .ok setup => generator.withTable fresh setup fun got => .ok (.table got)
    | .error e => generator.unchanged fresh (.error (.unreadable e))
  | .pulldown setup combination phase =>
    generator.withTable fresh setup fun got =>
      sampleAnswer (got.table.sample combination.row phase) .sample
  | .basic wave phase =>
    generator.unchanged fresh (sampleAnswer (generator.basicSample wave phase) .sample)
  | .basicTable => generator.unchanged fresh (.ok (.basicTable generator.basic))
  | .stats => generator.unchanged fresh (.ok (.generator generator))
  | .voice setup control phase =>
    let selection := Selection.ofControl control
    match generator.basicSample selection.basic phase with
    | .error fault => generator.unchanged fresh (.error (.fault fault))
    | .ok basic =>
      match selection.pulldown with
      | none => generator.unchanged fresh (.ok (.voice selection basic none))
      | some combination =>
        generator.withTable fresh setup fun got =>
          sampleAnswer (got.table.sample combination.row phase) fun value =>
            .voice selection basic (some value)

/-- The description of a generator as a value. -/
def describe (generator : Generator) : String :=
  "WaveformCalculator \x7b wftable: " ++ generator.basic.describe ++ ", cache: " ++
    generator.store.describe ++ " \x7d"

/-- The description over several lines. -/
def describeLines (generator : Generator) : String :=
  "WaveformCalculator \x7b\n" ++
    "    wftable: " ++ generator.basic.describeLines "    " ++ ",\n" ++
    "    cache: " ++ generator.store.describeLines "    " ++ ",\n" ++
    "\x7d"

end Generator

end SidVoice
