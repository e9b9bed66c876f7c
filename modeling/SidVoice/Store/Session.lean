import SidVoice.Store.Generator

/-!
# Sessions

A session keeps any number of stores and generators side by side. They are numbered in order of
creation, and a number is never used again. The tables that a session has answered with are
numbered too, in the order in which they were first answered; they stay usable when the store
they came from is closed.

All stores of a session draw identities from one supply, so tables of different stores are never
taken for one another.
-/

namespace SidVoice

/-- The stores, generators and tables of a session. -/
structure Session where
  /-- The stores by number; a closed one is gone. -/
  stores : List (Option TableStore) := []
  /-- The generators by number; a closed one is gone. -/
  generators : List (Option Generator) := []
  /-- The tables that have been answered, in order of their first answer. -/
  tables : List SharedTable := []
  /-- The next free identity. -/
  fresh : Nat := 0

/-- The requests to a session. -/
inductive Request where
  /-- A new store. -/
  | openStore
  /-- Close a store. -/
  | closeStore (number : Nat)
  /-- A request to a store. -/
  | store (number : Nat) (request : StoreRequest)
  /-- A new generator. -/
  | openGenerator
  /-- Close a generator. -/
  | closeGenerator (number : Nat)
  /-- A request to a generator. -/
  | generator (number : Nat) (request : GeneratorRequest)
  /-- A basic sample of the shared generator. -/
  | sharedBasic (wave : BasicWave) (phase : UInt16)
  /-- Whether there is only one shared generator. -/
  | sharedIsOne
  /-- A sample of a table that has been answered. -/
  | probe (table row : Nat) (phase : UInt16)
  /-- A row of a table that has been answered. -/
  | row (table row : Nat)
  /-- Whether two tables that have been answered hold the same samples. -/
  | sameSamples (first second : Nat)

/-- What a session answers and logs. -/
structure Response where
  /-- The answer. -/
  outcome : Except Failure Answer
  /-- What is logged, in order. -/
  log : List LogEvent := []

namespace Session

/-- The number of a table among those that have been answered. -/
def number? (session : Session) (shared : SharedTable) : Option Nat :=
  session.tables.findIdx? fun known => known.ident == shared.ident

/-- Number a table, if it has not been answered before. -/
def note (session : Session) (shared : SharedTable) : Session :=
  match session.number? shared with
  | some _ => session
  | none => { session with tables := session.tables ++ [shared] }

/-- Number the table of an answer. -/
def noteAnswer (session : Session) : Except Failure Answer → Session
  | .ok (.table shared) => session.note shared
  | _ => session

/-- The table of a number. -/
def table (session : Session) (number : Nat) : Except Failure SharedTable :=
  match session.tables[number]? with
  | some shared => .ok shared
  | none => .error (.unknown number)

/-- The store or generator of a number, unless it is closed. -/
def live? {α : Type} (instances : List (Option α)) (number : Nat) : Option α :=
  instances[number]?.join

/-- An answer that changes nothing and logs nothing. -/
def reply (session : Session) (outcome : Except Failure Answer) : Session × Response :=
  (session, { outcome := outcome })

/-- The session after one of its stores has handled a request. -/
def afterStore (session : Session) (number : Nat) (handled : Handled TableStore) :
    Session × Response :=
  let stores := session.stores.set number (some handled.state)
  let next := { session with stores := stores, fresh := handled.fresh }
  (next.noteAnswer handled.outcome, ⟨handled.outcome, handled.log⟩)

/-- The session after one of its generators has handled a request. -/
def afterGenerator (session : Session) (number : Nat) (handled : Handled Generator) :
    Session × Response :=
  let generators := session.generators.set number (some handled.state)
  let next := { session with generators := generators, fresh := handled.fresh }
  (next.noteAnswer handled.outcome, ⟨handled.outcome, handled.log⟩)

/-- The answer about a table that has been answered before. -/
def aboutTable (session : Session) (number : Nat)
    (answer : CombinedTable → Except Failure Answer) : Except Failure Answer :=
  match session.table number with
  | .ok shared => answer shared.table
  | .error e => .error e

/-- Handle a request. -/
def step (session : Session) : Request → Session × Response
  | .openStore =>
    ({ session with stores := session.stores ++ [some .empty] },
      { outcome := .ok (.opened session.stores.length) })
  | .closeStore number =>
    match live? session.stores number with
    | some _ =>
      ({ session with stores := session.stores.set number none }, { outcome := .ok .closed })
    | none => session.reply (.error (.unknown number))
  | .store number request =>
    match live? session.stores number with
    | some store => session.afterStore number (store.handle session.fresh request)
    | none => session.reply (.error (.unknown number))
  | .openGenerator =>
    let (generator, log) := Generator.make
    ({ session with generators := session.generators ++ [some generator] },
      { outcome := .ok (.opened session.generators.length), log := log })
  | .closeGenerator number =>
    match live? session.generators number with
    | some _ =>
      ({ session with generators := session.generators.set number none },
        { outcome := .ok .closed })
    | none => session.reply (.error (.unknown number))
  | .generator number request =>
    match live? session.generators number with
    | some generator => session.afterGenerator number (generator.handle session.fresh request)
    | none => session.reply (.error (.unknown number))
  | .sharedBasic wave phase =>
    let used := Generator.sharedCell.use session.fresh Generator.make
    let sample := used.value.basicSample wave phase
    (session, { outcome := Generator.sampleAnswer sample .sample, log := used.log })
  | .sharedIsOne =>
    let first := Generator.sharedCell.use session.fresh Generator.make
    let second := first.cell.use session.fresh Generator.make
    (session,
      { outcome := .ok (.sameInstance (first.ident == second.ident)),
        log := first.log ++ second.log })
  | .probe table row phase =>
    session.reply (session.aboutTable table fun samples =>
      Generator.sampleAnswer (samples.sample row phase) .sample)
  | .row table row =>
    session.reply (session.aboutTable table fun samples =>
      match samples.row row with
      | .ok found => .ok (.row found)
      | .error fault => .error (.fault fault))
  | .sameSamples first second =>
    session.reply (session.aboutTable first fun a =>
      session.aboutTable second fun b => .ok (.sameSamples (a == b)))

/-- Handle requests in order. -/
def run (session : Session) : List Request → Session × List Response
  | [] => (session, [])
  | request :: rest =>
    let (next, response) := session.step request
    let (last, responses) := next.run rest
    (last, response :: responses)

/-- The shared generator is the same one whenever it is used, and using it logs nothing. -/
theorem step_sharedIsOne (session : Session) :
    session.step .sharedIsOne = (session, { outcome := .ok (.sameInstance true) }) := by
  simp only [step, Generator.sharedCell, OnceCell.use_use, beq_self_eq_true, List.append_nil]

/-- A run goes on from where the run before it has ended. -/
theorem run_append (session : Session) (requests more : List Request) :
    session.run (requests ++ more) =
      (((session.run requests).1.run more).1,
        (session.run requests).2 ++ ((session.run requests).1.run more).2) := by
  induction requests generalizing session with
  | nil => rfl
  | cons request rest ih => simp [run, ih]

end Session

end SidVoice
