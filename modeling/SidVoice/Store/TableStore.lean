import SidVoice.Table.Combined

/-!
# A store of combined tables

A store has a place for each setup. The first request for a setup builds its table and puts it
in its place, and every later request is answered from there; nothing is ever replaced or
removed. A table carries an identity, so that sharing one table can be told from building the
same samples twice.

Identities come from a supply that the caller keeps: a request gets the next free identity and
uses it only if it builds.
-/

namespace SidVoice

/-- A combined table with its identity. -/
structure SharedTable where
  /-- The identity: tables that were built apart have different ones. -/
  ident : Nat
  /-- The samples. -/
  table : CombinedTable

/-- What is logged. -/
inductive LogEvent where
  /-- The basic table of a generator is made. -/
  | basicTable
  /-- The table of a setup has been built. -/
  | built (setup : Setup)
  /-- The table of a setup was there already. -/
  | hit (setup : Setup)
  deriving DecidableEq

/-- The line of a log event, with its level. -/
def LogEvent.message : LogEvent → String
  | basicTable => "DEBUG building basic waveform table"
  | built setup => "DEBUG built pulldown table for " ++ setup.title
  | hit setup => "TRACE pulldown table cache hit: " ++ setup.title

/-- A store with a place for each setup. -/
structure TableStore where
  /-- The tables by the slots of their setups. -/
  places : Vector (Option SharedTable) Setup.count
  /-- How many tables have been built. -/
  builds : Nat

/-- What a request for a table leads to. -/
structure Obtained where
  /-- The table. -/
  table : SharedTable
  /-- The store afterwards. -/
  store : TableStore
  /-- What is logged. -/
  event : LogEvent
  /-- The next free identity. -/
  fresh : Nat

namespace TableStore

/-- The store with nothing in it. -/
def empty : TableStore := ⟨Vector.replicate Setup.count none, 0⟩

/-- The table of a setup, if it has been built. -/
def get? (store : TableStore) (setup : Setup) : Option SharedTable := store.places[setup.slot]

/-- Put a table that has just been built in the place of its setup. -/
def put (store : TableStore) (setup : Setup) (table : SharedTable) : TableStore :=
  ⟨store.places.set setup.slot (some table), store.builds + 1⟩

/-- The table of a setup, built if this is the first request for it. -/
def obtain (store : TableStore) (fresh : Nat) (setup : Setup) : Obtained :=
  match store.get? setup with
  | some table => ⟨table, store, .hit setup, fresh⟩
  | none =>
    let table : SharedTable := ⟨fresh, setup.table⟩
    ⟨table, store.put setup table, .built setup, fresh + 1⟩

/-- The number of tables in the store. -/
def resident (store : TableStore) : Nat := store.places.toList.countP Option.isSome

/-- Whether no table has been built. -/
def isEmpty (store : TableStore) : Bool := store.resident == 0

/-- The description of a store as a value. -/
def describe (store : TableStore) : String :=
  "PulldownCache \x7b resident: " ++ toString store.resident ++ ", builds: " ++
    toString store.builds ++ " \x7d"

/-- The description over several lines, all but the first after the given indentation. -/
def describeLines (indent : String) (store : TableStore) : String :=
  "PulldownCache \x7b\n" ++
    indent ++ "    resident: " ++ toString store.resident ++ ",\n" ++
    indent ++ "    builds: " ++ toString store.builds ++ ",\n" ++
    indent ++ "\x7d"

@[simp] theorem get?_empty (setup : Setup) : empty.get? setup = none := by
  simp [empty, get?]

@[simp] theorem get?_put_self (store : TableStore) (setup : Setup) (table : SharedTable) :
    (store.put setup table).get? setup = some table := by
  simp [put, get?]

/-- A table goes to the place of its own setup only. -/
theorem get?_put_of_ne (store : TableStore) {setup other : Setup} (table : SharedTable)
    (h : other ≠ setup) : (store.put setup table).get? other = store.get? other := by
  have hs : setup.slot.val ≠ other.slot.val := fun hv =>
    h (Setup.slot_injective (Fin.ext hv)).symm
  simp [put, get?, hs]

theorem obtain_of_some {store : TableStore} {setup : Setup} {table : SharedTable} (fresh : Nat)
    (h : store.get? setup = some table) :
    store.obtain fresh setup = ⟨table, store, .hit setup, fresh⟩ := by
  rw [obtain, h]

theorem obtain_of_none {store : TableStore} {setup : Setup} (fresh : Nat)
    (h : store.get? setup = none) :
    store.obtain fresh setup =
      ⟨⟨fresh, setup.table⟩, store.put setup ⟨fresh, setup.table⟩, .built setup, fresh + 1⟩ := by
  rw [obtain, h]

/-- After a request, the store holds the table it was answered with. -/
theorem get?_obtain_self (store : TableStore) (fresh : Nat) (setup : Setup) :
    (store.obtain fresh setup).store.get? setup = some (store.obtain fresh setup).table := by
  cases h : store.get? setup with
  | some table => simp [obtain_of_some fresh h, h]
  | none => simp [obtain_of_none fresh h]

end TableStore

end SidVoice
