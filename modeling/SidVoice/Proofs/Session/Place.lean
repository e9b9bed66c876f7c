import SidVoice.Store.Session

/-!
# The places of a session

A session keeps stores of combined tables in two kinds of places: on their own, and inside
generators. What a request does to a table does not depend on the kind, so the laws of tables
are stated about places.

A request *needs* the table of a setup if it builds that table when it is missing, and *asks*
for it if the table is its answer. Looking a table up asks without needing; a single combined
sample needs without asking. A request is *served* by the place it is addressed to unless the
place is closed or has not been opened; the requests of all users of a place reach it one after
the other, so any interleaving of them is a list of requests.
-/

namespace SidVoice

/-- Where a session keeps a store: on its own, or inside a generator. -/
inductive Place where
  /-- The store of this number. -/
  | store (number : Nat)
  /-- The store inside the generator of this number. -/
  | generator (number : Nat)
  deriving DecidableEq

namespace Place

/-- The number of a place among those of its kind. -/
def number : Place → Nat
  | store number => number
  | generator number => number

/-- The request that closes a place. -/
def close : Place → Request
  | store number => .closeStore number
  | generator number => .closeGenerator number

end Place

/-- The setup whose table a request to a store needs. -/
def StoreRequest.need? : StoreRequest → Option Setup
  | get _ => none
  | obtain setup => some setup
  | stats => none

/-- The setup whose table a request to a store asks for. -/
def StoreRequest.asks? : StoreRequest → Option Setup
  | get setup => some setup
  | obtain setup => some setup
  | stats => none

/-- The setup whose table a request to a generator needs. A voice needs one only if its phase is
good and its selection pulls down. -/
def GeneratorRequest.need? : GeneratorRequest → Option Setup
  | build setup => some setup
  | buildFor text => (Json.readSetup text).toOption
  | pulldown setup _ _ => some setup
  | basic _ _ => none
  | basicTable => none
  | stats => none
  | voice setup control phase =>
    if phase.toNat < phaseCount then (Selection.ofControl control).pulldown.map fun _ => setup
    else none

/-- The setup whose table a request to a generator asks for. -/
def GeneratorRequest.asks? : GeneratorRequest → Option Setup
  | build setup => some setup
  | buildFor text => (Json.readSetup text).toOption
  | _ => none

namespace Request

/-- The place a request is addressed to. Opening and closing are addressed to none. -/
def place? : Request → Option Place
  | store number _ => some (.store number)
  | generator number _ => some (.generator number)
  | _ => none

/-- The place and the setup whose table a request needs. -/
def need? : Request → Option (Place × Setup)
  | store number request => request.need?.map fun setup => (.store number, setup)
  | generator number request => request.need?.map fun setup => (.generator number, setup)
  | _ => none

/-- The place and the setup whose table a request asks for. -/
def asks? : Request → Option (Place × Setup)
  | store number request => request.asks?.map fun setup => (.store number, setup)
  | generator number request => request.asks?.map fun setup => (.generator number, setup)
  | _ => none

/-- A request that needs a table is addressed to the place of the table. -/
theorem place?_of_need? {request : Request} {place : Place} {setup : Setup}
    (h : request.need? = some (place, setup)) : request.place? = some place := by
  cases request with
  | store number request =>
    obtain ⟨_, -, hpair⟩ := Option.map_eq_some_iff.mp h
    exact congrArg some (congrArg Prod.fst hpair)
  | generator number request =>
    obtain ⟨_, -, hpair⟩ := Option.map_eq_some_iff.mp h
    exact congrArg some (congrArg Prod.fst hpair)
  | _ => simp [need?] at h

end Request

namespace Session

/-- The store at a place, unless the place is closed or has not been opened. -/
def storeAt? (session : Session) : Place → Option TableStore
  | .store number => live? session.stores number
  | .generator number => (live? session.generators number).map Generator.store

/-- The table of a setup at a place, if it has been built there. -/
def tableAt? (session : Session) (place : Place) (setup : Setup) : Option SharedTable :=
  (session.storeAt? place).bind fun store => store.get? setup

/-- Whether a place has ever been opened. -/
def Opened (session : Session) : Place → Prop
  | .store number => number < session.stores.length
  | .generator number => number < session.generators.length

/-- The place and the setup whose table a request is served. -/
def served? (session : Session) (request : Request) : Option (Place × Setup) :=
  request.need?.filter fun need => (session.storeAt? need.1).isSome

/-- The setup whose table a place serves to a request. -/
def servesAt? (session : Session) (place : Place) (request : Request) : Option Setup :=
  (session.served? request).bind fun need => if need.1 = place then some need.2 else none

/-- The setups whose tables a place serves in a run, in order. -/
def servedAt (session : Session) (place : Place) : List Request → List Setup
  | [] => []
  | request :: rest =>
    (session.servesAt? place request).toList ++ (session.step request).1.servedAt place rest

/-- What a place logs in a run: the log of the requests addressed to it. -/
def logAt (session : Session) (place : Place) (requests : List Request) : List LogEvent :=
  ((requests.zip (session.run requests).2).filter fun entry =>
    entry.1.place? = some place).flatMap fun entry => entry.2.log

theorem tableAt?_of_storeAt? {session : Session} {place : Place} {store : TableStore}
    (h : session.storeAt? place = some store) (setup : Setup) :
    session.tableAt? place setup = store.get? setup := by
  rw [tableAt?, h, Option.bind_some]

theorem served?_eq_some_iff {session : Session} {request : Request} {place : Place}
    {setup : Setup} :
    session.served? request = some (place, setup) ↔
      request.need? = some (place, setup) ∧ (session.storeAt? place).isSome := by
  simp [served?, Option.filter_eq_some_iff]

theorem servesAt?_of_served?_none {session : Session} {request : Request}
    (h : session.served? request = none) (place : Place) :
    session.servesAt? place request = none := by
  rw [servesAt?, h, Option.bind_none]

theorem servesAt?_of_served?_some {session : Session} {request : Request} {other : Place}
    {setup : Setup} (h : session.served? request = some (other, setup)) (place : Place) :
    session.servesAt? place request = if other = place then some setup else none := by
  rw [servesAt?, h, Option.bind_some]

/-- The log of a run at a place, request by request. -/
theorem logAt_cons (session : Session) (place : Place) (request : Request)
    (rest : List Request) :
    session.logAt place (request :: rest) =
      (if request.place? = some place then (session.step request).2.log else []) ++
        (session.step request).1.logAt place rest := by
  by_cases h : request.place? = some place
  · simp [logAt, run, h]
  · simp [logAt, run, h]

@[simp] theorem storeAt?_empty (place : Place) : ({} : Session).storeAt? place = none := by
  cases place <;> rfl

@[simp] theorem tableAt?_empty (place : Place) (setup : Setup) :
    ({} : Session).tableAt? place setup = none := by
  simp [tableAt?]

section Live

variable {α : Type}

theorem live?_append_some (instances : List (Option α)) (value : α) (number : Nat) :
    live? (instances ++ [some value]) number =
      if number = instances.length then some value else live? instances number := by
  rcases Nat.lt_trichotomy number instances.length with h | h | h
  · rw [if_neg (Nat.ne_of_lt h), live?, live?, List.getElem?_append_left h]
  · subst h
    simp [live?]
  · have hlong : (instances ++ [some value]).length ≤ number := by
      rw [List.length_append, List.length_singleton]
      omega
    rw [if_neg (Nat.ne_of_gt h), live?, live?, List.getElem?_eq_none hlong,
      List.getElem?_eq_none (Nat.le_of_lt h)]

/-- Only an instance that exists is alive. -/
theorem lt_of_live? {instances : List (Option α)} {number : Nat} {value : α}
    (h : live? instances number = some value) : number < instances.length := by
  obtain ⟨hlt, -⟩ := List.getElem?_eq_some_iff.mp (Option.join_eq_some_iff.mp h)
  exact hlt

theorem live?_set (instances : List (Option α)) (value : Option α) {number : Nat}
    (hlt : number < instances.length) (other : Nat) :
    live? (instances.set number value) other =
      if other = number then value else live? instances other := by
  by_cases h : other = number
  · subst h
    rw [if_pos rfl, live?, List.getElem?_set_self hlt, Option.join_some]
  · rw [if_neg h, live?, live?, List.getElem?_set_ne (Ne.symm h)]

end Live

end Session

end SidVoice
