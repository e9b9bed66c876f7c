import Mathlib.Logic.Function.Basic
import SidVoice.Proofs.Session.Place

/-!
# What a request does to the stores of a session

A request opens a place, closes one, has one of them serve a table that it holds or builds, or
leaves all stores as they are. `Session.Effect` says which of these a request is and everything
it does to stores, to the supply of identities and to the log of tables; invariants of a session
are then proved by cases on it, without another look at the requests.

The answer to a request that asks for a table is read off the place after the request.
-/

namespace SidVoice

/-- The answer with the table a place holds, if it holds one. -/
def Answer.ofTable? : Option SharedTable → Answer
  | some shared => table shared
  | none => noTable

/-- A request that needs no table leaves the store and the supply alone and logs nothing. -/
theorem TableStore.handle_of_need?_none (store : TableStore) (fresh : Nat)
    {request : StoreRequest} (h : request.need? = none) :
    (store.handle fresh request).state = store ∧ (store.handle fresh request).fresh = fresh ∧
      (store.handle fresh request).log = [] := by
  cases request with
  | get setup =>
    rw [handle]
    split <;> exact ⟨rfl, rfl, rfl⟩
  | obtain setup => simp [StoreRequest.need?] at h
  | stats => exact ⟨rfl, rfl, rfl⟩

/-- A request that needs a table has the store obtain it. -/
theorem TableStore.handle_of_need?_some (store : TableStore) (fresh : Nat)
    {request : StoreRequest} {setup : Setup} (h : request.need? = some setup) :
    (store.handle fresh request).state = (store.obtain fresh setup).store ∧
      (store.handle fresh request).fresh = (store.obtain fresh setup).fresh ∧
      (store.handle fresh request).log = [(store.obtain fresh setup).event] := by
  cases request with
  | obtain asked =>
    obtain rfl : asked = setup := by simpa [StoreRequest.need?] using h
    exact ⟨rfl, rfl, rfl⟩
  | get asked => simp [StoreRequest.need?] at h
  | stats => simp [StoreRequest.need?] at h

/-- A request that asks for a table is answered with what the store holds afterwards. -/
theorem TableStore.outcome_handle (store : TableStore) (fresh : Nat) {request : StoreRequest}
    {setup : Setup} (h : request.asks? = some setup) :
    (store.handle fresh request).outcome =
      .ok (.ofTable? ((store.handle fresh request).state.get? setup)) := by
  cases request with
  | get asked =>
    obtain rfl : asked = setup := by simpa [StoreRequest.asks?] using h
    cases hs : store.get? asked with
    | none => simp [handle, hs, Answer.ofTable?]
    | some table => simp [handle, hs, Answer.ofTable?]
  | obtain asked =>
    obtain rfl : asked = setup := by simpa [StoreRequest.asks?] using h
    simp [handle, get?_obtain_self, Answer.ofTable?]
  | stats => simp [StoreRequest.asks?] at h

namespace Generator

/-- The phase alone decides whether a basic sample is bad. -/
theorem basicSample_eq (generator : Generator) (wave : BasicWave) (phase : UInt16) :
    generator.basicSample wave phase =
      if h : phase.toNat < phaseCount then .ok (generator.basic.cell wave.row ⟨phase.toNat, h⟩)
      else .error (.widePhase phase) := by
  rw [basicSample]
  split
  · rename_i h
    exact generator.basic.sample_of_lt wave.row h
  · rename_i h
    exact generator.basic.sample_of_wide _ (Nat.le_of_not_lt h)

/-- A request that needs no table leaves the generator and the supply alone and logs nothing. -/
theorem handle_of_need?_none (generator : Generator) (fresh : Nat) {request : GeneratorRequest}
    (h : request.need? = none) :
    (generator.handle fresh request).state = generator ∧
      (generator.handle fresh request).fresh = fresh ∧
      (generator.handle fresh request).log = [] := by
  cases request with
  | build setup => simp [GeneratorRequest.need?] at h
  | buildFor text =>
    cases hread : Json.readSetup text with
    | ok setup => simp [GeneratorRequest.need?, hread, Except.toOption] at h
    | error e => simp [handle, hread, unchanged]
  | pulldown setup combination phase => simp [GeneratorRequest.need?] at h
  | basic wave phase => exact ⟨rfl, rfl, rfl⟩
  | basicTable => exact ⟨rfl, rfl, rfl⟩
  | stats => exact ⟨rfl, rfl, rfl⟩
  | voice setup control phase =>
    by_cases hphase : phase.toNat < phaseCount
    · have hselection : (Selection.ofControl control).pulldown = none := by
        simpa [GeneratorRequest.need?, hphase] using h
      simp [handle, basicSample_eq, hphase, hselection, unchanged]
    · simp [handle, basicSample_eq, hphase, unchanged]

/-- A request that needs a table has the store of the generator obtain it. -/
theorem handle_of_need?_some (generator : Generator) (fresh : Nat) {request : GeneratorRequest}
    {setup : Setup} (h : request.need? = some setup) :
    (generator.handle fresh request).state =
        { generator with store := (generator.store.obtain fresh setup).store } ∧
      (generator.handle fresh request).fresh = (generator.store.obtain fresh setup).fresh ∧
      (generator.handle fresh request).log = [(generator.store.obtain fresh setup).event] := by
  cases request with
  | build asked =>
    obtain rfl : asked = setup := by simpa [GeneratorRequest.need?] using h
    exact ⟨rfl, rfl, rfl⟩
  | buildFor text =>
    cases hread : Json.readSetup text with
    | ok asked =>
      obtain rfl : asked = setup := by
        simpa [GeneratorRequest.need?, hread, Except.toOption] using h
      simp [handle, hread, withTable]
    | error e => simp [GeneratorRequest.need?, hread, Except.toOption] at h
  | pulldown asked combination phase =>
    obtain rfl : asked = setup := by simpa [GeneratorRequest.need?] using h
    exact ⟨rfl, rfl, rfl⟩
  | basic wave phase => simp [GeneratorRequest.need?] at h
  | basicTable => simp [GeneratorRequest.need?] at h
  | stats => simp [GeneratorRequest.need?] at h
  | voice asked control phase =>
    by_cases hphase : phase.toNat < phaseCount
    · simp only [GeneratorRequest.need?, if_pos hphase, Option.map_eq_some_iff] at h
      obtain ⟨combination, hselection, rfl⟩ := h
      simp [handle, basicSample_eq, hphase, hselection, withTable]
    · simp [GeneratorRequest.need?, hphase] at h

/-- A request that asks for a table is answered with what the generator holds afterwards. -/
theorem outcome_handle (generator : Generator) (fresh : Nat) {request : GeneratorRequest}
    {setup : Setup} (h : request.asks? = some setup) :
    (generator.handle fresh request).outcome =
      .ok (.ofTable? ((generator.handle fresh request).state.store.get? setup)) := by
  cases request with
  | build asked =>
    obtain rfl : asked = setup := by simpa [GeneratorRequest.asks?] using h
    simp [handle, withTable, TableStore.get?_obtain_self, Answer.ofTable?]
  | buildFor text =>
    cases hread : Json.readSetup text with
    | ok asked =>
      obtain rfl : asked = setup := by
        simpa [GeneratorRequest.asks?, hread, Except.toOption] using h
      simp [handle, hread, withTable, TableStore.get?_obtain_self, Answer.ofTable?]
    | error e => simp [GeneratorRequest.asks?, hread, Except.toOption] at h
  | _ => simp [GeneratorRequest.asks?] at h

/-- A combined sample is read off the table of its setup, built if need be. -/
theorem outcome_pulldown (generator : Generator) (fresh : Nat) (setup : Setup)
    (combination : Combination) (phase : UInt16) :
    (generator.handle fresh (.pulldown setup combination phase)).outcome =
      sampleAnswer ((generator.store.obtain fresh setup).table.table.sample combination.row phase)
        .sample :=
  rfl

end Generator

namespace Session

/-- What a request does to the stores of a session, and what it logs.

Every constructor also says which places have been opened afterwards, since a place that was
opened once is never opened again. -/
inductive Effect (session : Session) (request : Request) (next : Session)
    (log : List LogEvent) : Prop where
  /-- No store changes. -/
  | idle
      (hserved : session.served? request = none)
      (hstores : next.storeAt? = session.storeAt?)
      (hopened : next.Opened = session.Opened)
      (hfresh : next.fresh = session.fresh)
      (hlog : log = [])
  /-- A new place is opened, with nothing in its store. -/
  | opened (place : Place)
      (hserved : session.served? request = none)
      (haddressed : request.place? = none)
      (hnew : ¬ session.Opened place)
      (hstores : next.storeAt? = Function.update session.storeAt? place (some .empty))
      (hopened : ∀ other, next.Opened other ↔ other = place ∨ session.Opened other)
      (hfresh : next.fresh = session.fresh)
  /-- A place is closed. -/
  | closed (place : Place)
      (hserved : session.served? request = none)
      (hrequest : request = place.close)
      (hstores : next.storeAt? = Function.update session.storeAt? place none)
      (hopened : next.Opened = session.Opened)
      (hfresh : next.fresh = session.fresh)
      (hlog : log = [])
  /-- A place serves a table that it holds. -/
  | hit (place : Place) (setup : Setup) (shared : SharedTable)
      (hserved : session.served? request = some (place, setup))
      (htable : session.tableAt? place setup = some shared)
      (hstores : next.storeAt? = session.storeAt?)
      (hopened : next.Opened = session.Opened)
      (hfresh : next.fresh = session.fresh)
      (hlog : log = [.hit setup])
  /-- A place builds the table that it serves, and keeps it. -/
  | built (place : Place) (setup : Setup) (store : TableStore)
      (hserved : session.served? request = some (place, setup))
      (hstore : session.storeAt? place = some store)
      (hmissing : store.get? setup = none)
      (hstores : next.storeAt? = Function.update session.storeAt? place
        (some (store.put setup ⟨session.fresh, setup.table⟩)))
      (hopened : next.Opened = session.Opened)
      (hfresh : next.fresh = session.fresh + 1)
      (hlog : log = [.built setup])

section Parts

variable (session : Session)

/-- Numbering the table of an answer changes nothing but the numbered tables. -/
theorem noteAnswer_eq (outcome : Except Failure Answer) :
    ∃ tables, session.noteAnswer outcome = { session with tables := tables } := by
  cases outcome with
  | error failure => exact ⟨session.tables, rfl⟩
  | ok answer =>
    cases answer with
    | table shared =>
      rw [noteAnswer, note]
      cases session.number? shared with
      | none => exact ⟨session.tables ++ [shared], rfl⟩
      | some number => exact ⟨session.tables, rfl⟩
    | _ => exact ⟨session.tables, rfl⟩

@[simp] theorem stores_noteAnswer (outcome : Except Failure Answer) :
    (session.noteAnswer outcome).stores = session.stores := by
  obtain ⟨tables, h⟩ := session.noteAnswer_eq outcome
  rw [h]

@[simp] theorem generators_noteAnswer (outcome : Except Failure Answer) :
    (session.noteAnswer outcome).generators = session.generators := by
  obtain ⟨tables, h⟩ := session.noteAnswer_eq outcome
  rw [h]

@[simp] theorem fresh_noteAnswer (outcome : Except Failure Answer) :
    (session.noteAnswer outcome).fresh = session.fresh := by
  obtain ⟨tables, h⟩ := session.noteAnswer_eq outcome
  rw [h]

variable {session} {number : Nat}

/-- A session in which one store has been exchanged differs at the place of that store. -/
theorem storeAt?_of_stores (next : Session) (value : Option TableStore)
    (hlt : number < session.stores.length)
    (hstores : next.stores = session.stores.set number value)
    (hgenerators : next.generators = session.generators) :
    next.storeAt? = Function.update session.storeAt? (.store number) value := by
  funext place
  cases place with
  | store other => simp [storeAt?, hstores, live?_set _ _ hlt, Function.update_apply]
  | generator other => simp [storeAt?, hgenerators]

/-- A session in which one generator has been exchanged differs at the place of that generator. -/
theorem storeAt?_of_generators (next : Session) (value : Option Generator)
    (hlt : number < session.generators.length) (hstores : next.stores = session.stores)
    (hgenerators : next.generators = session.generators.set number value) :
    next.storeAt? =
      Function.update session.storeAt? (.generator number) (value.map Generator.store) := by
  funext place
  cases place with
  | store other => simp [storeAt?, hstores]
  | generator other =>
    by_cases h : other = number
    · simp [storeAt?, hgenerators, live?_set _ _ hlt, h]
    · simp [storeAt?, hgenerators, live?_set _ _ hlt, h]

/-- As long as no instance is added, no place is opened. -/
theorem opened_of_length {next : Session} (hstores : next.stores.length = session.stores.length)
    (hgenerators : next.generators.length = session.generators.length) :
    next.Opened = session.Opened := by
  funext place
  cases place with
  | store other => rw [Opened, Opened, hstores]
  | generator other => rw [Opened, Opened, hgenerators]

/-- A store that has handled a request is back in its place. -/
theorem storeAt?_afterStore (hlt : number < session.stores.length)
    (handled : Handled TableStore) :
    (session.afterStore number handled).1.storeAt? =
      Function.update session.storeAt? (.store number) (some handled.state) := by
  have hstores : (session.afterStore number handled).1.stores =
      session.stores.set number (some handled.state) := stores_noteAnswer _ _
  have hgenerators : (session.afterStore number handled).1.generators = session.generators :=
    generators_noteAnswer _ _
  exact storeAt?_of_stores _ _ hlt hstores hgenerators

/-- A generator that has handled a request is back in its place. -/
theorem storeAt?_afterGenerator (hlt : number < session.generators.length)
    (handled : Handled Generator) :
    (session.afterGenerator number handled).1.storeAt? =
      Function.update session.storeAt? (.generator number) (some handled.state.store) := by
  have hstores : (session.afterGenerator number handled).1.stores = session.stores :=
    stores_noteAnswer _ _
  have hgenerators : (session.afterGenerator number handled).1.generators =
      session.generators.set number (some handled.state) := generators_noteAnswer _ _
  exact storeAt?_of_generators _ _ hlt hstores hgenerators

theorem opened_afterStore (number : Nat) (handled : Handled TableStore) :
    (session.afterStore number handled).1.Opened = session.Opened :=
  opened_of_length (by simp [afterStore]) (by simp [afterStore])

theorem opened_afterGenerator (number : Nat) (handled : Handled Generator) :
    (session.afterGenerator number handled).1.Opened = session.Opened :=
  opened_of_length (by simp [afterGenerator]) (by simp [afterGenerator])

end Parts

/-- A request that needs no table is not served one. -/
theorem served?_of_need?_none {session : Session} {request : Request}
    (h : request.need? = none) : session.served? request = none := by
  rw [served?, h, Option.filter_none]

/-- A request to a place that is not alive is not served. -/
theorem served?_of_storeAt?_none {session : Session} {request : Request} {place : Place}
    (hplace : request.place? = some place) (h : session.storeAt? place = none) :
    session.served? request = none := by
  cases hneed : request.need? with
  | none => exact served?_of_need?_none hneed
  | some need =>
    obtain ⟨other, setup⟩ := need
    obtain rfl : place = other := by
      simpa [Request.place?_of_need? hneed] using hplace.symm
    simp [served?, hneed, h]

/-- A place that is alive serves what the request needs, if it needs anything. -/
theorem effect_of_alive {session next : Session} {request : Request} {log : List LogEvent}
    {place : Place} {store state : TableStore} {need : Option Setup}
    (hat : session.storeAt? place = some store)
    (hneed : request.need? = need.map fun setup => (place, setup))
    (hstores : next.storeAt? = Function.update session.storeAt? place (some state))
    (hopened : next.Opened = session.Opened)
    (hnone : need = none → state = store ∧ next.fresh = session.fresh ∧ log = [])
    (hsome : ∀ setup, need = some setup → state = (store.obtain session.fresh setup).store ∧
      next.fresh = (store.obtain session.fresh setup).fresh ∧
      log = [(store.obtain session.fresh setup).event]) :
    session.Effect request next log := by
  cases need with
  | none =>
    obtain ⟨rfl, hfresh, hlog⟩ := hnone rfl
    have hsame : next.storeAt? = session.storeAt? := by
      rw [hstores, ← hat, Function.update_eq_self]
    exact .idle (served?_of_need?_none hneed) hsame hopened hfresh hlog
  | some setup =>
    obtain ⟨hstate, hfresh, hlog⟩ := hsome setup rfl
    have hserved : session.served? request = some (place, setup) :=
      served?_eq_some_iff.mpr ⟨hneed, by rw [hat]; rfl⟩
    cases hheld : store.get? setup with
    | none =>
      rw [TableStore.obtain_of_none _ hheld] at hstate hfresh hlog
      subst hstate
      exact .built place setup store hserved hat hheld hstores hopened hfresh hlog
    | some shared =>
      rw [TableStore.obtain_of_some _ hheld] at hstate hfresh hlog
      subst hstate
      have htable : session.tableAt? place setup = some shared := by
        rw [tableAt?_of_storeAt? hat, hheld]
      have hsame : next.storeAt? = session.storeAt? := by
        rw [hstores, ← hat, Function.update_eq_self]
      exact .hit place setup shared hserved htable hsame hopened hfresh hlog

/-- A request to a store does to the session what the store does to itself. -/
theorem effect_store (session : Session) (number : Nat) (request : StoreRequest) :
    session.Effect (.store number request) (session.step (.store number request)).1
      (session.step (.store number request)).2.log := by
  cases hlive : live? session.stores number with
  | none =>
    have hat : session.storeAt? (.store number) = none := hlive
    have hserved : session.served? (.store number request) = none :=
      served?_of_storeAt?_none rfl hat
    simp only [step, hlive, reply]
    exact .idle hserved rfl rfl rfl rfl
  | some store =>
    have hat : session.storeAt? (.store number) = some store := hlive
    simp only [step, hlive]
    refine effect_of_alive hat rfl
      (storeAt?_afterStore (lt_of_live? hlive) _) (opened_afterStore number _)
      (fun hneed => ?_) (fun setup hneed => ?_)
    · simpa [afterStore] using store.handle_of_need?_none session.fresh hneed
    · simpa [afterStore] using store.handle_of_need?_some session.fresh hneed

/-- A request to a generator does to the session what the generator does to its store. -/
theorem effect_generator (session : Session) (number : Nat) (request : GeneratorRequest) :
    session.Effect (.generator number request) (session.step (.generator number request)).1
      (session.step (.generator number request)).2.log := by
  cases hlive : live? session.generators number with
  | none =>
    have hat : session.storeAt? (.generator number) = none := by simp [storeAt?, hlive]
    have hserved : session.served? (.generator number request) = none :=
      served?_of_storeAt?_none rfl hat
    simp only [step, hlive, reply]
    exact .idle hserved rfl rfl rfl rfl
  | some generator =>
    have hat : session.storeAt? (.generator number) = some generator.store := by
      simp [storeAt?, hlive]
    simp only [step, hlive]
    refine effect_of_alive hat rfl
      (storeAt?_afterGenerator (lt_of_live? hlive) _) (opened_afterGenerator number _)
      (fun hneed => ?_) (fun setup hneed => ?_)
    · obtain ⟨hstate, hfresh, hlog⟩ := generator.handle_of_need?_none session.fresh hneed
      exact ⟨congrArg Generator.store hstate, by simpa [afterGenerator] using hfresh, hlog⟩
    · obtain ⟨hstate, hfresh, hlog⟩ := generator.handle_of_need?_some session.fresh hneed
      exact ⟨congrArg Generator.store hstate, by simpa [afterGenerator] using hfresh, hlog⟩

/-- Every request has one of the effects. -/
theorem step_effect (session : Session) (request : Request) :
    session.Effect request (session.step request).1 (session.step request).2.log := by
  cases request with
  | openStore =>
    refine .opened (.store session.stores.length) rfl rfl (by simp [Opened]) ?_ ?_ rfl
    · funext place
      cases place with
      | store other => simp [step, storeAt?, live?_append_some, Function.update_apply]
      | generator other => simp [step, storeAt?]
    · intro other
      cases other with
      | store number =>
        simp [step, Opened]
        omega
      | generator number => simp [step, Opened]
  | openGenerator =>
    refine .opened (.generator session.generators.length) rfl rfl (by simp [Opened]) ?_ ?_ rfl
    · funext place
      cases place with
      | store other => simp [step, storeAt?]
      | generator other =>
        by_cases h : other = session.generators.length
        · simp [step, storeAt?, live?_append_some, h, Generator.new]
        · simp [step, storeAt?, live?_append_some, h]
    · intro other
      cases other with
      | store number => simp [step, Opened]
      | generator number =>
        simp [step, Opened]
        omega
  | closeStore number =>
    cases hlive : live? session.stores number with
    | none =>
      simp only [step, hlive, reply]
      exact .idle rfl rfl rfl rfl rfl
    | some store =>
      simp only [step, hlive]
      refine .closed (.store number) rfl rfl ?_ ?_ rfl rfl
      · exact storeAt?_of_stores _ none (lt_of_live? hlive) rfl rfl
      · exact opened_of_length List.length_set rfl
  | closeGenerator number =>
    cases hlive : live? session.generators number with
    | none =>
      simp only [step, hlive, reply]
      exact .idle rfl rfl rfl rfl rfl
    | some generator =>
      simp only [step, hlive]
      refine .closed (.generator number) rfl rfl ?_ ?_ rfl rfl
      · exact storeAt?_of_generators _ none (lt_of_live? hlive) rfl rfl
      · exact opened_of_length rfl List.length_set
  | store number request => exact session.effect_store number request
  | generator number request => exact session.effect_generator number request
  | sharedBasic wave phase => exact .idle rfl rfl rfl rfl rfl
  | sharedIsOne => exact .idle rfl rfl rfl rfl rfl
  | probe table row phase => exact .idle rfl rfl rfl rfl rfl
  | row table row => exact .idle rfl rfl rfl rfl rfl
  | sameSamples first second => exact .idle rfl rfl rfl rfl rfl

/-- A request that asks for a table is answered with what its place holds afterwards. -/
theorem outcome_step_of_asks? {session : Session} {request : Request} {place : Place}
    {setup : Setup} (h : request.asks? = some (place, setup)) :
    (session.step request).2.outcome =
      if (session.storeAt? place).isSome then
        .ok (.ofTable? ((session.step request).1.tableAt? place setup))
      else .error (.unknown place.number) := by
  cases request with
  | store number request =>
    obtain ⟨asked, hasks, hpair⟩ := Option.map_eq_some_iff.mp h
    obtain ⟨rfl, rfl⟩ := Prod.mk.inj hpair
    cases hlive : live? session.stores number with
    | none => simp [step, hlive, reply, storeAt?, Place.number]
    | some store =>
      have hat : session.storeAt? (.store number) = some store := hlive
      have hafter : (session.step (.store number request)).1.tableAt? (.store number) asked =
          (store.handle session.fresh request).state.get? asked := by
        rw [step, hlive, tableAt?, storeAt?_afterStore (lt_of_live? hlive),
          Function.update_self, Option.bind_some]
      have houtcome := store.outcome_handle session.fresh hasks
      rw [hafter, hat, ← houtcome, step, hlive]
      rfl
  | generator number request =>
    obtain ⟨asked, hasks, hpair⟩ := Option.map_eq_some_iff.mp h
    obtain ⟨rfl, rfl⟩ := Prod.mk.inj hpair
    cases hlive : live? session.generators number with
    | none => simp [step, hlive, reply, storeAt?, Place.number]
    | some generator =>
      have hat : session.storeAt? (.generator number) = some generator.store := by
        simp [storeAt?, hlive]
      have hafter :
          (session.step (.generator number request)).1.tableAt? (.generator number) asked =
            (generator.handle session.fresh request).state.store.get? asked := by
        rw [step, hlive, tableAt?, storeAt?_afterGenerator (lt_of_live? hlive),
          Function.update_self, Option.bind_some]
      have houtcome := generator.outcome_handle session.fresh hasks
      rw [hafter, hat, ← houtcome, step, hlive]
      rfl
  | _ => simp [Request.asks?] at h

/-- A table that is answered is in its place afterwards. -/
theorem tableAt?_of_outcome {session : Session} {request : Request} {place : Place}
    {setup : Setup} {table : SharedTable} (h : request.asks? = some (place, setup))
    (houtcome : (session.step request).2.outcome = .ok (.table table)) :
    (session.step request).1.tableAt? place setup = some table := by
  rw [outcome_step_of_asks? h] at houtcome
  split at houtcome
  · cases hafter : (session.step request).1.tableAt? place setup with
    | none => simp [hafter, Answer.ofTable?] at houtcome
    | some found => simpa [hafter, Answer.ofTable?] using houtcome
  · cases houtcome

/-- A place that is alive answers with the table it holds afterwards. -/
theorem outcome_of_tableAt? {session : Session} {request : Request} {place : Place}
    {setup : Setup} {table : SharedTable} (h : request.asks? = some (place, setup))
    (halive : (session.storeAt? place).isSome)
    (htable : (session.step request).1.tableAt? place setup = some table) :
    (session.step request).2.outcome = .ok (.table table) := by
  rw [outcome_step_of_asks? h, if_pos halive, htable]
  rfl

end Session

end SidVoice
