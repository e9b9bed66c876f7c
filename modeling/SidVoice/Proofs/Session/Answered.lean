import SidVoice.Proofs.Session.Sharing

/-!
# Tables that have been answered

A session numbers the tables it has answered, in the order of their first answers. A number stays
with its table, whatever happens to the place that built it. In a reachable session the numbered
tables are told apart by their identities, so a table is found again under its number in any
session that has answered it.
-/

namespace SidVoice

namespace SharedTable

/-- Whether a register has a place for the identity of a table, with the setup of its samples. -/
def EnteredIn (shared : SharedTable) (owners : List (Place × Setup)) : Prop :=
  ∃ place setup, shared.table = setup.table ∧ owners[shared.ident]? = some (place, setup)

/-- Tables in one register are told apart by their identities. -/
theorem EnteredIn.eq_of_ident {owners : List (Place × Setup)} {first second : SharedTable}
    (hfirst : first.EnteredIn owners) (hsecond : second.EnteredIn owners)
    (hident : first.ident = second.ident) : first = second := by
  obtain ⟨place, setup, hsamples, hentry⟩ := hfirst
  obtain ⟨place', setup', hsamples', hentry'⟩ := hsecond
  rw [hident, hentry'] at hentry
  obtain ⟨rfl, rfl⟩ := Prod.mk.inj (Option.some.inj hentry)
  obtain ⟨ident, table⟩ := first
  obtain ⟨ident', table'⟩ := second
  exact congr (congrArg SharedTable.mk hident) (hsamples.trans hsamples'.symm)

/-- A register that grows keeps its tables. -/
theorem EnteredIn.append {owners : List (Place × Setup)} {shared : SharedTable}
    (h : shared.EnteredIn owners) (more : List (Place × Setup)) :
    shared.EnteredIn (owners ++ more) := by
  obtain ⟨place, setup, hsamples, hentry⟩ := h
  have hlt : shared.ident < owners.length := (List.getElem?_eq_some_iff.mp hentry).1
  exact ⟨place, setup, hsamples, by rw [List.getElem?_append_left hlt, hentry]⟩

end SharedTable

/-- Only a request that asks for a table is answered with one. -/
theorem TableStore.asks?_of_outcome {store : TableStore} {fresh : Nat} {request : StoreRequest}
    {shared : SharedTable} (h : (store.handle fresh request).outcome = .ok (.table shared)) :
    ∃ setup, request.asks? = some setup := by
  cases request with
  | get setup => exact ⟨setup, rfl⟩
  | obtain setup => exact ⟨setup, rfl⟩
  | stats => simp [handle] at h

namespace Generator

/-- The answer with a sample is none with a table. -/
theorem sampleAnswer_ne_table {sample : Except Fault Int16} {answer : Int16 → Answer}
    {shared : SharedTable} (h : ∀ value, answer value ≠ .table shared) :
    sampleAnswer sample answer ≠ .ok (.table shared) := by
  cases sample with
  | ok value => simpa [sampleAnswer] using h value
  | error fault => simp [sampleAnswer]

/-- Only a request that asks for a table is answered with one. -/
theorem asks?_of_outcome {generator : Generator} {fresh : Nat} {request : GeneratorRequest}
    {shared : SharedTable} (h : (generator.handle fresh request).outcome = .ok (.table shared)) :
    ∃ setup, request.asks? = some setup := by
  cases request with
  | build setup => exact ⟨setup, rfl⟩
  | buildFor text =>
    cases hread : Json.readSetup text with
    | ok setup => exact ⟨setup, by simp [GeneratorRequest.asks?, hread, Except.toOption]⟩
    | error e => simp [handle, hread, unchanged] at h
  | pulldown setup combination phase =>
    exact absurd h (sampleAnswer_ne_table fun value => by simp)
  | basic wave phase => exact absurd h (sampleAnswer_ne_table fun value => by simp)
  | basicTable => simp [handle, unchanged] at h
  | stats => simp [handle, unchanged] at h
  | voice setup control phase =>
    cases hbasic : generator.basicSample (Selection.ofControl control).basic phase with
    | error fault => simp [handle, hbasic, unchanged] at h
    | ok basic =>
      cases hselection : (Selection.ofControl control).pulldown with
      | none => simp [handle, hbasic, hselection, unchanged] at h
      | some combination =>
        simp only [handle, hbasic, hselection] at h
        exact absurd h (sampleAnswer_ne_table fun value => by simp)

end Generator

namespace Session

section Growth

variable (session : Session)

/-- Tables that have been answered keep their numbers when another one is. -/
theorem prefix_tables_noteAnswer {next : Session} (h : next.tables = session.tables)
    (outcome : Except Failure Answer) : session.tables <+: (next.noteAnswer outcome).tables := by
  rw [← h]
  cases outcome with
  | error failure => exact List.prefix_rfl
  | ok answer =>
    cases answer with
    | table shared =>
      rw [noteAnswer, note]
      cases next.number? shared with
      | none => exact List.prefix_append _ _
      | some number => exact List.prefix_rfl
    | _ => exact List.prefix_rfl

/-- Tables that have been answered stay as they are, under their numbers. -/
theorem prefix_tables_step (request : Request) :
    session.tables <+: (session.step request).1.tables := by
  cases request with
  | store number request =>
    cases hlive : live? session.stores number with
    | none => simp [step, hlive, reply]
    | some store =>
      simp only [step, hlive, afterStore]
      exact session.prefix_tables_noteAnswer (by rfl) _
  | generator number request =>
    cases hlive : live? session.generators number with
    | none => simp [step, hlive, reply]
    | some generator =>
      simp only [step, hlive, afterGenerator]
      exact session.prefix_tables_noteAnswer (by rfl) _
  | closeStore number => cases hlive : live? session.stores number <;> simp [step, hlive, reply]
  | closeGenerator number =>
    cases hlive : live? session.generators number <;> simp [step, hlive, reply]
  | _ => exact List.prefix_rfl

/-- Closing a place takes no table away that has been answered. -/
theorem tables_step_close (place : Place) :
    (session.step place.close).1.tables = session.tables := by
  cases place with
  | store number =>
    cases hlive : live? session.stores number <;> simp [Place.close, step, hlive, reply]
  | generator number =>
    cases hlive : live? session.generators number <;> simp [Place.close, step, hlive, reply]

end Growth

section Members

variable {session : Session}

/-- The table that is numbered for an answer is the answered one. -/
theorem mem_tables_noteAnswer {next : Session} {outcome : Except Failure Answer}
    {shared : SharedTable} (h : shared ∈ (next.noteAnswer outcome).tables) :
    shared ∈ next.tables ∨ outcome = .ok (.table shared) := by
  cases outcome with
  | error failure => exact .inl h
  | ok answer =>
    cases answer with
    | table answered =>
      rw [noteAnswer, note] at h
      cases hnumber : next.number? answered with
      | some number =>
        rw [hnumber] at h
        exact .inl h
      | none =>
        rw [hnumber] at h
        rcases List.mem_append.mp h with hold | hnew
        · exact .inl hold
        · exact .inr (by rw [List.mem_singleton.mp hnew])
    | _ => exact .inl h

/-- Only an answered table is numbered. -/
theorem mem_tables_step {request : Request} {shared : SharedTable}
    (h : shared ∈ (session.step request).1.tables) :
    shared ∈ session.tables ∨ (session.step request).2.outcome = .ok (.table shared) := by
  cases request with
  | store number request =>
    cases hlive : live? session.stores number with
    | none => exact .inl (by simpa [step, hlive, reply] using h)
    | some store =>
      simp only [step, hlive, afterStore] at h ⊢
      exact (mem_tables_noteAnswer h).imp_left fun hold => hold
  | generator number request =>
    cases hlive : live? session.generators number with
    | none => exact .inl (by simpa [step, hlive, reply] using h)
    | some generator =>
      simp only [step, hlive, afterGenerator] at h ⊢
      exact (mem_tables_noteAnswer h).imp_left fun hold => hold
  | closeStore number =>
    have hsame := session.tables_step_close (.store number)
    exact .inl (hsame ▸ h)
  | closeGenerator number =>
    have hsame := session.tables_step_close (.generator number)
    exact .inl (hsame ▸ h)
  | _ => exact .inl h

/-- An answer about a table is none with a table. -/
theorem aboutTable_ne_table {number : Nat} {answer : CombinedTable → Except Failure Answer}
    {shared : SharedTable} (h : ∀ samples, answer samples ≠ .ok (.table shared)) :
    session.aboutTable number answer ≠ .ok (.table shared) := by
  rw [aboutTable]
  cases session.table number with
  | ok known => exact h known.table
  | error failure => simp

/-- Only a request that asks for a table is answered with one. -/
theorem asks?_of_outcome {request : Request} {shared : SharedTable}
    (h : (session.step request).2.outcome = .ok (.table shared)) :
    ∃ place setup, request.asks? = some (place, setup) := by
  cases request with
  | openStore => simp [step] at h
  | openGenerator => simp [step] at h
  | closeStore number =>
    cases hlive : live? session.stores number <;> simp [step, hlive, reply] at h
  | closeGenerator number =>
    cases hlive : live? session.generators number <;> simp [step, hlive, reply] at h
  | store number request =>
    cases hlive : live? session.stores number with
    | none => simp [step, hlive, reply] at h
    | some store =>
      simp only [step, hlive, afterStore] at h
      obtain ⟨setup, hasks⟩ := TableStore.asks?_of_outcome h
      exact ⟨.store number, setup, by simp [Request.asks?, hasks]⟩
  | generator number request =>
    cases hlive : live? session.generators number with
    | none => simp [step, hlive, reply] at h
    | some generator =>
      simp only [step, hlive, afterGenerator] at h
      obtain ⟨setup, hasks⟩ := Generator.asks?_of_outcome h
      exact ⟨.generator number, setup, by simp [Request.asks?, hasks]⟩
  | sharedBasic wave phase =>
    exact absurd h (Generator.sampleAnswer_ne_table fun value => by simp)
  | sharedIsOne => simp [step] at h
  | probe table row phase =>
    simp only [step, reply] at h
    refine (aboutTable_ne_table (fun samples => ?_) h).elim
    exact Generator.sampleAnswer_ne_table fun value => by simp
  | row table row =>
    simp only [step, reply] at h
    refine (aboutTable_ne_table (fun samples => ?_) h).elim
    cases samples.row row <;> simp
  | sameSamples first second =>
    simp only [step, reply] at h
    refine (aboutTable_ne_table (fun samples => ?_) h).elim
    exact aboutTable_ne_table fun others => by simp

/-- The numbered tables of a session are entered in a register. -/
def Noted (session : Session) (owners : List (Place × Setup)) : Prop :=
  ∀ shared ∈ session.tables, shared.EnteredIn owners

/-- A table that is answered is entered in the register with the tables that have been built. -/
theorem Noted.step {owners : List (Place × Setup)} (h : session.Noted owners)
    (hregistered : session.Registered owners) (request : Request) :
    (session.step request).1.Noted (owners ++ (session.built? request).toList) := by
  intro shared hmem
  rcases mem_tables_step hmem with hold | hanswered
  · exact (h shared hold).append _
  · obtain ⟨place, setup, hasks⟩ := asks?_of_outcome hanswered
    exact ⟨place, setup, hregistered.entry_of_outcome hasks hanswered⟩

/-- A run enters the tables that are answered in the register. -/
theorem Noted.run {owners : List (Place × Setup)} (h : session.Noted owners)
    (hregistered : session.Registered owners) (requests : List Request) :
    (session.run requests).1.Noted (owners ++ session.built requests) := by
  induction requests generalizing session owners with
  | nil => simpa [Session.run, Session.built] using h
  | cons request rest ih =>
    have hrest := ih (h.step hregistered request) (hregistered.step request)
    rw [List.append_assoc] at hrest
    exact hrest

/-- In every reachable session the numbered tables are registered. -/
theorem noted_run (requests : List Request) :
    (({} : Session).run requests).1.Noted (({} : Session).built requests) := by
  have hstart : ({} : Session).Noted [] := fun shared hmem => (List.not_mem_nil hmem).elim
  exact hstart.run registered_empty requests

/-- In every reachable session the numbered tables are told apart by their identities. -/
theorem eq_of_ident_run (past : List Request) :
    ∀ first ∈ (({} : Session).run past).1.tables, ∀ second ∈ (({} : Session).run past).1.tables,
      first.ident = second.ident → first = second :=
  fun first hfirst second hsecond =>
    (noted_run past first hfirst).eq_of_ident (noted_run past second hsecond)

/-- The number of a table leads to a table of its identity. -/
theorem getElem?_of_number? {shared : SharedTable} {number : Nat}
    (h : session.number? shared = some number) :
    ∃ known, session.tables[number]? = some known ∧ known.ident = shared.ident := by
  obtain ⟨hlt, hident, -⟩ := List.findIdx?_eq_some_iff_getElem.mp h
  exact ⟨session.tables[number], List.getElem?_eq_getElem hlt, by simpa using hident⟩

/-- A table is numbered if it has been answered. -/
theorem number?_of_mem {shared : SharedTable} (h : shared ∈ session.tables) :
    ∃ number, session.number? shared = some number := by
  cases hnumber : session.number? shared with
  | some number => exact ⟨number, rfl⟩
  | none =>
    have hnone := List.findIdx?_eq_none_iff.mp hnumber shared h
    simp at hnone

/-- Numbering a table leaves its identity among the numbered ones. -/
theorem exists_mem_tables_note (session : Session) (shared : SharedTable) :
    ∃ known ∈ (session.note shared).tables, known.ident = shared.ident := by
  rw [note]
  cases hnumber : session.number? shared with
  | none => exact ⟨shared, List.mem_append_right _ List.mem_cons_self, rfl⟩
  | some number =>
    obtain ⟨known, hknown, hident⟩ := getElem?_of_number? hnumber
    exact ⟨known, List.mem_of_getElem? hknown, hident⟩

/-- The identity of an answered table is among the numbered ones. -/
theorem exists_mem_tables_of_outcome {request : Request} {shared : SharedTable}
    (h : (session.step request).2.outcome = .ok (.table shared)) :
    ∃ known ∈ (session.step request).1.tables, known.ident = shared.ident := by
  obtain ⟨place, setup, hasks⟩ := asks?_of_outcome h
  cases request with
  | store number request =>
    cases hlive : live? session.stores number with
    | none => simp [step, hlive, reply] at h
    | some store =>
      simp only [step, hlive, afterStore] at h ⊢
      rw [h]
      exact exists_mem_tables_note _ shared
  | generator number request =>
    cases hlive : live? session.generators number with
    | none => simp [step, hlive, reply] at h
    | some generator =>
      simp only [step, hlive, afterGenerator] at h ⊢
      rw [h]
      exact exists_mem_tables_note _ shared
  | _ => simp [Request.asks?] at hasks

/-- In a reachable session a table that is answered is numbered. -/
theorem mem_tables_of_outcome (past : List Request) {request : Request} {shared : SharedTable}
    (h : ((({} : Session).run past).1.step request).2.outcome = .ok (.table shared)) :
    shared ∈ ((({} : Session).run past).1.step request).1.tables := by
  obtain ⟨known, hknown, hident⟩ := exists_mem_tables_of_outcome h
  obtain ⟨place, setup, hasks⟩ := asks?_of_outcome h
  have hregistered := registered_run past
  have hsame : known = shared := by
    refine SharedTable.EnteredIn.eq_of_ident ?_ ⟨place, setup, hregistered.entry_of_outcome hasks h⟩
      hident
    exact (noted_run past).step hregistered request known hknown
  exact hsame ▸ hknown

end Members

end Session

end SidVoice
