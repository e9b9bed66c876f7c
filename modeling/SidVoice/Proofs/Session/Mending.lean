import SidVoice.Proofs.Session.Answered

/-!
# Failing requests leave a session usable

A request for a combined sample builds its table before it looks at the phase, so a request that
fails for its phase has done what a request for the table does. Every other request that fails
has done nothing. A run is *mended* by putting the request for the table in place of each failing
request for a combined sample and leaving out all other failing requests. From then on the two
sessions answer alike.

A mended run may answer a table earlier than the original one, so the tables it has answered can
have other numbers. A request about an answered table is therefore carried over by renumbering:
it is about the same table in both sessions.
-/

namespace SidVoice

namespace Request

/-- The numbers of the answered tables that a request is about. -/
def tables : Request → List Nat
  | .probe table _ _ => [table]
  | .row table _ => [table]
  | .sameSamples first second => [first, second]
  | _ => []

/-- A request about tables that have other numbers. -/
def renumber (number : Nat → Nat) : Request → Request
  | .probe table position phase => .probe (number table) position phase
  | .row table position => .row (number table) position
  | .sameSamples first second => .sameSamples (number first) (number second)
  | request => request

/-- What a request has done when it fails, as requests that do not fail. -/
def residue : Request → List Request
  | .generator number (.pulldown setup _ _) => [.generator number (.build setup)]
  | _ => []

end Request

/-- A store answers every request. -/
theorem TableStore.outcome_handle_ne_error (store : TableStore) (fresh : Nat)
    (request : StoreRequest) (failure : Failure) :
    (store.handle fresh request).outcome ≠ .error failure := by
  cases request with
  | get setup => cases hheld : store.get? setup <;> simp [handle, hheld]
  | obtain setup => simp [handle]
  | stats => simp [handle]

/-- A generator that fails has done nothing, unless it was asked for a combined sample. -/
theorem Generator.handle_of_error {generator : Generator} {fresh number : Nat}
    {request : GeneratorRequest} {failure : Failure}
    (h : (generator.handle fresh request).outcome = .error failure)
    (hresidue : (Request.generator number request).residue = []) :
    generator.handle fresh request = generator.unchanged fresh (.error failure) := by
  cases request with
  | build setup => cases h
  | buildFor text =>
    cases hread : Json.readSetup text with
    | ok setup => simp [handle, hread, withTable] at h
    | error e =>
      simp only [handle, hread] at h ⊢
      rw [← h]
      rfl
  | pulldown setup combination phase => cases hresidue
  | basic wave phase =>
    rw [← h]
    rfl
  | basicTable => cases h
  | stats => cases h
  | voice setup control phase =>
    by_cases hphase : phase.toNat < phaseCount
    · -- the phase is good, so the samples of the voice are found
      cases hselection : (Selection.ofControl control).pulldown with
      | none => simp [handle, basicSample_eq, hphase, hselection, unchanged] at h
      | some combination =>
        simp [handle, basicSample_eq, hphase, hselection, withTable,
          SampleMatrix.sample_of_lt _ _ hphase, sampleAnswer] at h
    · simp only [handle, basicSample_eq, hphase, dif_neg, not_false_eq_true] at h ⊢
      rw [← h]
      rfl

namespace Session

/-- The number that a numbered table has in another session. -/
def counterpart (session other : Session) (number : Nat) : Nat :=
  (session.tables[number]?.bind other.number?).getD number

/-- A request as it is made in the mended run: as it is if it is answered, and otherwise reduced
to what it does. -/
def mend (session other : Session) (request : Request) : List Request :=
  match (session.step request).2.outcome with
  | .ok _ => [request.renumber (session.counterpart other)]
  | .error _ => request.residue

/-- The mended run. -/
def mended (session other : Session) : List Request → List Request
  | [] => []
  | request :: rest =>
    session.mend other request ++
      (session.step request).1.mended (other.run (session.mend other request)).1 rest

/-- Another session has the same stores, generators and identities, and has answered at least the
same tables. -/
structure Agrees (session other : Session) : Prop where
  /-- The stores are the same. -/
  stores : other.stores = session.stores
  /-- The generators are the same. -/
  generators : other.generators = session.generators
  /-- The next free identity is the same. -/
  fresh : other.fresh = session.fresh
  /-- Every table that has been answered has been answered there. -/
  tables : ∀ shared ∈ session.tables, shared ∈ other.tables

section Failing

variable {session : Session} {number : Nat} {generator : Generator}

theorem set_of_live? {α : Type} {instances : List (Option α)} {number : Nat} {value : α}
    (h : live? instances number = some value) :
    instances.set number (some value) = instances := by
  have hvalue : instances[number]? = some (some value) := Option.join_eq_some_iff.mp h
  obtain ⟨hlt, hget⟩ := List.getElem?_eq_some_iff.mp hvalue
  rw [← hget, List.set_getElem_self]

/-- A generator that only reports a failure leaves the session as it is. -/
theorem afterGenerator_unchanged (hlive : live? session.generators number = some generator)
    (failure : Failure) :
    session.afterGenerator number (generator.unchanged session.fresh (.error failure)) =
      (session, ⟨.error failure, []⟩) := by
  simp [afterGenerator, Generator.unchanged, set_of_live? hlive, noteAnswer]

/-- A combined sample at a bad phase fails after its table has been built or found. -/
theorem step_pulldown_of_wide (hlive : live? session.generators number = some generator)
    (setup : Setup) (combination : Combination) {phase : UInt16}
    (hphase : phaseCount ≤ phase.toNat) :
    (session.step (.generator number (.pulldown setup combination phase))).2 =
      ⟨.error (.fault (.widePhase phase)),
        (session.step (.generator number (.build setup))).2.log⟩ := by
  simp [step, hlive, afterGenerator, Generator.handle, Generator.withTable,
    SampleMatrix.sample_of_wide _ _ hphase, Generator.sampleAnswer]

/-- An answer with a sample numbers no table. -/
theorem noteAnswer_sampleAnswer (session : Session) (sample : Except Fault Int16) :
    session.noteAnswer (Generator.sampleAnswer sample .sample) = session := by
  cases sample <;> rfl

/-- A combined sample does to a session what its table does, but answers no table. -/
theorem step_pulldown (session : Session) (number : Nat) (setup : Setup)
    (combination : Combination) (phase : UInt16) :
    (session.step (.generator number (.pulldown setup combination phase))).1 =
      { (session.step (.generator number (.build setup))).1 with tables := session.tables } := by
  cases hlive : live? session.generators number with
  | none => simp [step, hlive, reply]
  | some generator =>
    let got := generator.store.obtain session.fresh setup
    let next : Session :=
      { session with
        generators := session.generators.set number (some { generator with store := got.store })
        fresh := got.fresh }
    have hbuild : (session.step (.generator number (.build setup))).1 =
        next.noteAnswer (.ok (.table got.table)) := by
      simp only [step, hlive]
      rfl
    have hpulldown : (session.step (.generator number (.pulldown setup combination phase))).1 =
        next := by
      simp only [step, hlive]
      exact noteAnswer_sampleAnswer next _
    obtain ⟨tables, hnoted⟩ := next.noteAnswer_eq (.ok (.table got.table))
    rw [hbuild, hpulldown, hnoted]

/-- A basic sample at a bad phase fails and does nothing. -/
theorem step_basic_of_wide (hlive : live? session.generators number = some generator)
    (wave : BasicWave) {phase : UInt16} (hphase : phaseCount ≤ phase.toNat) :
    session.step (.generator number (.basic wave phase)) =
      (session, ⟨.error (.fault (.widePhase phase)), []⟩) := by
  rw [← afterGenerator_unchanged hlive]
  simp [step, hlive, Generator.handle, Generator.basicSample,
    SampleMatrix.sample_of_wide _ _ hphase, Generator.sampleAnswer]

/-- A stored setup that cannot be read fails and does nothing. -/
theorem step_buildFor_of_error (hlive : live? session.generators number = some generator)
    {text : String} {e : Json.ReadError} (hread : Json.readSetup text = .error e) :
    session.step (.generator number (.buildFor text)) =
      (session, ⟨.error (.unreadable e), []⟩) := by
  rw [← afterGenerator_unchanged hlive]
  simp [step, hlive, Generator.handle, hread]

/-- A request that fails has done nothing, unless it was for a combined sample. -/
theorem step_of_error {request : Request} {failure : Failure}
    (h : (session.step request).2.outcome = .error failure) (hresidue : request.residue = []) :
    (session.step request).1 = session := by
  cases request with
  | openStore => cases h
  | openGenerator => cases h
  | closeStore number =>
    cases hlive : live? session.stores number with
    | none => simp [step, hlive, reply]
    | some store => simp [step, hlive] at h
  | closeGenerator number =>
    cases hlive : live? session.generators number with
    | none => simp [step, hlive, reply]
    | some generator => simp [step, hlive] at h
  | store number request =>
    cases hlive : live? session.stores number with
    | none => simp [step, hlive, reply]
    | some store =>
      simp only [step, hlive, afterStore] at h
      exact absurd h (store.outcome_handle_ne_error session.fresh request failure)
  | generator number request =>
    cases hlive : live? session.generators number with
    | none => simp [step, hlive, reply]
    | some generator =>
      simp only [step, hlive] at h ⊢
      rw [Generator.handle_of_error h hresidue, afterGenerator_unchanged hlive]
  | sharedBasic wave phase => rfl
  | sharedIsOne => rfl
  | probe table row phase => rfl
  | row table row => rfl
  | sameSamples first second => rfl

end Failing

section Agreeing

variable {session other : Session}

/-- Agreeing sessions answer requests alike, apart from those about answered tables. -/
theorem Agrees.step_same (h : session.Agrees other) {request : Request}
    (hnone : request.tables = []) :
    (other.step request).2 = (session.step request).2 ∧
      (other.step request).1.stores = (session.step request).1.stores ∧
      (other.step request).1.generators = (session.step request).1.generators ∧
      (other.step request).1.fresh = (session.step request).1.fresh := by
  cases request with
  | openStore => simp [step, h.stores, h.generators, h.fresh]
  | openGenerator => simp [step, h.stores, h.generators, h.fresh]
  | closeStore number =>
    cases hlive : live? session.stores number <;>
      simp [step, reply, hlive, h.stores, h.generators, h.fresh]
  | closeGenerator number =>
    cases hlive : live? session.generators number <;>
      simp [step, reply, hlive, h.stores, h.generators, h.fresh]
  | store number request =>
    cases hlive : live? session.stores number <;>
      simp [step, reply, afterStore, hlive, h.stores, h.generators, h.fresh]
  | generator number request =>
    cases hlive : live? session.generators number <;>
      simp [step, reply, afterGenerator, hlive, h.stores, h.generators, h.fresh]
  | sharedBasic wave phase => exact ⟨rfl, h.stores, h.generators, h.fresh⟩
  | sharedIsOne => exact ⟨rfl, h.stores, h.generators, h.fresh⟩
  | probe table row phase => cases hnone
  | row table row => cases hnone
  | sameSamples first second => cases hnone

/-- A number and its counterpart are those of the same table. -/
theorem Agrees.table_counterpart (h : session.Agrees other)
    (hdistinct : ∀ first ∈ other.tables, ∀ second ∈ other.tables,
      first.ident = second.ident → first = second)
    {number : Nat} (hknown : number < session.tables.length) :
    other.table (session.counterpart other number) = session.table number := by
  obtain ⟨shared, hshared⟩ : ∃ shared, session.tables[number]? = some shared :=
    ⟨_, List.getElem?_eq_getElem hknown⟩
  have hmem := h.tables shared (List.mem_of_getElem? hshared)
  obtain ⟨position, hposition⟩ := number?_of_mem hmem
  obtain ⟨known, hknown, hident⟩ := getElem?_of_number? hposition
  have hsame : known = shared := hdistinct known (List.mem_of_getElem? hknown) shared hmem hident
  have hcounterpart : session.counterpart other number = position := by
    simp [counterpart, hshared, hposition]
  rw [hcounterpart, table, table, hknown, hshared, hsame]

/-- Agreeing sessions answer requests alike, once these are renumbered. -/
theorem Agrees.step_renumber (h : session.Agrees other)
    (hdistinct : ∀ first ∈ other.tables, ∀ second ∈ other.tables,
      first.ident = second.ident → first = second)
    (request : Request) (hknown : ∀ number ∈ request.tables, number < session.tables.length) :
    let renumbered := request.renumber (session.counterpart other)
    (other.step renumbered).2 = (session.step request).2 ∧
      (other.step renumbered).1.stores = (session.step request).1.stores ∧
      (other.step renumbered).1.generators = (session.step request).1.generators ∧
      (other.step renumbered).1.fresh = (session.step request).1.fresh := by
  have htable (number : Nat) (hmem : number ∈ request.tables) :=
    h.table_counterpart hdistinct (hknown number hmem)
  cases request with
  | probe table row phase =>
    have hsame := htable table (by simp [Request.tables])
    refine ⟨?_, h.stores, h.generators, h.fresh⟩
    simp [Request.renumber, step, reply, aboutTable, hsame]
  | row table position =>
    have hsame := htable table (by simp [Request.tables])
    refine ⟨?_, h.stores, h.generators, h.fresh⟩
    simp [Request.renumber, step, reply, aboutTable, hsame]
  | sameSamples first second =>
    have hfirst := htable first (by simp [Request.tables])
    have hsecond := htable second (by simp [Request.tables])
    refine ⟨?_, h.stores, h.generators, h.fresh⟩
    simp [Request.renumber, step, reply, aboutTable, hfirst, hsecond]
  | _ => exact h.step_same rfl

/-- A request that is answered is about tables that have been answered. -/
theorem lt_of_outcome_ok {request : Request} {answer : Answer}
    (h : (session.step request).2.outcome = .ok answer) :
    ∀ number ∈ request.tables, number < session.tables.length := by
  have hknown {number : Nat} {about : CombinedTable → Except Failure Answer}
      (habout : session.aboutTable number about = .ok answer) :
      number < session.tables.length := by
    by_contra hlong
    simp [aboutTable, table, List.getElem?_eq_none (Nat.le_of_not_lt hlong)] at habout
  cases request with
  | probe table row phase =>
    simp only [step, reply] at h
    intro number hmem
    rw [List.mem_singleton.mp hmem]
    exact hknown h
  | row table position =>
    simp only [step, reply] at h
    intro number hmem
    rw [List.mem_singleton.mp hmem]
    exact hknown h
  | sameSamples first second =>
    simp only [step, reply] at h
    have hfirst := hknown h
    obtain ⟨shared, hshared⟩ : ∃ shared, session.table first = .ok shared :=
      ⟨_, by rw [table, List.getElem?_eq_getElem hfirst]⟩
    rw [aboutTable, hshared] at h
    have hsecond := hknown h
    intro number hmem
    rcases List.mem_pair.mp hmem with rfl | rfl
    · exact hfirst
    · exact hsecond
  | _ => exact fun number hmem => (List.not_mem_nil hmem).elim

/-- What is answered in both of two agreeing sessions leaves them in agreement. -/
theorem Agrees.answered {past : List Request} (h : session.Agrees (({} : Session).run past).1)
    {request : Request} (hknown : ∀ number ∈ request.tables, number < session.tables.length) :
    (session.step request).1.Agrees ((({} : Session).run past).1.step
      (request.renumber (session.counterpart (({} : Session).run past).1))).1 := by
  obtain ⟨hresponse, hstores, hgenerators, hfresh⟩ :=
    h.step_renumber (eq_of_ident_run past) request hknown
  refine ⟨hstores, hgenerators, hfresh, fun shared hmem => ?_⟩
  rcases mem_tables_step hmem with hold | hanswered
  · exact (prefix_tables_step _ _).subset (h.tables shared hold)
  · exact mem_tables_of_outcome past (hresponse ▸ hanswered)

/-- A request and its mended form lead agreeing sessions to agreeing ones. -/
theorem Agrees.mend {past : List Request} (h : session.Agrees (({} : Session).run past).1)
    (request : Request) :
    (session.step request).1.Agrees ((({} : Session).run past).1.run
      (session.mend (({} : Session).run past).1 request)).1 := by
  rw [Session.mend]
  cases houtcome : (session.step request).2.outcome with
  | ok answer => exact h.answered (lt_of_outcome_ok houtcome)
  | error failure =>
    by_cases hresidue : request.residue = []
    · rw [step_of_error houtcome hresidue, hresidue]
      exact h
    · obtain ⟨number, setup, combination, phase, rfl⟩ : ∃ number setup combination phase,
          request = .generator number (.pulldown setup combination phase) := by
        revert hresidue
        fun_cases Request.residue request <;> simp
      -- the table that the sample needs is built in both sessions
      let build : Request := .generator number (.build setup)
      have hbuilt : (session.step build).1.Agrees ((({} : Session).run past).1.step build).1 :=
        h.answered fun table hmem => (List.not_mem_nil hmem).elim
      rw [step_pulldown]
      change Agrees _ ((({} : Session).run past).1.step build).1
      refine ⟨hbuilt.stores, hbuilt.generators, hbuilt.fresh, fun shared hmem => ?_⟩
      exact (prefix_tables_step _ _).subset (h.tables shared hmem)

/-- A run and its mended form lead agreeing sessions to agreeing ones. -/
theorem Agrees.run_mended {past : List Request} (h : session.Agrees (({} : Session).run past).1)
    (requests : List Request) :
    (session.run requests).1.Agrees ((({} : Session).run past).1.run
      (session.mended (({} : Session).run past).1 requests)).1 := by
  induction requests generalizing session past with
  | nil => exact h
  | cons request rest ih =>
    have hfirst := h.mend request
    rw [mended, run_append]
    have hreached : ((({} : Session).run past).1.run
        (session.mend (({} : Session).run past).1 request)).1 =
        (({} : Session).run (past ++ session.mend (({} : Session).run past).1 request)).1 := by
      rw [run_append]
    rw [hreached] at hfirst ⊢
    exact ih hfirst

end Agreeing

/-- A generator that fails for a combined sample at a bad phase has done what its table needs and
nothing else; one that fails for a basic sample or for a stored setup has done nothing. So after
any run, a session answers every request as if each failing request for a combined sample had
been for its table, and no other failing request had been made. -/
theorem answers_mended (requests : List Request) :
    (∀ (session : Session) (number : Nat) (generator : Generator),
      live? session.generators number = some generator →
      (∀ (setup : Setup) (combination : Combination) (phase : UInt16),
        phaseCount ≤ phase.toNat →
        let failed := session.step (.generator number (.pulldown setup combination phase))
        let built := session.step (.generator number (.build setup))
        failed.2 = ⟨.error (.fault (.widePhase phase)), built.2.log⟩ ∧
          failed.1 = { built.1 with tables := session.tables }) ∧
      (∀ (wave : BasicWave) (phase : UInt16), phaseCount ≤ phase.toNat →
        session.step (.generator number (.basic wave phase)) =
          (session, ⟨.error (.fault (.widePhase phase)), []⟩)) ∧
      (∀ (text : String) (e : Json.ReadError), Json.readSetup text = .error e →
        session.step (.generator number (.buildFor text)) =
          (session, ⟨.error (.unreadable e), []⟩))) ∧
    (∀ phase : UInt16, (Fault.widePhase phase).message =
      "phase " ++ Text.hexadecimal phase.toNat ++ " exceeds 12 bits") ∧
    (let session := (({} : Session).run requests).1
      let other := (({} : Session).run (({} : Session).mended {} requests)).1
      session.Agrees other ∧
      ∀ later : Request, (∀ table ∈ later.tables, table < session.tables.length) →
        (other.step (later.renumber (session.counterpart other))).2 = (session.step later).2) := by
  refine ⟨?_, fun phase => rfl, ?_⟩
  · intro session number generator hlive
    refine ⟨?_, ?_, ?_⟩
    · intro setup combination phase hphase
      exact ⟨step_pulldown_of_wide hlive setup combination hphase,
        session.step_pulldown number setup combination phase⟩
    · intro wave phase hphase
      exact step_basic_of_wide hlive wave hphase
    · intro text e hread
      exact step_buildFor_of_error hlive hread
  · intro session other
    have hstart : ({} : Session).Agrees (({} : Session).run []).1 :=
      ⟨rfl, rfl, rfl, fun shared hmem => hmem⟩
    have hagrees : session.Agrees other := hstart.run_mended requests
    refine ⟨hagrees, fun later hknown => ?_⟩
    exact (hagrees.step_renumber (eq_of_ident_run _) later hknown).1

/-- A generator that has failed for a weak 8580 at phase 4096, and then for a basic sample, has
built the table and answers the next request for it as a hit. -/
theorem answers_mended_weakMos8580 :
    let setup : Setup := ⟨.mos8580, .weak⟩
    let requests : List Request := [.openGenerator,
      .generator 0 (.pulldown setup .noisePulse 0x1000), .generator 0 (.basic .triangle 0xffff)]
    let session := (({} : Session).run requests).1
    let other := (({} : Session).run [.openGenerator, .generator 0 (.build setup)]).1
    (session.step (.generator 0 (.pulldown setup .noisePulse 0x1000))).2.outcome =
        .error (.fault (.widePhase 0x1000)) ∧
      session.step (.generator 0 (.basic .triangle 0xffff)) =
        (session, ⟨.error (.fault (.widePhase 0xffff)), []⟩) ∧
      (session.step (.generator 0 (.build setup))).2 =
        (other.step (.generator 0 (.build setup))).2 ∧
      (session.step (.generator 0 (.build setup))).2.log = [.hit setup] := by
  intro setup requests session other
  obtain ⟨hfailing, -, -, hlater⟩ := answers_mended requests
  obtain ⟨hpulldown, hbasic, -⟩ := hfailing session 0 _ rfl
  refine ⟨?_, hbasic .triangle 0xffff (by decide), ?_, rfl⟩
  · exact congrArg Response.outcome (hpulldown setup .noisePulse 0x1000 (by decide)).1
  · exact (hlater (.generator 0 (.build setup)) fun table hmem => (List.not_mem_nil hmem).elim).symm

end Session

end SidVoice
