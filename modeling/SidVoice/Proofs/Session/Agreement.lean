import SidVoice.Proofs.Session.Register

/-!
# Kept tables agree with the plain computation

A table is built once and answered many times, from a place found by the slot of its setup. The
plain computation works a sample out from the fitted profile of setup and combination, without
any table, slot or row number. Whatever has happened in a session, every table that is answered
for a setup agrees with the plain computation for that setup in every cell, and so does every
single sample.
-/

namespace SidVoice

/-- The pulldown of a phase under the fitted profile of a setup and combination. -/
def Setup.plain (setup : Setup) (combination : Combination) (phase : Phase) : Int16 :=
  let profile := Pulldown.fitted setup combination
  Pulldown.sample profile.weights profile.topBit profile.pulse profile.threshold phase.word

/-- Whether both ways of reading a cell of a table give the plain sample of a setup. -/
def Setup.Plain (setup : Setup) (table : CombinedTable) : Prop :=
  ∀ (combination : Combination) (phase : Phase),
    table.entry combination.row phase = .ok (setup.plain combination phase) ∧
      table.sample combination.row phase.word = .ok (setup.plain combination phase)

/-- A cell of the table of a setup is the plain sample. -/
theorem Setup.cell_table (setup : Setup) (combination : Combination) (phase : Phase) :
    setup.table.cell combination.row phase = setup.plain combination phase := by
  rw [SampleMatrix.cell, get_table, get_pulldownRow]
  rfl

/-- A good phase of a table that is read is the plain sample. -/
theorem Setup.sample_table (setup : Setup) (combination : Combination) (phase : Phase) :
    setup.table.sample combination.row phase.word = .ok (setup.plain combination phase) := by
  have hphase : phase.word.toNat < phaseCount := by
    rw [Phase.toNat_word]
    exact phase.isLt
  have hsame : (⟨phase.word.toNat, hphase⟩ : Phase) = phase := Fin.ext phase.toNat_word
  rw [SampleMatrix.sample_of_lt _ _ hphase, hsame, cell_table]

theorem Setup.plain_table (setup : Setup) : setup.Plain setup.table := by
  intro combination phase
  refine ⟨?_, setup.sample_table combination phase⟩
  rw [SampleMatrix.entry_of_lt, cell_table]

namespace Session

/-- What a place obtains for a setup has the samples of the setup. -/
theorem Registered.table_obtain {session : Session} {owners : List (Place × Setup)}
    (h : session.Registered owners) {place : Place} {store : TableStore}
    (hstore : session.storeAt? place = some store) (setup : Setup) :
    (store.obtain session.fresh setup).table.table = setup.table := by
  cases hheld : store.get? setup with
  | none => rw [TableStore.obtain_of_none _ hheld]
  | some shared =>
    have htable : session.tableAt? place setup = some shared := by
      rw [tableAt?_of_storeAt? hstore, hheld]
    rw [TableStore.obtain_of_some _ hheld]
    exact (h.entry_of_tableAt? htable).1

/-- A place that is alive holds a table after a request that needs it. -/
theorem tableAt?_step_of_need? {session : Session} {request : Request} {place : Place}
    {setup : Setup} (hneed : request.need? = some (place, setup))
    (halive : (session.storeAt? place).isSome) :
    (session.step request).1.tableAt? place setup =
      some ((session.tableAt? place setup).getD ⟨session.fresh, setup.table⟩) := by
  have hclose : request ≠ place.close := by
    rintro rfl
    cases place <;> simp [Place.close, Request.need?] at hneed
  rw [tableAt?_step hclose, if_pos (served?_eq_some_iff.mpr ⟨hneed, halive⟩)]

/-- After any run, a table that is answered for a setup agrees with the plain computation; a
place that is alive does answer a request that builds; and a generator that is alive answers a
combined sample with the plain one. -/
theorem answers_plain (past : List Request) (setup : Setup) :
    let session := (({} : Session).run past).1
    (∀ (request : Request) (place : Place) (shared : SharedTable),
      request.asks? = some (place, setup) →
      (session.step request).2.outcome = .ok (.table shared) → setup.Plain shared.table) ∧
    (∀ (request : Request) (place : Place),
      request.asks? = some (place, setup) → request.need? = some (place, setup) →
      (session.storeAt? place).isSome →
      ∃ shared, (session.step request).2.outcome = .ok (.table shared)) ∧
    (∀ (number : Nat) (combination : Combination) (phase : Phase),
      (session.storeAt? (.generator number)).isSome →
      (session.step (.generator number (.pulldown setup combination phase.word))).2.outcome =
        .ok (.sample (setup.plain combination phase))) := by
  intro session
  have hregistered := registered_run past
  refine ⟨?_, ?_, ?_⟩
  · intro request place shared hasks houtcome
    have htable := tableAt?_of_outcome hasks houtcome
    obtain ⟨hsamples, -⟩ := (hregistered.step request).entry_of_tableAt? htable
    rw [hsamples]
    exact setup.plain_table
  · intro request place hasks hneed halive
    exact ⟨_, outcome_of_tableAt? hasks halive (tableAt?_step_of_need? hneed halive)⟩
  · intro number combination phase halive
    cases hlive : live? session.generators number with
    | none => simp [storeAt?, hlive] at halive
    | some generator =>
      have hat : session.storeAt? (.generator number) = some generator.store := by
        simp [storeAt?, hlive]
      simp only [step, hlive, afterGenerator]
      rw [Generator.outcome_pulldown, hregistered.table_obtain hat, setup.sample_table]
      rfl

/-- A generator that has been used for another strength first answers a weak 8580 with a table
that is plain, and its samples are plain as well. -/
theorem answers_plain_weakMos8580 :
    let past : List Request := [.openGenerator, .generator 0 (.build ⟨.mos8580, .strong⟩)]
    let session := (({} : Session).run past).1
    let setup : Setup := ⟨.mos8580, .weak⟩
    (∃ shared, (session.step (.generator 0 (.build setup))).2.outcome = .ok (.table shared) ∧
      setup.Plain shared.table) ∧
    (session.step (.generator 0 (.pulldown setup .pulseTriangle 0x800))).2.outcome =
      .ok (.sample (setup.plain .pulseTriangle ⟨0x800, by decide⟩)) := by
  intro past session setup
  obtain ⟨hplain, hanswered, hsample⟩ := answers_plain past setup
  obtain ⟨shared, hshared⟩ := hanswered (.generator 0 (.build setup)) (.generator 0) rfl rfl rfl
  refine ⟨⟨shared, hshared, hplain _ _ shared rfl hshared⟩, ?_⟩
  exact hsample 0 .pulseTriangle ⟨0x800, by decide⟩ rfl

end Session

end SidVoice
