import SidVoice.Proofs.Session.Effect
import SidVoice.Proofs.Table.Filling
import SidVoice.Proofs.Table.Shapes

/-!
# Basic samples at any time

A generator gets its basic table when it is opened. No request changes it: what a generator keeps
between requests is its store. So in every reachable session each generator that is alive answers
with the same table and the same samples, and so does the generator that all share, which is in no
session.

The samples have the closed forms of their waveforms. A phase of more than twelve bits is a fault
for every waveform.
-/

namespace SidVoice

/-- No request changes the basic table of a generator. -/
theorem Generator.basic_handle (generator : Generator) (fresh : Nat) (request : GeneratorRequest) :
    (generator.handle fresh request).state.basic = generator.basic := by
  cases hneed : request.need? with
  | none =>
    obtain ⟨hstate, -, -⟩ := generator.handle_of_need?_none fresh hneed
    rw [hstate]
  | some setup =>
    obtain ⟨hstate, -, -⟩ := generator.handle_of_need?_some fresh hneed
    rw [hstate]

/-- Whether basic samples are answered from a table: at a phase with its entry, which is the number
of the waveform there, and otherwise with a fault. -/
structure AnswersBasic (table : SampleMatrix 4)
    (ask : BasicWave → UInt16 → Except Failure Answer) : Prop where
  /-- At a phase the sample is the entry of the table. -/
  inside : ∀ (wave : BasicWave) (phase : Phase), ∃ (sample : Int16) (n : Nat),
    ask wave phase.word = .ok (.sample sample) ∧ table.entry wave.row phase = .ok sample ∧
      wave.Draws phase n ∧ sample.toInt = n
  /-- A word of more bits is a fault. -/
  outside : ∀ (wave : BasicWave) (phase : UInt16), phaseCount ≤ phase.toNat →
    ask wave phase = .error (.fault (.widePhase phase))

/-- Samples read off the basic table are those of the waveforms. -/
theorem answersBasic_basicTable : AnswersBasic basicTable fun wave phase =>
    Generator.sampleAnswer (basicTable.sample wave.row phase) .sample where
  inside wave phase := by
    obtain ⟨n, hdraws, hn⟩ := wave.sampleOf_draws phase
    have hreads := basicTable.readsAs_cell wave.row phase
    rw [cell_basicTable] at hreads
    refine ⟨wave.sampleOf phase.word, n, ?_, hreads.of_entry, hdraws, hn⟩
    rw [hreads.of_sample]
    rfl
  outside wave phase hphase := by
    rw [basicTable.sample_of_wide _ hphase]
    rfl

namespace Session

/-- Whether every generator that is alive has the basic table. -/
def Furnished (session : Session) : Prop :=
  ∀ number generator, live? session.generators number = some generator →
    generator.basic = basicTable

section Furnishing

variable {session next : Session}

theorem Furnished.of_same (h : session.Furnished) (hsame : next.generators = session.generators) :
    next.Furnished := by
  intro number generator hlive
  rw [hsame] at hlive
  exact h number generator hlive

/-- Whatever takes the place of a generator has the basic table if it is one. -/
theorem Furnished.of_set (h : session.Furnished) {number : Nat} {value : Option Generator}
    (hlt : number < session.generators.length)
    (hset : next.generators = session.generators.set number value)
    (hvalue : ∀ generator, value = some generator → generator.basic = basicTable) :
    next.Furnished := by
  intro other generator hlive
  rw [hset, live?_set _ _ hlt] at hlive
  split at hlive
  · exact hvalue generator hlive
  · exact h other generator hlive

/-- A request leaves every generator with the basic table. -/
theorem Furnished.step (h : session.Furnished) (request : Request) :
    (session.step request).1.Furnished := by
  cases request with
  | openGenerator =>
    intro number generator hlive
    simp only [Session.step, live?_append_some] at hlive
    split at hlive
    · obtain rfl := Option.some.inj hlive
      rfl
    · exact h number generator hlive
  | closeGenerator number =>
    cases hlive : live? session.generators number with
    | none => simpa [Session.step, hlive, reply] using h
    | some generator =>
      simp only [Session.step, hlive]
      exact h.of_set (lt_of_live? hlive) rfl fun _ hnone => by cases hnone
  | generator number request =>
    cases hlive : live? session.generators number with
    | none => simpa [Session.step, hlive, reply] using h
    | some generator =>
      simp only [Session.step, hlive, afterGenerator]
      refine h.of_set (lt_of_live? hlive) (generators_noteAnswer _ _) ?_
      rintro after hafter
      obtain rfl := Option.some.inj hafter
      rw [Generator.basic_handle]
      exact h number generator hlive
  | store number request =>
    cases hlive : live? session.stores number with
    | none => simpa [Session.step, hlive, reply] using h
    | some store =>
      simp only [Session.step, hlive, afterStore]
      exact h.of_same (generators_noteAnswer _ _)
  | closeStore number =>
    cases hlive : live? session.stores number with
    | none => simpa [Session.step, hlive, reply] using h
    | some store =>
      simp only [Session.step, hlive]
      exact h.of_same rfl
  | _ => exact h

/-- A run leaves every generator with the basic table. -/
theorem Furnished.run (h : session.Furnished) (requests : List Request) :
    (session.run requests).1.Furnished := by
  induction requests generalizing session with
  | nil => exact h
  | cons request rest ih => exact ih (h.step request)

theorem furnished_run (requests : List Request) : (({} : Session).run requests).1.Furnished := by
  have hstart : ({} : Session).Furnished := by
    intro number generator hlive
    simp [live?] at hlive
  exact hstart.run requests

end Furnishing

/-- After any run, a generator that is alive and the shared one answer basic samples from a table
of the closed forms, and phases of more than twelve bits with a fault. The triangle of any word is
that of its mirror image, is even, and depends on the low fifteen bits only. -/
theorem answers_basic (past : List Request) :
    let session := (({} : Session).run past).1
    (∀ number : Nat, (session.storeAt? (.generator number)).isSome →
      ∃ table, (session.step (.generator number .basicTable)).2.outcome = .ok (.basicTable table) ∧
        AnswersBasic table fun wave phase =>
          (session.step (.generator number (.basic wave phase))).2.outcome) ∧
    (AnswersBasic Generator.shared.basic fun wave phase =>
      (session.step (.sharedBasic wave phase)).2.outcome) ∧
    (∀ word : UInt16, foldTriangle word = foldTriangle (word ^^^ 0xfff) ∧
      (foldTriangle word).toNat % 2 = 0 ∧
      ∀ other : UInt16, word &&& 0x7fff = other &&& 0x7fff →
        foldTriangle word = foldTriangle other) := by
  intro session
  refine ⟨?_, answersBasic_basicTable, ?_⟩
  · intro number halive
    cases hlive : live? session.generators number with
    | none => simp [storeAt?, hlive] at halive
    | some generator =>
      have hbasic : generator.basic = basicTable := furnished_run past number generator hlive
      refine ⟨basicTable, ?_, ?_⟩
      · simp only [step, hlive, afterGenerator, Generator.handle, Generator.unchanged, hbasic]
      · simp only [step, hlive, afterGenerator, Generator.handle, Generator.unchanged,
          Generator.basicSample, hbasic]
        exact answersBasic_basicTable
  · intro word
    exact ⟨(foldTriangle_xor word).symm, foldTriangle_even word, fun other =>
      foldTriangle_eq_of_and_eq⟩

/-- A generator that has failed for a combined and for a basic sample, and whose neighbour has been
closed, has its triangle at 4094 in the middle; the shared one has no phase 4096. -/
theorem answers_basic_closedNeighbour :
    let past : List Request := [.openGenerator, .openGenerator,
      .generator 1 (.pulldown ⟨.mos8580, .weak⟩ .noisePulse 0x1000), .closeGenerator 0,
      .generator 1 (.basic .sawtooth 0xffff)]
    let session := (({} : Session).run past).1
    (session.storeAt? (.generator 1)).isSome ∧
      (session.step (.generator 1 (.basic .triangle 0x800))).2.outcome = .ok (.sample 4094) ∧
      (session.step (.sharedBasic .sawtoothAnd 0x1000)).2.outcome =
        .error (.fault (.widePhase 0x1000)) ∧
      (0x8123 : UInt16) &&& 0x7fff = 0x123 &&& 0x7fff ∧
      foldTriangle 0x8123 = foldTriangle 0x123 := by
  intro past session
  have halive : (session.storeAt? (.generator 1)).isSome := rfl
  have hlow : (0x8123 : UInt16) &&& 0x7fff = 0x123 &&& 0x7fff := by decide
  obtain ⟨hgenerators, hshared, hfold⟩ := answers_basic past
  obtain ⟨table, -, hanswers⟩ := hgenerators 1 halive
  obtain ⟨sample, n, hasked, -, hdraws, hn⟩ := hanswers.inside .triangle ⟨0x800, by decide⟩
  have hvalue : n = 4094 := hdraws
  have hsample : sample = 4094 := Int16.toInt_inj.mp (by rw [hn, hvalue]; rfl)
  rw [hsample] at hasked
  obtain ⟨-, -, hsame⟩ := hfold 0x8123
  exact ⟨halive, hasked, hshared.outside .sawtoothAnd 0x1000 (by decide), hlow, hsame 0x123 hlow⟩

end Session

end SidVoice
