import SidVoice.Proofs.Session.Effect

/-!
# Renaming identities

An identity says nothing but which tables are the same. Renaming the identities in a store or
generator commutes with every request, provided that a table that is built gets the new name of
the identity it would have got. So the behaviour of a place does not depend on which identities
it draws from the supply.
-/

namespace SidVoice

section Definitions

variable (name : Nat → Nat)

/-- A table under another identity. -/
def SharedTable.rename (shared : SharedTable) : SharedTable :=
  { shared with ident := name shared.ident }

/-- A store whose tables have other identities. -/
def TableStore.rename (store : TableStore) : TableStore :=
  { store with places := store.places.map (Option.map (SharedTable.rename name)) }

/-- A generator whose combined tables have other identities. -/
def Generator.rename (generator : Generator) : Generator :=
  { generator with store := generator.store.rename name }

/-- An answer in which tables have other identities. -/
def Answer.rename : Answer → Answer
  | table shared => .table (shared.rename name)
  | store state => .store (state.rename name)
  | generator state => .generator (state.rename name)
  | answer => answer

/-- A response in which tables have other identities. -/
def Response.rename (response : Response) : Response :=
  { response with outcome := response.outcome.map (Answer.rename name) }

end Definitions

namespace TableStore

variable (name : Nat → Nat) (store : TableStore)

@[simp] theorem rename_empty : empty.rename name = empty := by
  simp [rename, empty]

@[simp] theorem get?_rename (setup : Setup) :
    (store.rename name).get? setup = (store.get? setup).map (SharedTable.rename name) := by
  simp [rename, get?]

theorem rename_put (setup : Setup) (shared : SharedTable) :
    (store.put setup shared).rename name =
      (store.rename name).put setup (shared.rename name) := by
  simp [rename, put, Vector.map_set]

@[simp] theorem resident_rename : (store.rename name).resident = store.resident := by
  rw [resident, resident, rename, Vector.toList_map, List.countP_map]
  congr 1
  funext shared
  simp

/-- The same table is obtained under its new name. -/
theorem obtain_rename {fresh fresh' : Nat} {setup : Setup}
    (hname : store.get? setup = none → name fresh = fresh') :
    let got := store.obtain fresh setup
    let renamed := (store.rename name).obtain fresh' setup
    renamed.table = got.table.rename name ∧ renamed.store = got.store.rename name ∧
      renamed.event = got.event := by
  intro got renamed
  cases hheld : store.get? setup with
  | some shared =>
    have hgot : got = ⟨shared, store, .hit setup, fresh⟩ := obtain_of_some fresh hheld
    have hrenamed : renamed = ⟨shared.rename name, store.rename name, .hit setup, fresh'⟩ :=
      obtain_of_some fresh' (by rw [get?_rename, hheld]; rfl)
    rw [hgot, hrenamed]
    exact ⟨rfl, rfl, rfl⟩
  | none =>
    have hgot : got = _ := obtain_of_none fresh hheld
    have hrenamed : renamed = _ :=
      obtain_of_none fresh' (by rw [get?_rename, hheld]; rfl)
    rw [hgot, hrenamed, rename_put, SharedTable.rename, hname hheld]
    exact ⟨rfl, rfl, rfl⟩

/-- A store whose tables are renamed handles a request in the same way. -/
theorem handle_rename {fresh fresh' : Nat} {request : StoreRequest}
    (hname : ∀ setup, request.need? = some setup → store.get? setup = none →
      name fresh = fresh') :
    let handled := store.handle fresh request
    let renamed := (store.rename name).handle fresh' request
    renamed.state = handled.state.rename name ∧ renamed.log = handled.log ∧
      renamed.outcome = handled.outcome.map (Answer.rename name) := by
  cases request with
  | get setup =>
    cases hheld : store.get? setup <;> simp [handle, hheld, Answer.rename, Except.map]
  | obtain setup =>
    obtain ⟨htable, hstore, hevent⟩ := store.obtain_rename name (hname setup rfl)
    simp [handle, htable, hstore, hevent, Answer.rename, Except.map]
  | stats => simp [handle, Answer.rename, Except.map]

end TableStore

namespace Generator

variable (name : Nat → Nat) (generator : Generator)

@[simp] theorem rename_new : new.rename name = new := by
  simp [rename, new]

/-- The answer with a sample does not depend on identities. -/
theorem map_sampleAnswer (sample : Except Fault Int16) {answer : Int16 → Answer}
    (h : ∀ value, (answer value).rename name = answer value) :
    (sampleAnswer sample answer).map (Answer.rename name) = sampleAnswer sample answer := by
  cases sample with
  | ok value => exact congrArg Except.ok (h value)
  | error fault => rfl

/-- A request that goes on with a table does so with the same one under its new name. -/
theorem withTable_rename {fresh fresh' : Nat} {setup : Setup}
    {answer : SharedTable → Except Failure Answer}
    (hname : generator.store.get? setup = none → name fresh = fresh')
    (hanswer : ∀ shared : SharedTable,
      answer (shared.rename name) = (answer shared).map (Answer.rename name)) :
    let handled := generator.withTable fresh setup answer
    let renamed := (generator.rename name).withTable fresh' setup answer
    renamed.state = handled.state.rename name ∧ renamed.log = handled.log ∧
      renamed.outcome = handled.outcome.map (Answer.rename name) := by
  obtain ⟨htable, hstore, hevent⟩ := generator.store.obtain_rename name hname
  simp [withTable, rename, htable, hstore, hevent, hanswer]

/-- A generator whose combined tables are renamed handles a request in the same way. -/
theorem handle_rename {fresh fresh' : Nat} {request : GeneratorRequest}
    (hname : ∀ setup, request.need? = some setup → generator.store.get? setup = none →
      name fresh = fresh') :
    let handled := generator.handle fresh request
    let renamed := (generator.rename name).handle fresh' request
    renamed.state = handled.state.rename name ∧ renamed.log = handled.log ∧
      renamed.outcome = handled.outcome.map (Answer.rename name) := by
  cases request with
  | build setup => exact generator.withTable_rename name (hname setup rfl) fun shared => rfl
  | buildFor text =>
    cases hread : Json.readSetup text with
    | ok setup =>
      have hneed : (GeneratorRequest.buildFor text).need? = some setup := by
        simp [GeneratorRequest.need?, hread, Except.toOption]
      simp only [handle, hread]
      exact generator.withTable_rename name (hname setup hneed) fun shared => rfl
    | error e => simp [handle, hread, unchanged, Except.map]
  | pulldown setup combination phase =>
    refine generator.withTable_rename name (hname setup rfl) fun shared => ?_
    exact (map_sampleAnswer name _ fun value => rfl).symm
  | basic wave phase =>
    refine ⟨rfl, rfl, ?_⟩
    exact (map_sampleAnswer name _ fun value => rfl).symm
  | basicTable => exact ⟨rfl, rfl, rfl⟩
  | stats => exact ⟨rfl, rfl, rfl⟩
  | voice setup control phase =>
    by_cases hphase : phase.toNat < phaseCount
    · cases hselection : (Selection.ofControl control).pulldown with
      | none => simp [handle, basicSample_eq, hphase, hselection, unchanged, Except.map, rename,
          Answer.rename]
      | some combination =>
        have hneed : (GeneratorRequest.voice setup control phase).need? = some setup := by
          simp [GeneratorRequest.need?, hphase, hselection]
        simp only [handle, basicSample_eq, hphase, hselection, dif_pos]
        refine generator.withTable_rename name (hname setup hneed) fun shared => ?_
        exact (map_sampleAnswer name _ fun value => rfl).symm
    · simp [handle, basicSample_eq, hphase, unchanged, Except.map]

end Generator

end SidVoice
