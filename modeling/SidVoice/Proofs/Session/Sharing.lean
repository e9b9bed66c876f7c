import SidVoice.Proofs.Session.Accounting

/-!
# Tables are shared

A place answers every request for a setup with one and the same table, from the first request on
and until it is closed. The identity of an answered table tells its place and setup: tables of
different setups or different places are never taken for one another, even if a place has been
closed in between. Tables of one setup hold the same samples in every place.
-/

namespace SidVoice

namespace Session

section Identity

variable {session : Session} {owners : List (Place × Setup)}

/-- A request that asks for a table does not close its place. -/
theorem ne_close_of_asks? {request : Request} {place other : Place} {setup : Setup}
    (hasks : request.asks? = some (place, setup)) : request ≠ other.close := by
  rintro rfl
  cases other <;> simp [Place.close, Request.asks?] at hasks

/-- Positions in a register without repetitions are equal exactly if their entries are. -/
theorem position_eq_iff (hnodup : owners.Nodup) {i j : Nat} {first second : Place × Setup}
    (hfirst : owners[i]? = some first) (hsecond : owners[j]? = some second) :
    i = j ↔ first = second := by
  have hlt : i < owners.length := (List.getElem?_eq_some_iff.mp hfirst).1
  constructor
  · rintro rfl
    exact Option.some.inj (hfirst.symm.trans hsecond)
  · rintro rfl
    exact (List.getElem?_inj hlt hnodup).mp (hfirst.trans hsecond.symm)

/-- An answered table is registered for the place and setup that it was asked for. -/
theorem Registered.entry_of_outcome (h : session.Registered owners) {request : Request}
    {place : Place} {setup : Setup} {shared : SharedTable}
    (hasks : request.asks? = some (place, setup))
    (houtcome : (session.step request).2.outcome = .ok (.table shared)) :
    shared.table = setup.table ∧
      (owners ++ (session.built? request).toList)[shared.ident]? = some (place, setup) :=
  (h.step request).entry_of_tableAt? (tableAt?_of_outcome hasks houtcome)

/-- The identities of two answered tables are equal exactly if the tables were asked for at one
place and for one setup. -/
theorem Registered.ident_eq_iff (h : session.Registered owners) {first later : Request}
    (between : List Request) {place place' : Place} {setup setup' : Setup}
    {shared shared' : SharedTable} (hfirst : first.asks? = some (place, setup))
    (hlater : later.asks? = some (place', setup'))
    (houtcome : (session.step first).2.outcome = .ok (.table shared))
    (houtcome' : (((session.step first).1.run between).1.step later).2.outcome =
      .ok (.table shared')) :
    shared.ident = shared'.ident ↔ place = place' ∧ setup = setup' := by
  obtain ⟨-, hentry⟩ := h.entry_of_outcome hfirst houtcome
  have hbetween := (h.step first).run between
  obtain ⟨-, hentry'⟩ := hbetween.entry_of_outcome hlater houtcome'
  have hlt : shared.ident < (owners ++ (session.built? first).toList).length :=
    (List.getElem?_eq_some_iff.mp hentry).1
  -- the register only grows, so the entry of the first table is still there
  have hold : (owners ++ (session.built? first).toList ++ (session.step first).1.built between ++
      (((session.step first).1.run between).1.built? later).toList)[shared.ident]? =
      some (place, setup) := by
    rw [List.append_assoc, List.getElem?_append_left hlt]
    exact hentry
  rw [position_eq_iff (hbetween.step later).nodup hold hentry', Prod.mk.injEq]

end Identity

/-- A place that has not been closed answers a later request with the table it answered first. -/
theorem outcome_later {session : Session} {first later : Request} {between : List Request}
    {place : Place} {setup : Setup} {shared : SharedTable}
    (hfirst : first.asks? = some (place, setup))
    (houtcome : (session.step first).2.outcome = .ok (.table shared))
    (hopen : place.close ∉ between) (hlater : later.asks? = some (place, setup)) :
    (((session.step first).1.run between).1.step later).2.outcome = .ok (.table shared) := by
  have hheld := tableAt?_run_of_some hopen (tableAt?_of_outcome hfirst houtcome)
  have hafter := tableAt?_step_of_some (ne_close_of_asks? hlater) hheld
  exact outcome_of_tableAt? hlater (storeAt?_of_tableAt? hheld) hafter

/-- A request changes no table but the one it needs. -/
theorem tableAt?_step_of_ne {session : Session} {request : Request} {place : Place}
    {setup : Setup} (hclose : request ≠ place.close)
    (hneed : request.need? ≠ some (place, setup)) :
    (session.step request).1.tableAt? place setup = session.tableAt? place setup := by
  rw [tableAt?_step hclose, if_neg]
  intro hserved
  exact hneed (served?_eq_some_iff.mp hserved).1

/-- A store looks a table up in vain exactly if it has not been asked to build it. -/
theorem outcome_get_eq_noTable_iff (past : List Request) {number : Nat} (setup : Setup)
    (halive : ((({} : Session).run past).1.storeAt? (.store number)).isSome) :
    ((({} : Session).run past).1.step (.store number (.get setup))).2.outcome = .ok .noTable ↔
      setup ∉ ({} : Session).servedAt (.store number) past := by
  obtain ⟨store, hstore⟩ := Option.isSome_iff_exists.mp halive
  have haccount := (keeps_run (.store number) past).accounted hstore
  have hasks : (Request.store number (.get setup)).asks? = some (.store number, setup) := rfl
  rw [outcome_step_of_asks? hasks, if_pos halive,
    tableAt?_step_of_ne (ne_close_of_asks? hasks) (by simp [Request.need?, StoreRequest.need?]),
    tableAt?_of_storeAt? hstore, ← haccount.isSome_get? setup]
  cases store.get? setup <;> simp [Answer.ofTable?]

/-- After any run: a table that is answered is answered again, until its place is closed; looking
a table up fails exactly before it is built; a request touches no table but the one it needs, and
never takes one away; and identities tell places and setups apart. -/
theorem answers_shared (past : List Request) :
    let session := (({} : Session).run past).1
    (∀ (first later : Request) (between : List Request) (place : Place) (setup : Setup)
      (shared : SharedTable), first.asks? = some (place, setup) →
      (session.step first).2.outcome = .ok (.table shared) → place.close ∉ between →
      later.asks? = some (place, setup) →
      (((session.step first).1.run between).1.step later).2.outcome = .ok (.table shared)) ∧
    (∀ (number : Nat) (setup : Setup), (session.storeAt? (.store number)).isSome →
      ((session.step (.store number (.get setup))).2.outcome = .ok .noTable ↔
        setup ∉ ({} : Session).servedAt (.store number) past)) ∧
    (∀ (request : Request) (place : Place) (setup : Setup), request ≠ place.close →
      (request.need? ≠ some (place, setup) →
        (session.step request).1.tableAt? place setup = session.tableAt? place setup) ∧
      ∀ shared, session.tableAt? place setup = some shared →
        (session.step request).1.tableAt? place setup = some shared) ∧
    (∀ (first later : Request) (between : List Request) (place place' : Place)
      (setup setup' : Setup) (shared shared' : SharedTable), first.asks? = some (place, setup) →
      later.asks? = some (place', setup') →
      (session.step first).2.outcome = .ok (.table shared) →
      (((session.step first).1.run between).1.step later).2.outcome = .ok (.table shared') →
      (shared.ident = shared'.ident ↔ place = place' ∧ setup = setup') ∧
        (setup = setup' → shared.table = shared'.table)) := by
  intro session
  have hregistered := registered_run past
  refine ⟨?_, ?_, ?_, ?_⟩
  · intro first later between place setup shared hfirst houtcome hopen hlater
    exact outcome_later hfirst houtcome hopen hlater
  · intro number setup halive
    exact outcome_get_eq_noTable_iff past setup halive
  · intro request place setup hclose
    exact ⟨tableAt?_step_of_ne hclose, fun shared => tableAt?_step_of_some hclose⟩
  · intro first later between place place' setup setup' shared shared' hfirst hlater houtcome
      houtcome'
    refine ⟨hregistered.ident_eq_iff between hfirst hlater houtcome houtcome', ?_⟩
    rintro rfl
    have hbetween := (hregistered.step first).run between
    rw [(hregistered.entry_of_outcome hfirst houtcome).1,
      (hbetween.entry_of_outcome hlater houtcome').1]

/-- Two stores that are asked for the same table keep one each, and go on answering with it. -/
theorem answers_shared_twoStores :
    let session := (({} : Session).run [.openStore, .openStore]).1
    let setup : Setup := ⟨.mos8580, .weak⟩
    let next := ((session.step (.store 0 (.obtain setup))).1.run [.store 1 (.obtain setup)]).1
    (next.step (.store 0 (.get setup))).2.outcome = .ok (.table ⟨0, setup.table⟩) ∧
    (session.step (.store 1 (.get setup))).2.outcome = .ok .noTable ∧
    (session.step (.store 0 (.obtain setup))).1.tableAt? (.store 1) setup =
      session.tableAt? (.store 1) setup ∧
    ∃ shared, (next.step (.store 1 (.get setup))).2.outcome = .ok (.table shared) ∧
      shared.ident ≠ 0 ∧ shared.table = setup.table := by
  intro session setup next
  obtain ⟨hlater, habsent, hframe, hident⟩ := answers_shared [.openStore, .openStore]
  have hclose : (Place.store 0).close ∉ [Request.store 1 (.obtain setup)] := by
    simp [Place.close]
  refine ⟨hlater (.store 0 (.obtain setup)) (.store 0 (.get setup)) _ (.store 0) setup _ rfl rfl
    hclose rfl, ?_, ?_, ⟨1, setup.table⟩, rfl, ?_⟩
  · refine (habsent 1 setup rfl).mpr ?_
    simp [servedAt, servesAt?, served?, Request.need?]
  · refine (hframe (.store 0 (.obtain setup)) (.store 1) setup ?_).1 ?_
    · simp [Place.close]
    · simp [Request.need?, StoreRequest.need?]
  · obtain ⟨hiff, hsame⟩ := hident (.store 0 (.obtain setup)) (.store 1 (.get setup))
      [.store 1 (.obtain setup)] (.store 0) (.store 1) setup setup ⟨0, setup.table⟩
      ⟨1, setup.table⟩ rfl rfl rfl rfl
    refine ⟨fun heq => ?_, (hsame rfl).symm⟩
    have hplaces := (hiff.mp heq.symm).1
    cases hplaces

end Session

end SidVoice
