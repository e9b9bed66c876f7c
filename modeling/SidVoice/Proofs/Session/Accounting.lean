import SidVoice.Proofs.Session.Register
import SidVoice.Proofs.Store.Account

/-!
# Accounts of the places of a session

Whatever else happens in a session, the store of a place agrees with the list of the setups that
the place has served: it has built, counted and logged one table for each of them. A sample that
faults after its table has been built counts as served, since the table stays.
-/

namespace SidVoice

namespace Session

/-- The account of a place that has served the given setups. -/
structure Keeps (session : Session) (place : Place) (asked : List Setup) : Prop where
  /-- The store of the place, if it is alive, agrees with what has been served. -/
  accounted : ∀ {store}, session.storeAt? place = some store → store.Accounted asked
  /-- Nothing has been served before the place was opened. -/
  unopened : ¬ session.Opened place → asked = []

theorem keeps_empty (place : Place) : ({} : Session).Keeps place [] where
  accounted h := by simp at h
  unopened _ := rfl

section Step

variable {session next : Session} {place : Place} {asked : List Setup}

/-- A request that leaves a place alone leaves its account as it is. -/
theorem Keeps.of_same (h : session.Keeps place asked)
    (hstore : next.storeAt? place = session.storeAt? place)
    (hopened : next.Opened place ↔ session.Opened place) : next.Keeps place asked where
  accounted hat := h.accounted (hstore ▸ hat)
  unopened hnot := h.unopened (fun hsession => hnot (hopened.mpr hsession))

/-- A request adds to the account of a place the setup it is served there. -/
theorem Keeps.step (h : session.Keeps place asked) (request : Request) :
    (session.step request).1.Keeps place
      (asked ++ (session.servesAt? place request).toList) := by
  cases session.step_effect request with
  | idle hserved hstores hopened hfresh hlog =>
    rw [servesAt?_of_served?_none hserved, Option.toList_none, List.append_nil]
    exact h.of_same (by rw [hstores]) (by rw [hopened])
  | opened new hserved haddressed hnew hstores hopened hfresh =>
    rw [servesAt?_of_served?_none hserved, Option.toList_none, List.append_nil]
    by_cases heq : place = new
    · subst heq
      refine ⟨fun {store} hat => ?_, fun hnot => absurd ((hopened place).mpr (Or.inl rfl)) hnot⟩
      rw [hstores, Function.update_self] at hat
      rw [← Option.some.inj hat, h.unopened hnew]
      exact TableStore.accounted_empty
    · refine h.of_same (by rw [hstores, Function.update_of_ne heq]) ?_
      rw [hopened, or_iff_right heq]
  | closed gone hserved hrequest hstores hopened hfresh hlog =>
    rw [servesAt?_of_served?_none hserved, Option.toList_none, List.append_nil]
    by_cases heq : place = gone
    · subst heq
      refine ⟨fun hat => ?_, fun hnot => h.unopened (hopened ▸ hnot)⟩
      simp [hstores] at hat
    · exact h.of_same (by rw [hstores, Function.update_of_ne heq]) (by rw [hopened])
  | hit other setup shared hserved htable hstores hopened hfresh hlog =>
    rw [servesAt?_of_served?_some hserved]
    by_cases heq : other = place
    · subst heq
      rw [if_pos rfl, Option.toList_some]
      refine ⟨fun {store} hat => ?_, fun hnot => ?_⟩
      · rw [hstores] at hat
        refine (h.accounted hat).hit ?_
        rw [← tableAt?_of_storeAt? hat, htable]
        rfl
      · rw [hopened] at hnot
        simp [tableAt?, storeAt?_of_not_opened hnot] at htable
    · rw [if_neg heq, Option.toList_none, List.append_nil]
      exact h.of_same (by rw [hstores]) (by rw [hopened])
  | built other setup store hserved hstore hmissing hstores hopened hfresh hlog =>
    rw [servesAt?_of_served?_some hserved]
    by_cases heq : other = place
    · subst heq
      rw [if_pos rfl, Option.toList_some]
      refine ⟨fun {after} hat => ?_, fun hnot => ?_⟩
      · rw [hstores, Function.update_self] at hat
        rw [← Option.some.inj hat]
        exact (h.accounted hstore).put _ hmissing
      · rw [hopened] at hnot
        simp [storeAt?_of_not_opened hnot] at hstore
    · rw [if_neg heq, Option.toList_none, List.append_nil]
      exact h.of_same (by rw [hstores, Function.update_of_ne (Ne.symm heq)]) (by rw [hopened])

/-- A run adds to the account of a place what it is served there. -/
theorem Keeps.run (h : session.Keeps place asked) (requests : List Request) :
    (session.run requests).1.Keeps place (asked ++ session.servedAt place requests) := by
  induction requests generalizing session asked with
  | nil => simpa [Session.run, servedAt] using h
  | cons request rest ih =>
    have hrest := ih (h.step request)
    rw [List.append_assoc] at hrest
    exact hrest

/-- In every reachable session a place keeps account of what it has served. -/
theorem keeps_run (place : Place) (requests : List Request) :
    (({} : Session).run requests).1.Keeps place (({} : Session).servedAt place requests) :=
  (keeps_empty place).run requests

/-- A place logs a build for the first request it is served for a setup, and a hit for each later
one. -/
theorem Keeps.log_step (h : session.Keeps place asked) (request : Request) :
    (if request.place? = some place then (session.step request).2.log else []) =
      LogEvent.ofRequests asked (session.servesAt? place request).toList := by
  cases session.step_effect request with
  | idle hserved hstores hopened hfresh hlog =>
    rw [servesAt?_of_served?_none hserved, hlog, ite_self]
    rfl
  | opened new hserved haddressed hnew hstores hopened hfresh =>
    rw [servesAt?_of_served?_none hserved, haddressed, if_neg (by simp)]
    rfl
  | closed gone hserved hrequest hstores hopened hfresh hlog =>
    rw [servesAt?_of_served?_none hserved, hlog, ite_self]
    rfl
  | hit other setup shared hserved htable hstores hopened hfresh hlog =>
    have haddressed := Request.place?_of_need? (served?_eq_some_iff.mp hserved).1
    rw [servesAt?_of_served?_some hserved, haddressed, hlog]
    by_cases heq : other = place
    · subst heq
      obtain ⟨store, hstore, hheld⟩ := Option.bind_eq_some_iff.mp htable
      have hmem : setup ∈ asked := ((h.accounted hstore).isSome_get? setup).mp (by rw [hheld]; rfl)
      simp [LogEvent.ofRequests, hmem]
    · simp [heq, LogEvent.ofRequests]
  | built other setup store hserved hstore hmissing hstores hopened hfresh hlog =>
    have haddressed := Request.place?_of_need? (served?_eq_some_iff.mp hserved).1
    rw [servesAt?_of_served?_some hserved, haddressed, hlog]
    by_cases heq : other = place
    · subst heq
      have hnotMem : setup ∉ asked := by
        rw [← (h.accounted hstore).isSome_get? setup, hmissing]
        simp
      simp [LogEvent.ofRequests, hnotMem]
    · simp [heq, LogEvent.ofRequests]

/-- What a place logs in a run follows from what it is served there. -/
theorem Keeps.logAt_run (h : session.Keeps place asked) (requests : List Request) :
    session.logAt place requests = LogEvent.ofRequests asked (session.servedAt place requests) := by
  induction requests generalizing session asked with
  | nil => rfl
  | cons request rest ih =>
    rw [logAt_cons, h.log_step, ih (h.step request), servedAt, LogEvent.ofRequests_append]

end Step

/-- A request to a place that needs no table changes no store and logs nothing. -/
theorem step_of_need?_none (session : Session) {request : Request} {place : Place}
    (haddressed : request.place? = some place) (hneed : request.need? = none) :
    (session.step request).1.storeAt? = session.storeAt? ∧
      (session.step request).1.fresh = session.fresh ∧ (session.step request).2.log = [] := by
  have hnone : session.served? request = none := served?_of_need?_none hneed
  cases session.step_effect request with
  | idle hserved hstores hopened hfresh hlog => exact ⟨hstores, hfresh, hlog⟩
  | opened new hserved hnowhere hnew hstores hopened hfresh =>
    rw [haddressed] at hnowhere
    cases hnowhere
  | closed gone hserved hrequest hstores hopened hfresh hlog =>
    subst hrequest
    cases gone <;> cases haddressed
  | hit other setup shared hserved htable hstores hopened hfresh hlog =>
    rw [hnone] at hserved
    cases hserved
  | built other setup store hserved hstore hmissing hstores hopened hfresh hlog =>
    rw [hnone] at hserved
    cases hserved

end Session

end SidVoice
