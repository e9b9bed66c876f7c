import Mathlib.Data.List.Pairwise
import SidVoice.Proofs.Session.Answered
import SidVoice.Proofs.Session.Renaming

/-!
# Places are isolated from each other

A request is about at most one place: it opens the place, closes it or is addressed to it. What a
place answers in a session, and what lives there in the end, is what it would be if the requests
about the place were the only ones, up to the choice of identities. The choice is injective, so
whether two answers of a place are the same table does not depend on other places either.
-/

namespace SidVoice

/-- What lives at a place. -/
inductive Keeper where
  /-- A store on its own. -/
  | store (kept : TableStore)
  /-- A generator. -/
  | generator (kept : Generator)

namespace Keeper

/-- The store of what lives at a place. -/
def tables : Keeper → TableStore
  | store kept => kept
  | generator kept => kept.store

/-- What lives at a place, with other identities. -/
def rename (name : Nat → Nat) : Keeper → Keeper
  | store kept => .store (kept.rename name)
  | generator kept => .generator (kept.rename name)

end Keeper

/-- The session in which a place is the next of its kind to be opened, and nothing is alive. -/
def Place.alone : Place → Session
  | store number => { stores := List.replicate number none }
  | generator number => { generators := List.replicate number none }

/-- The request that opens the next place of a kind. -/
def Place.open : Place → Request
  | store _ => .openStore
  | generator _ => .openGenerator

namespace Session

/-- What lives at a place, unless the place is closed or has not been opened. -/
def keeperAt? (session : Session) : Place → Option Keeper
  | .store number => (live? session.stores number).map .store
  | .generator number => (live? session.generators number).map .generator

/-- The place a request is about: the one it opens, closes or is addressed to. -/
def owner? (session : Session) : Request → Option Place
  | .openStore => some (.store session.stores.length)
  | .closeStore number => some (.store number)
  | .store number _ => some (.store number)
  | .openGenerator => some (.generator session.generators.length)
  | .closeGenerator number => some (.generator number)
  | .generator number _ => some (.generator number)
  | .sharedBasic _ _ | .sharedIsOne | .probe _ _ _ | .row _ _ | .sameSamples _ _ => none

/-- The requests of a run that are about a place. -/
def requestsAt (session : Session) (place : Place) : List Request → List Request
  | [] => []
  | request :: rest =>
    (if session.owner? request = some place then [request] else []) ++
      (session.step request).1.requestsAt place rest

/-- The responses of a run to the requests that are about a place. -/
def responsesAt (session : Session) (place : Place) : List Request → List Response
  | [] => []
  | request :: rest =>
    (if session.owner? request = some place then [(session.step request).2] else []) ++
      (session.step request).1.responsesAt place rest

/-- The identities of the tables that a place builds in a run, in order. -/
def identsAt (session : Session) (place : Place) : List Request → List Nat
  | [] => []
  | request :: rest =>
    (if (session.built? request).map Prod.fst = some place then [session.fresh] else []) ++
      (session.step request).1.identsAt place rest

section Frame

variable (session : Session)

theorem storeAt?_eq_map_keeperAt? (place : Place) :
    session.storeAt? place = (session.keeperAt? place).map Keeper.tables := by
  cases place with
  | store number => simp [storeAt?, keeperAt?, Function.comp_def, Keeper.tables]
  | generator number => simp [storeAt?, keeperAt?, Function.comp_def, Keeper.tables]

/-- A request that is not about a place leaves alone what lives there. -/
theorem keeperAt?_step_of_owner?_ne {request : Request} {place : Place}
    (h : session.owner? request ≠ some place) :
    (session.step request).1.keeperAt? place = session.keeperAt? place := by
  cases request with
  | openStore =>
    cases place with
    | store number =>
      have hne : number ≠ session.stores.length := fun heq => h (by rw [heq]; rfl)
      simp [step, keeperAt?, live?_append_some, hne]
    | generator number => rfl
  | openGenerator =>
    cases place with
    | store number => rfl
    | generator number =>
      have hne : number ≠ session.generators.length := fun heq => h (by rw [heq]; rfl)
      simp [step, keeperAt?, live?_append_some, hne]
  | closeStore number =>
    cases hlive : live? session.stores number with
    | none => simp [step, hlive, reply]
    | some store =>
      cases place with
      | store other =>
        have hne : other ≠ number := fun heq => h (by rw [heq]; rfl)
        simp [step, hlive, keeperAt?, live?_set _ _ (lt_of_live? hlive), hne]
      | generator other => simp [step, hlive, keeperAt?]
  | closeGenerator number =>
    cases hlive : live? session.generators number with
    | none => simp [step, hlive, reply]
    | some generator =>
      cases place with
      | store other => simp [step, hlive, keeperAt?]
      | generator other =>
        have hne : other ≠ number := fun heq => h (by rw [heq]; rfl)
        simp [step, hlive, keeperAt?, live?_set _ _ (lt_of_live? hlive), hne]
  | store number request =>
    cases hlive : live? session.stores number with
    | none => simp [step, hlive, reply]
    | some store =>
      cases place with
      | store other =>
        have hne : other ≠ number := fun heq => h (by rw [heq]; rfl)
        simp [step, hlive, afterStore, keeperAt?, live?_set _ _ (lt_of_live? hlive), hne]
      | generator other => simp [step, hlive, afterStore, keeperAt?]
  | generator number request =>
    cases hlive : live? session.generators number with
    | none => simp [step, hlive, reply]
    | some generator =>
      cases place with
      | store other => simp [step, hlive, afterGenerator, keeperAt?]
      | generator other =>
        have hne : other ≠ number := fun heq => h (by rw [heq]; rfl)
        simp [step, hlive, afterGenerator, keeperAt?, live?_set _ _ (lt_of_live? hlive), hne]
  | sharedBasic wave phase => rfl
  | sharedIsOne => rfl
  | probe table row phase => rfl
  | row table row => rfl
  | sameSamples first second => rfl

/-- Only a request about a place opens it. -/
theorem opened_step_of_owner?_ne {request : Request} {place : Place}
    (h : session.owner? request ≠ some place) :
    (session.step request).1.Opened place ↔ session.Opened place := by
  cases session.step_effect request with
  | idle hserved hstores hopened hfresh hlog => rw [hopened]
  | opened new hserved haddressed hnew hstores hopened hfresh =>
    rw [hopened, or_iff_right]
    rintro rfl
    have hafter : (session.step request).1.storeAt? place = session.storeAt? place := by
      rw [storeAt?_eq_map_keeperAt?, keeperAt?_step_of_owner?_ne _ h, storeAt?_eq_map_keeperAt?]
    rw [hstores, Function.update_self, storeAt?_of_not_opened hnew] at hafter
    cases hafter
  | closed gone hserved hrequest hstores hopened hfresh hlog => rw [hopened]
  | hit other setup shared hserved htable hstores hopened hfresh hlog => rw [hopened]
  | built other setup store hserved hstore hmissing hstores hopened hfresh hlog => rw [hopened]

/-- A place that has been opened stays opened. -/
theorem opened_step (request : Request) {place : Place} (h : session.Opened place) :
    (session.step request).1.Opened place := by
  cases session.step_effect request with
  | opened new hserved haddressed hnew hstores hopened hfresh => exact (hopened place).mpr (.inr h)
  | idle hserved hstores hopened hfresh hlog => rwa [hopened]
  | closed gone hserved hrequest hstores hopened hfresh hlog => rwa [hopened]
  | hit other setup shared hserved htable hstores hopened hfresh hlog => rwa [hopened]
  | built other setup store hserved hstore hmissing hstores hopened hfresh hlog => rwa [hopened]

/-- A place is opened by the request that is about it. -/
theorem opened_step_open {place : Place} (h : session.owner? place.open = some place) :
    (session.step place.open).1.Opened place := by
  cases place with
  | store number =>
    obtain rfl : session.stores.length = number := by simpa [Place.open, owner?] using h
    simp [Place.open, step, Opened]
  | generator number =>
    obtain rfl : session.generators.length = number := by simpa [Place.open, owner?] using h
    simp [Place.open, step, Opened]

/-- No request but the one that opens it changes which place of a kind is the next. -/
theorem owner?_open_step {request : Request} {place : Place} (h : request ≠ place.open) :
    (session.step request).1.owner? place.open = session.owner? place.open := by
  cases request with
  | openStore =>
    cases place with
    | store number => exact absurd rfl h
    | generator number => rfl
  | openGenerator =>
    cases place with
    | store number => rfl
    | generator number => exact absurd rfl h
  | closeStore number =>
    cases hlive : live? session.stores number <;> cases place <;>
      simp [step, hlive, reply, Place.open, owner?]
  | closeGenerator number =>
    cases hlive : live? session.generators number <;> cases place <;>
      simp [step, hlive, reply, Place.open, owner?]
  | store number request =>
    cases hlive : live? session.stores number <;> cases place <;>
      simp [step, hlive, reply, afterStore, Place.open, owner?]
  | generator number request =>
    cases hlive : live? session.generators number <;> cases place <;>
      simp [step, hlive, reply, afterGenerator, Place.open, owner?]
  | sharedBasic wave phase => rfl
  | sharedIsOne => rfl
  | probe table row phase => rfl
  | row table row => rfl
  | sameSamples first second => rfl

/-- A request is about the place it is addressed to. -/
theorem owner?_of_place? {request : Request} {place : Place} (h : request.place? = some place) :
    session.owner? request = some place := by
  cases request with
  | store number request => exact h
  | generator number request => exact h
  | _ => cases h

/-- A table is built by a request about its place. -/
theorem owner?_of_built? {request : Request} {entry : Place × Setup}
    (h : session.built? request = some entry) : session.owner? request = some entry.1 := by
  have hserved := (Option.filter_eq_some_iff.mp h).1
  exact session.owner?_of_place? (Request.place?_of_need? (served?_eq_some_iff.mp hserved).1)

/-- An identity is drawn from the supply exactly for a table that is built. -/
theorem fresh_step (request : Request) :
    (session.step request).1.fresh =
      session.fresh + (session.built? request).toList.length := by
  cases session.step_effect request with
  | idle hserved hstores hopened hfresh hlog =>
    simp [hfresh, built?_of_served?_none hserved]
  | opened new hserved haddressed hnew hstores hopened hfresh =>
    simp [hfresh, built?_of_served?_none hserved]
  | closed gone hserved hrequest hstores hopened hfresh hlog =>
    simp [hfresh, built?_of_served?_none hserved]
  | hit other setup shared hserved htable hstores hopened hfresh hlog =>
    simp [hfresh, built?_of_hit hserved htable]
  | built other setup store hserved hstore hmissing hstores hopened hfresh hlog =>
    simp [hfresh, built?_of_missing hserved hstore hmissing]

theorem owner?_close (place : Place) : session.owner? place.close = some place := by
  cases place <;> rfl

end Frame

/-- At a place a session looks like a session with only this place, up to identities. -/
structure Mirrors (name : Nat → Nat) (place : Place) (session lone : Session) : Prop where
  /-- What lives at the place is the same. -/
  keeper : session.keeperAt? place = (lone.keeperAt? place).map (Keeper.rename name)
  /-- As long as the place has not been opened, it is the next of its kind. -/
  next : ¬ session.Opened place → lone.owner? place.open = some place

section Mirror

variable {name : Nat → Nat} {session lone : Session} {place : Place}

theorem Mirrors.live?_stores {number : Nat} (h : session.Mirrors name (.store number) lone) :
    live? session.stores number = (live? lone.stores number).map (TableStore.rename name) := by
  have hkeeper := h.keeper
  cases hlone : live? lone.stores number with
  | none => simpa [keeperAt?, hlone] using hkeeper
  | some kept => simpa [keeperAt?, hlone, Keeper.rename] using hkeeper

theorem Mirrors.live?_generators {number : Nat}
    (h : session.Mirrors name (.generator number) lone) :
    live? session.generators number =
      (live? lone.generators number).map (Generator.rename name) := by
  have hkeeper := h.keeper
  cases hlone : live? lone.generators number with
  | none => simpa [keeperAt?, hlone] using hkeeper
  | some kept => simpa [keeperAt?, hlone, Keeper.rename] using hkeeper

theorem Mirrors.storeAt?_eq (h : session.Mirrors name place lone) :
    session.storeAt? place = (lone.storeAt? place).map (TableStore.rename name) := by
  cases place with
  | store number => exact h.live?_stores
  | generator number =>
    rw [storeAt?, storeAt?, h.live?_generators, Option.map_map, Option.map_map]
    rfl

/-- A store in a session handles a request as it does alone. -/
theorem Mirrors.step_store {number : Nat} (h : session.Mirrors name (.store number) lone)
    (request : StoreRequest)
    (hname : (session.built? (.store number request)).map Prod.fst = some (.store number) →
      name lone.fresh = session.fresh) :
    (session.step (.store number request)).1.keeperAt? (.store number) =
        ((lone.step (.store number request)).1.keeperAt? (.store number)).map
          (Keeper.rename name) ∧
      (session.step (.store number request)).2 =
        (lone.step (.store number request)).2.rename name := by
  have hsession := h.live?_stores
  cases hlone : live? lone.stores number with
  | none =>
    rw [hlone, Option.map_none] at hsession
    simp [step, hlone, hsession, reply, keeperAt?, Response.rename, Except.map]
  | some kept =>
    rw [hlone, Option.map_some] at hsession
    have hdrawn : ∀ setup, request.need? = some setup → kept.get? setup = none →
        name lone.fresh = session.fresh := by
      intro setup hneed hmissing
      apply hname
      simp [built?, served?, Request.need?, hneed, tableAt?, storeAt?, hsession, hmissing]
    obtain ⟨hstate, hlog, houtcome⟩ := kept.handle_rename name hdrawn
    simp [step, hlone, hsession, afterStore, keeperAt?, live?_set _ _ (lt_of_live? hlone),
      live?_set _ _ (lt_of_live? hsession), Keeper.rename, Response.rename, hstate, hlog, houtcome]

/-- A generator in a session handles a request as it does alone. -/
theorem Mirrors.step_generator {number : Nat} (h : session.Mirrors name (.generator number) lone)
    (request : GeneratorRequest)
    (hname : (session.built? (.generator number request)).map Prod.fst = some (.generator number) →
      name lone.fresh = session.fresh) :
    (session.step (.generator number request)).1.keeperAt? (.generator number) =
        ((lone.step (.generator number request)).1.keeperAt? (.generator number)).map
          (Keeper.rename name) ∧
      (session.step (.generator number request)).2 =
        (lone.step (.generator number request)).2.rename name := by
  have hsession := h.live?_generators
  cases hlone : live? lone.generators number with
  | none =>
    rw [hlone, Option.map_none] at hsession
    simp [step, hlone, hsession, reply, keeperAt?, Response.rename, Except.map]
  | some kept =>
    rw [hlone, Option.map_some] at hsession
    have hdrawn : ∀ setup, request.need? = some setup → kept.store.get? setup = none →
        name lone.fresh = session.fresh := by
      intro setup hneed hmissing
      apply hname
      simp [built?, served?, Request.need?, hneed, tableAt?, storeAt?, hsession, Generator.rename,
        hmissing]
    obtain ⟨hstate, hlog, houtcome⟩ := kept.handle_rename name hdrawn
    simp [step, hlone, hsession, afterGenerator, keeperAt?, live?_set _ _ (lt_of_live? hlone),
      live?_set _ _ (lt_of_live? hsession), Keeper.rename, Response.rename, hstate, hlog, houtcome]

/-- A place is opened in a session as it is alone. -/
theorem Mirrors.step_open (h : session.Mirrors name place lone)
    (howner : session.owner? place.open = some place) :
    (session.step place.open).1.keeperAt? place =
        ((lone.step place.open).1.keeperAt? place).map (Keeper.rename name) ∧
      (session.step place.open).2 = (lone.step place.open).2.rename name := by
  cases place with
  | store number =>
    obtain rfl : session.stores.length = number := by
      simpa [Place.open, owner?] using howner
    have hnext : lone.stores.length = session.stores.length := by
      simpa [Place.open, owner?] using h.next (Nat.lt_irrefl _)
    simp [Place.open, step, keeperAt?, live?_append_some, hnext, Keeper.rename, Response.rename,
      Except.map, Answer.rename]
  | generator number =>
    obtain rfl : session.generators.length = number := by
      simpa [Place.open, owner?] using howner
    have hnext : lone.generators.length = session.generators.length := by
      simpa [Place.open, owner?] using h.next (Nat.lt_irrefl _)
    simp [Place.open, step, keeperAt?, live?_append_some, hnext, Keeper.rename, Response.rename,
      Except.map, Answer.rename]

/-- A place is closed in a session as it is alone. -/
theorem Mirrors.step_close (h : session.Mirrors name place lone) :
    (session.step place.close).1.keeperAt? place =
        ((lone.step place.close).1.keeperAt? place).map (Keeper.rename name) ∧
      (session.step place.close).2 = (lone.step place.close).2.rename name := by
  cases place with
  | store number =>
    have hsession := h.live?_stores
    cases hlone : live? lone.stores number with
    | none =>
      rw [hlone, Option.map_none] at hsession
      simp [Place.close, step, hlone, hsession, reply, keeperAt?, Response.rename, Except.map]
    | some kept =>
      rw [hlone, Option.map_some] at hsession
      simp [Place.close, step, hlone, hsession, keeperAt?, live?_set _ _ (lt_of_live? hlone),
        live?_set _ _ (lt_of_live? hsession), Response.rename, Except.map, Answer.rename]
  | generator number =>
    have hsession := h.live?_generators
    cases hlone : live? lone.generators number with
    | none =>
      rw [hlone, Option.map_none] at hsession
      simp [Place.close, step, hlone, hsession, reply, keeperAt?, Response.rename, Except.map]
    | some kept =>
      rw [hlone, Option.map_some] at hsession
      simp [Place.close, step, hlone, hsession, keeperAt?, live?_set _ _ (lt_of_live? hlone),
        live?_set _ _ (lt_of_live? hsession), Response.rename, Except.map, Answer.rename]

/-- A request about a place is handled in a session as it is alone. -/
theorem Mirrors.step_owned (h : session.Mirrors name place lone) {request : Request}
    (howner : session.owner? request = some place)
    (hname : (session.built? request).map Prod.fst = some place →
      name lone.fresh = session.fresh) :
    (session.step request).1.keeperAt? place =
        ((lone.step request).1.keeperAt? place).map (Keeper.rename name) ∧
      (session.step request).2 = (lone.step request).2.rename name := by
  cases request with
  | openStore =>
    obtain rfl := Option.some.inj howner
    exact h.step_open howner
  | closeStore number =>
    obtain rfl := Option.some.inj howner
    exact h.step_close
  | store number request =>
    obtain rfl := Option.some.inj howner
    exact h.step_store request hname
  | openGenerator =>
    obtain rfl := Option.some.inj howner
    exact h.step_open howner
  | closeGenerator number =>
    obtain rfl := Option.some.inj howner
    exact h.step_close
  | generator number request =>
    obtain rfl := Option.some.inj howner
    exact h.step_generator request hname
  | _ => cases howner

/-- A request about a place keeps the mirror, if the lone session gets it as well. -/
theorem Mirrors.owned (h : session.Mirrors name place lone) {request : Request}
    (howner : session.owner? request = some place)
    (hname : (session.built? request).map Prod.fst = some place →
      name lone.fresh = session.fresh) :
    (session.step request).1.Mirrors name place (lone.step request).1 where
  keeper := (h.step_owned howner hname).1
  next hnot := by
    have hclosed : ¬ session.Opened place := fun hopen => hnot (session.opened_step request hopen)
    have hne : request ≠ place.open := by
      rintro rfl
      exact hnot (session.opened_step_open howner)
    rw [lone.owner?_open_step hne]
    exact h.next hclosed

/-- A request about another place keeps the mirror, while the lone session stands still. -/
theorem Mirrors.other (h : session.Mirrors name place lone) {request : Request}
    (howner : session.owner? request ≠ some place) :
    (session.step request).1.Mirrors name place lone where
  keeper := by rw [keeperAt?_step_of_owner?_ne _ howner, h.keeper]
  next hnot := h.next (fun hopen => hnot ((opened_step_of_owner?_ne _ howner).mpr hopen))

/-- A request builds a table at its place in a session exactly if it does so alone. -/
theorem Mirrors.built?_eq (h : session.Mirrors name place lone) {request : Request}
    (howner : session.owner? request = some place) :
    session.built? request = lone.built? request := by
  cases hneed : request.need? with
  | none =>
    rw [built?_of_served?_none (served?_of_need?_none hneed),
      built?_of_served?_none (served?_of_need?_none hneed)]
  | some need =>
    obtain ⟨other, setup⟩ := need
    have hother := session.owner?_of_place? (Request.place?_of_need? hneed)
    obtain rfl : place = other := Option.some.inj (howner.symm.trans hother)
    have hstore := h.storeAt?_eq
    cases hlone : lone.storeAt? place with
    | none => simp [built?, served?, hneed, hstore, hlone, Option.filter_some]
    | some store => simp [built?, served?, hneed, tableAt?, hstore, hlone, Option.filter_some]

/-- A run keeps the mirror, if the lone session gets the requests about the place only, and the
responses to these are the same. -/
theorem Mirrors.run (h : session.Mirrors name place lone) (requests : List Request)
    (hname : ∀ i ident, (session.identsAt place requests)[i]? = some ident →
      name (lone.fresh + i) = ident) :
    (session.run requests).1.Mirrors name place
        (lone.run (session.requestsAt place requests)).1 ∧
      session.responsesAt place requests =
        (lone.run (session.requestsAt place requests)).2.map (Response.rename name) := by
  induction requests generalizing session lone with
  | nil => exact ⟨h, rfl⟩
  | cons request rest ih =>
    rw [identsAt] at hname
    by_cases howner : session.owner? request = some place
    · have hdrawn : (session.built? request).map Prod.fst = some place →
          name lone.fresh = session.fresh := by
        intro hbuilt
        exact hname 0 session.fresh (by rw [if_pos hbuilt]; rfl)
      have hrest : ∀ i ident, ((session.step request).1.identsAt place rest)[i]? = some ident →
          name ((lone.step request).1.fresh + i) = ident := by
        intro i ident hident
        rw [fresh_step, ← h.built?_eq howner]
        cases hbuilt : session.built? request with
        | none => exact hname i ident (by simpa [hbuilt] using hident)
        | some entry =>
          have hplace : entry.1 = place :=
            Option.some.inj ((session.owner?_of_built? hbuilt).symm.trans howner)
          rw [Option.toList_some, List.length_singleton, Nat.add_assoc, Nat.add_comm 1 i]
          exact hname (i + 1) ident (by simpa [hbuilt, hplace] using hident)
      obtain ⟨hlast, hresponses⟩ := ih (h.owned howner hdrawn) hrest
      rw [requestsAt, responsesAt, if_pos howner, if_pos howner]
      refine ⟨hlast, ?_⟩
      rw [List.singleton_append, List.singleton_append, (h.step_owned howner hdrawn).2, hresponses]
      rfl
    · have hrest : ∀ i ident, ((session.step request).1.identsAt place rest)[i]? = some ident →
          name (lone.fresh + i) = ident := by
        intro i ident hident
        have hbuilt : (session.built? request).map Prod.fst ≠ some place := by
          intro heq
          obtain ⟨entry, hentry, rfl⟩ := Option.map_eq_some_iff.mp heq
          exact howner (session.owner?_of_built? hentry)
        exact hname i ident (by rwa [if_neg hbuilt])
      obtain ⟨hlast, hresponses⟩ := ih (h.other howner) hrest
      rw [requestsAt, responsesAt, if_neg howner, if_neg howner]
      exact ⟨hlast, hresponses⟩

end Mirror

/-- Identities are never given back. -/
theorem fresh_le_run (session : Session) (requests : List Request) :
    session.fresh ≤ (session.run requests).1.fresh := by
  induction requests generalizing session with
  | nil => exact Nat.le_refl _
  | cons request rest ih =>
    have hrest := ih (session.step request).1
    rw [fresh_step] at hrest
    exact Nat.le_trans (Nat.le_add_right _ _) hrest

/-- The identities that a place draws in a run are new ones. -/
theorem bounds_of_mem_identsAt {session : Session} {place : Place} {requests : List Request}
    {ident : Nat} (h : ident ∈ session.identsAt place requests) :
    session.fresh ≤ ident ∧ ident < (session.run requests).1.fresh := by
  induction requests generalizing session with
  | nil => cases h
  | cons request rest ih =>
    have hfirst := session.fresh_step request
    have hlast : (session.step request).1.fresh ≤ (session.run (request :: rest)).1.fresh :=
      fresh_le_run _ rest
    rcases List.mem_append.mp h with hnow | hlater
    · split at hnow
      · rename_i hbuilt
        obtain ⟨entry, hentry, -⟩ := Option.map_eq_some_iff.mp hbuilt
        rw [hentry, Option.toList_some, List.length_singleton] at hfirst
        rw [List.mem_singleton.mp hnow]
        omega
      · cases hnow
    · obtain ⟨hlow, hhigh⟩ := ih hlater
      exact ⟨by omega, hhigh⟩

/-- A place draws no identity twice. -/
theorem nodup_identsAt (session : Session) (place : Place) (requests : List Request) :
    (session.identsAt place requests).Nodup := by
  induction requests generalizing session with
  | nil => exact List.nodup_nil
  | cons request rest ih =>
    rw [identsAt]
    split
    · rename_i hbuilt
      obtain ⟨entry, hentry, -⟩ := Option.map_eq_some_iff.mp hbuilt
      have hfirst := session.fresh_step request
      rw [hentry, Option.toList_some, List.length_singleton] at hfirst
      refine List.nodup_cons.mpr ⟨fun hmem => ?_, ih _⟩
      have hlow := (bounds_of_mem_identsAt hmem).1
      omega
    · exact ih _

/-- Names for identities: those of a list by position, and unused ones beyond it. -/
def namesOf (idents : List Nat) (bound : Nat) (position : Nat) : Nat :=
  idents[position]?.getD (bound + position)

/-- Names are told apart if the list names none twice. -/
theorem namesOf_injective {idents : List Nat} {bound : Nat} (hnodup : idents.Nodup)
    (hbound : ∀ ident ∈ idents, ident < bound) : Function.Injective (namesOf idents bound) := by
  intro i j hij
  rw [namesOf, namesOf] at hij
  cases hi : idents[i]? with
  | none =>
    cases hj : idents[j]? with
    | none =>
      rw [hi, hj, Option.getD_none, Option.getD_none] at hij
      omega
    | some ident =>
      have hlt := hbound ident (List.mem_of_getElem? hj)
      rw [hi, hj, Option.getD_none, Option.getD_some] at hij
      omega
  | some ident =>
    cases hj : idents[j]? with
    | none =>
      have hlt := hbound ident (List.mem_of_getElem? hi)
      rw [hi, hj, Option.getD_none, Option.getD_some] at hij
      omega
    | some other =>
      rw [hi, hj, Option.getD_some, Option.getD_some] at hij
      have hlt : i < idents.length := (List.getElem?_eq_some_iff.mp hi).1
      exact (List.getElem?_inj hlt hnodup).mp (by rw [hi, hj, hij])

/-- Before anything has happened, a place is mirrored by its own session. -/
theorem mirrors_alone (name : Nat → Nat) (place : Place) :
    ({} : Session).Mirrors name place place.alone where
  keeper := by
    cases place with
    | store number => simp [keeperAt?, Place.alone, live?]
    | generator number => simp [keeperAt?, Place.alone, live?]
  next _ := by
    cases place with
    | store number => simp [Place.open, owner?, Place.alone]
    | generator number => simp [Place.open, owner?, Place.alone]

/-- In any run a place answers, logs and ends as if only the requests about it had been made, up
to an injective choice of identities; a request changes nothing at a place it is not about, and
no table that has been answered before, nor does closing a place. -/
theorem responsesAt_eq_alone (requests : List Request) (place : Place) :
    let lone := place.alone.run (({} : Session).requestsAt place requests)
    (∃ name : Nat → Nat, Function.Injective name ∧
      ({} : Session).responsesAt place requests = lone.2.map (Response.rename name) ∧
      (({} : Session).run requests).1.keeperAt? place =
        (lone.1.keeperAt? place).map (Keeper.rename name)) ∧
    (∀ (name : Nat → Nat) (store : TableStore), (store.rename name).builds = store.builds ∧
      (store.rename name).resident = store.resident ∧
      ∀ setup, ((store.rename name).get? setup).map SharedTable.table =
        (store.get? setup).map SharedTable.table) ∧
    (∀ (session : Session) (request : Request) (other : Place),
      session.owner? request ≠ some other →
      (session.step request).1.keeperAt? other = session.keeperAt? other) ∧
    (∀ (session : Session) (request : Request),
      session.tables <+: (session.step request).1.tables) ∧
    (∀ (session : Session) (other : Place), other ≠ place →
      (session.step place.close).1.keeperAt? other = session.keeperAt? other ∧
        (session.step place.close).1.tables = session.tables) := by
  intro lone
  refine ⟨?_, ?_, ?_, ?_, ?_⟩
  · let idents := ({} : Session).identsAt place requests
    let name := namesOf idents (({} : Session).run requests).1.fresh
    have hinjective : Function.Injective name :=
      namesOf_injective (nodup_identsAt _ _ _) fun ident hmem => (bounds_of_mem_identsAt hmem).2
    have hname : ∀ i ident, idents[i]? = some ident → name (place.alone.fresh + i) = ident := by
      intro i ident hident
      have hfresh : place.alone.fresh = 0 := by cases place <;> rfl
      simp [name, namesOf, hfresh, hident]
    obtain ⟨hlast, hresponses⟩ := (mirrors_alone name place).run requests hname
    exact ⟨name, hinjective, hresponses, hlast.keeper⟩
  · intro name store
    refine ⟨rfl, store.resident_rename name, fun setup => ?_⟩
    rw [TableStore.get?_rename, Option.map_map]
    rfl
  · intro session request other howner
    exact session.keeperAt?_step_of_owner?_ne howner
  · intro session request
    exact session.prefix_tables_step request
  · intro session other hne
    refine ⟨session.keeperAt?_step_of_owner?_ne ?_, session.tables_step_close place⟩
    rw [owner?_close]
    exact fun heq => hne (Option.some.inj heq).symm

/-- A store that shares a session with another one, which is used first and closed in between,
answers as it does alone, where its table has identity 0. -/
theorem responsesAt_eq_alone_twoStores :
    let setup : Setup := ⟨.mos8580, .weak⟩
    let place : Place := .store 1
    let requests : List Request := [.openStore, .openStore, .store 0 (.obtain setup),
      .store 1 (.obtain setup), .closeStore 0, .store 1 (.get setup)]
    let session := (({} : Session).run requests).1
    (∃ name : Nat → Nat, Function.Injective name ∧
      ({} : Session).responsesAt place requests =
        [⟨.ok (.opened 1), []⟩, ⟨.ok (.table ⟨name 0, setup.table⟩), [.built setup]⟩,
          ⟨.ok (.table ⟨name 0, setup.table⟩), []⟩]) ∧
    (session.step place.close).1.keeperAt? (.store 0) = session.keeperAt? (.store 0) ∧
    (session.step (.store 0 (.obtain setup))).1.keeperAt? place = session.keeperAt? place := by
  intro setup place requests session
  obtain ⟨⟨name, hinjective, hresponses, -⟩, -, hframe, -, hclose⟩ :=
    responsesAt_eq_alone requests place
  refine ⟨⟨name, hinjective, hresponses⟩, (hclose session (.store 0) (by decide)).1, ?_⟩
  exact hframe session (.store 0 (.obtain setup)) place (by decide)

end Session

end SidVoice
