import Mathlib.Data.List.Nodup
import SidVoice.Proofs.Session.Effect

/-!
# The register of built tables

Every table that a session builds gets the next free identity. So the identity of a table is its
position among all tables built so far, and the list of the places and setups for which they were
built is a register of identities. A register names no place and setup twice, and it names only
those whose table is still there, unless the place has been closed.

The table of a place and setup changes at most once: when it is built.
-/

namespace SidVoice

namespace Session

/-- The place and the setup whose table a request builds. -/
def built? (session : Session) (request : Request) : Option (Place × Setup) :=
  (session.served? request).filter fun need => (session.tableAt? need.1 need.2).isNone

/-- The places and the setups whose tables a run builds, in order. -/
def built (session : Session) : List Request → List (Place × Setup)
  | [] => []
  | request :: rest => (session.built? request).toList ++ (session.step request).1.built rest

/-- The identities of a session are those of a register of the tables built so far. -/
structure Registered (session : Session) (owners : List (Place × Setup)) : Prop where
  /-- The next free identity is the next position of the register. -/
  fresh_eq : session.fresh = owners.length
  /-- No table is built twice. -/
  nodup : owners.Nodup
  /-- A table that is held has the samples of its setup, and is registered for its place and
  setup under its identity. -/
  entry_of_tableAt? : ∀ {place setup shared}, session.tableAt? place setup = some shared →
    shared.table = setup.table ∧ owners[shared.ident]? = some (place, setup)
  /-- Tables are built in places that have been opened. -/
  opened_of_mem : ∀ {place setup}, (place, setup) ∈ owners → session.Opened place
  /-- A place that is alive holds every table it has built. -/
  tableAt?_of_mem : ∀ {place setup}, (place, setup) ∈ owners →
    (session.storeAt? place).isSome → (session.tableAt? place setup).isSome

section Tables

variable {session next : Session} {place : Place}

theorem tableAt?_of_same (hstores : next.storeAt? = session.storeAt?) :
    next.tableAt? = session.tableAt? := by
  funext other setup
  rw [tableAt?, tableAt?, hstores]

theorem tableAt?_of_update {value : Option TableStore}
    (hstores : next.storeAt? = Function.update session.storeAt? place value)
    (other : Place) (setup : Setup) :
    next.tableAt? other setup =
      if other = place then value.bind fun store => store.get? setup
      else session.tableAt? other setup := by
  rw [tableAt?, hstores, Function.update_apply]
  split <;> rfl

/-- Building a table changes the table of its own place and setup only. -/
theorem tableAt?_of_put {store : TableStore} {setup : Setup} {shared : SharedTable}
    (hstore : session.storeAt? place = some store)
    (hstores : next.storeAt? =
      Function.update session.storeAt? place (some (store.put setup shared)))
    (other : Place) (asked : Setup) :
    next.tableAt? other asked =
      if other = place ∧ asked = setup then some shared else session.tableAt? other asked := by
  rw [tableAt?_of_update hstores]
  by_cases hplace : other = place
  · subst hplace
    rw [if_pos rfl, Option.bind_some]
    by_cases hsetup : asked = setup
    · subst hsetup
      simp
    · rw [if_neg (fun h => hsetup h.2), TableStore.get?_put_of_ne _ _ hsetup,
        tableAt?_of_storeAt? hstore]
  · rw [if_neg hplace, if_neg (fun h => hplace h.1)]

/-- A place that has not been opened holds nothing. -/
theorem storeAt?_of_not_opened (h : ¬ session.Opened place) : session.storeAt? place = none := by
  cases place with
  | store number => simp [storeAt?, live?, List.getElem?_eq_none (Nat.le_of_not_lt h)]
  | generator number => simp [storeAt?, live?, List.getElem?_eq_none (Nat.le_of_not_lt h)]

/-- A place that holds a table is alive. -/
theorem storeAt?_of_tableAt? {setup : Setup} {shared : SharedTable}
    (h : session.tableAt? place setup = some shared) : (session.storeAt? place).isSome := by
  obtain ⟨store, hstore, -⟩ := Option.bind_eq_some_iff.mp h
  rw [hstore]
  rfl

/-- The table of a place and setup after a request: it is built if the request is the first to
be served it, and stays as it is otherwise. Closing the place is left out. -/
theorem tableAt?_step {request : Request} (hclose : request ≠ place.close) (setup : Setup) :
    (session.step request).1.tableAt? place setup =
      if session.served? request = some (place, setup) then
        some ((session.tableAt? place setup).getD ⟨session.fresh, setup.table⟩)
      else session.tableAt? place setup := by
  cases session.step_effect request with
  | idle hserved hstores hopened hfresh hlog =>
    rw [if_neg (by simp [hserved]), tableAt?_of_same hstores]
  | opened new hserved haddressed hnew hstores hopened hfresh =>
    rw [if_neg (by simp [hserved]), tableAt?_of_update hstores]
    split
    · rename_i heq
      subst heq
      rw [tableAt?, storeAt?_of_not_opened hnew]
      simp
    · rfl
  | closed gone hserved hrequest hstores hopened hfresh hlog =>
    have hne : place ≠ gone := fun h => hclose (h ▸ hrequest)
    rw [if_neg (by simp [hserved]), tableAt?_of_update hstores, if_neg hne]
  | hit other asked shared hserved htable hstores hopened hfresh hlog =>
    rw [tableAt?_of_same hstores, hserved]
    split
    · rename_i h
      obtain ⟨rfl, rfl⟩ := Prod.mk.inj (Option.some.inj h)
      rw [htable, Option.getD_some]
    · rfl
  | built other asked store hserved hstore hmissing hstores hopened hfresh hlog =>
    rw [tableAt?_of_put hstore hstores, hserved]
    by_cases h : place = other ∧ setup = asked
    · obtain ⟨rfl, rfl⟩ := h
      rw [if_pos ⟨rfl, rfl⟩, if_pos rfl, tableAt?_of_storeAt? hstore, hmissing, Option.getD_none]
    · rw [if_neg h, if_neg]
      intro hpair
      obtain ⟨rfl, rfl⟩ := Prod.mk.inj (Option.some.inj hpair)
      exact h ⟨rfl, rfl⟩

/-- A table that is held stays, unless its place is closed. -/
theorem tableAt?_step_of_some {request : Request} (hclose : request ≠ place.close)
    {setup : Setup} {shared : SharedTable} (h : session.tableAt? place setup = some shared) :
    (session.step request).1.tableAt? place setup = some shared := by
  rw [tableAt?_step hclose, h, Option.getD_some]
  split <;> rfl

/-- A table that is held stays through a run that does not close its place. -/
theorem tableAt?_run_of_some {requests : List Request} (hclose : place.close ∉ requests)
    {setup : Setup} {shared : SharedTable} (h : session.tableAt? place setup = some shared) :
    (session.run requests).1.tableAt? place setup = some shared := by
  induction requests generalizing session with
  | nil => exact h
  | cons request rest ih =>
    obtain ⟨hfirst, hrest⟩ := not_or.mp (List.mem_cons.not.mp hclose)
    exact ih hrest (tableAt?_step_of_some (Ne.symm hfirst) h)

end Tables

section Registration

variable {session next : Session} {owners : List (Place × Setup)}

theorem built?_of_served?_none {request : Request} (h : session.served? request = none) :
    session.built? request = none := by
  rw [built?, h, Option.filter_none]

theorem built?_of_hit {request : Request} {place : Place} {setup : Setup} {shared : SharedTable}
    (hserved : session.served? request = some (place, setup))
    (htable : session.tableAt? place setup = some shared) : session.built? request = none := by
  simp [built?, hserved, htable]

theorem built?_of_missing {request : Request} {place : Place} {setup : Setup} {store : TableStore}
    (hserved : session.served? request = some (place, setup))
    (hstore : session.storeAt? place = some store) (hmissing : store.get? setup = none) :
    session.built? request = some (place, setup) := by
  simp [built?, hserved, tableAt?_of_storeAt? hstore, hmissing]

theorem registered_empty : ({} : Session).Registered [] where
  fresh_eq := rfl
  nodup := List.nodup_nil
  entry_of_tableAt? h := by simp at h
  opened_of_mem h := by simp at h
  tableAt?_of_mem h := by simp at h

/-- A request that changes no store leaves the register as it is. -/
theorem Registered.of_same (h : session.Registered owners)
    (hstores : next.storeAt? = session.storeAt?) (hopened : next.Opened = session.Opened)
    (hfresh : next.fresh = session.fresh) : next.Registered owners where
  fresh_eq := hfresh.trans h.fresh_eq
  nodup := h.nodup
  entry_of_tableAt? htable := h.entry_of_tableAt? (tableAt?_of_same hstores ▸ htable)
  opened_of_mem hmem := hopened ▸ h.opened_of_mem hmem
  tableAt?_of_mem hmem halive := by
    rw [hstores] at halive
    rw [tableAt?_of_same hstores]
    exact h.tableAt?_of_mem hmem halive

/-- A place may come to hold nothing if it is closed or has nothing in the register. -/
theorem Registered.of_cleared (h : session.Registered owners) {place : Place}
    {value : Option TableStore}
    (hvalue : ∀ setup, (value.bind fun store => store.get? setup) = none)
    (hunregistered : value.isSome → ∀ setup, (place, setup) ∉ owners)
    (hstores : next.storeAt? = Function.update session.storeAt? place value)
    (hopened : ∀ other, session.Opened other → next.Opened other)
    (hfresh : next.fresh = session.fresh) : next.Registered owners where
  fresh_eq := hfresh.trans h.fresh_eq
  nodup := h.nodup
  entry_of_tableAt? {other setup shared} htable := by
    rw [tableAt?_of_update hstores, hvalue] at htable
    split at htable
    · cases htable
    · exact h.entry_of_tableAt? htable
  opened_of_mem hmem := hopened _ (h.opened_of_mem hmem)
  tableAt?_of_mem {other setup} hmem halive := by
    rw [hstores] at halive
    have hne : other ≠ place := by
      rintro rfl
      rw [Function.update_self] at halive
      exact hunregistered halive setup hmem
    rw [Function.update_of_ne hne] at halive
    rw [tableAt?_of_update hstores, if_neg hne]
    exact h.tableAt?_of_mem hmem halive

/-- A table that is built is the next entry of the register. -/
theorem Registered.of_built (h : session.Registered owners) {place : Place} {setup : Setup}
    {store : TableStore} (hstore : session.storeAt? place = some store)
    (hmissing : store.get? setup = none)
    (hstores : next.storeAt? = Function.update session.storeAt? place
      (some (store.put setup ⟨session.fresh, setup.table⟩)))
    (hopened : next.Opened = session.Opened) (hfresh : next.fresh = session.fresh + 1) :
    next.Registered (owners ++ [(place, setup)]) := by
  have halive : (session.storeAt? place).isSome := by rw [hstore]; rfl
  have hnotMem : (place, setup) ∉ owners := by
    intro hmem
    have hheld := h.tableAt?_of_mem hmem halive
    rw [tableAt?_of_storeAt? hstore, hmissing] at hheld
    cases hheld
  refine ⟨?_, ?_, ?_, ?_, ?_⟩
  · rw [hfresh, h.fresh_eq, List.length_append, List.length_singleton]
  · exact List.nodup_append.mpr ⟨h.nodup, List.nodup_singleton _, fun entry hentry other hother =>
      fun heq => hnotMem (List.mem_singleton.mp hother ▸ heq ▸ hentry)⟩
  · intro other asked shared htable
    rw [tableAt?_of_put hstore hstores] at htable
    split at htable
    · rename_i heq
      obtain ⟨rfl, rfl⟩ := heq
      obtain rfl := Option.some.inj htable
      exact ⟨rfl, by rw [h.fresh_eq]; simp⟩
    · obtain ⟨hsamples, hentry⟩ := h.entry_of_tableAt? htable
      have hlt : shared.ident < owners.length := (List.getElem?_eq_some_iff.mp hentry).1
      exact ⟨hsamples, by rw [List.getElem?_append_left hlt, hentry]⟩
  · intro other asked hmem
    rw [hopened]
    rcases List.mem_append.mp hmem with hold | hnew
    · exact h.opened_of_mem hold
    · obtain ⟨rfl, rfl⟩ := Prod.mk.inj (List.mem_singleton.mp hnew)
      by_contra hclosed
      rw [storeAt?_of_not_opened hclosed] at halive
      cases halive
  · intro other asked hmem hother
    rw [tableAt?_of_put hstore hstores]
    split
    · rfl
    · rename_i hne
      rcases List.mem_append.mp hmem with hold | hnew
      · refine h.tableAt?_of_mem hold ?_
        rw [hstores, Function.update_apply] at hother
        split at hother
        · rename_i heq
          rw [heq]
          exact halive
        · exact hother
      · exact absurd (Prod.mk.inj (List.mem_singleton.mp hnew)) hne

/-- A request adds to the register what it builds. -/
theorem Registered.step (h : session.Registered owners) (request : Request) :
    (session.step request).1.Registered (owners ++ (session.built? request).toList) := by
  cases session.step_effect request with
  | idle hserved hstores hopened hfresh hlog =>
    rw [built?_of_served?_none hserved, Option.toList_none, List.append_nil]
    exact h.of_same hstores hopened hfresh
  | opened place hserved haddressed hnew hstores hopened hfresh =>
    rw [built?_of_served?_none hserved, Option.toList_none, List.append_nil]
    refine h.of_cleared (fun setup => by simp) (fun _ setup hmem => ?_) hstores
      (fun other hother => (hopened other).mpr (Or.inr hother)) hfresh
    exact hnew (h.opened_of_mem hmem)
  | closed place hserved hrequest hstores hopened hfresh hlog =>
    rw [built?_of_served?_none hserved, Option.toList_none, List.append_nil]
    exact h.of_cleared (fun setup => rfl) (fun hnone => by cases hnone) hstores
      (fun other hother => hopened ▸ hother) hfresh
  | hit place setup shared hserved htable hstores hopened hfresh hlog =>
    rw [built?_of_hit hserved htable, Option.toList_none, List.append_nil]
    exact h.of_same hstores hopened hfresh
  | built place setup store hserved hstore hmissing hstores hopened hfresh hlog =>
    rw [built?_of_missing hserved hstore hmissing, Option.toList_some]
    exact h.of_built hstore hmissing hstores hopened hfresh

/-- A run adds to the register what it builds. -/
theorem Registered.run (h : session.Registered owners) (requests : List Request) :
    (session.run requests).1.Registered (owners ++ session.built requests) := by
  induction requests generalizing session owners with
  | nil => simpa [Session.run, Session.built] using h
  | cons request rest ih =>
    have hrest := ih (h.step request)
    rw [List.append_assoc] at hrest
    exact hrest

/-- In every reachable session the register is what has been built. -/
theorem registered_run (requests : List Request) :
    (({} : Session).run requests).1.Registered (({} : Session).built requests) :=
  registered_empty.run requests

end Registration

end Session

end SidVoice
