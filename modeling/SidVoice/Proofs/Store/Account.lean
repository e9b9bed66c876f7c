import Mathlib.Data.Finset.Card
import Mathlib.Data.Finset.Dedup
import SidVoice.Store.TableStore

/-!
# The account of a store

A store keeps its tables, the number of its builds and, through what it logs, a record of every
request. The three are written at different points; `TableStore.Accounted` says that they agree
with the list of the setups that have been asked for so far. Only which setups are in the list
matters to the tables and the number of builds, not their order or how often they occur.
-/

namespace SidVoice

/-- Whether an event tells of a combined table that has been built. -/
def LogEvent.isBuilt : LogEvent → Bool
  | built _ => true
  | _ => false

/-- Whether an event tells of a combined table that was there already. -/
def LogEvent.isHit : LogEvent → Bool
  | hit _ => true
  | _ => false

/-- The events of requests for setups: the first request for a setup builds. -/
def LogEvent.ofRequests (seen : List Setup) : List Setup → List LogEvent
  | [] => []
  | setup :: rest =>
    (if setup ∈ seen then hit setup else built setup) :: ofRequests (seen ++ [setup]) rest

/-- One more request adds its setup to those asked for. -/
theorem Setup.toFinset_append_singleton (asked : List Setup) (setup : Setup) :
    (asked ++ [setup]).toFinset = insert setup asked.toFinset := by
  ext other
  simp

namespace LogEvent

@[simp] theorem length_ofRequests (seen asked : List Setup) :
    (ofRequests seen asked).length = asked.length := by
  induction asked generalizing seen with
  | nil => rfl
  | cons setup rest ih => rw [ofRequests, List.length_cons, ih, List.length_cons]

theorem ofRequests_append (seen asked more : List Setup) :
    ofRequests seen (asked ++ more) = ofRequests seen asked ++ ofRequests (seen ++ asked) more := by
  induction asked generalizing seen with
  | nil => simp [ofRequests]
  | cons setup rest ih => simp [ofRequests, ih]

/-- An event tells of a build exactly if no earlier request was for its setup. -/
theorem getElem?_ofRequests (seen asked : List Setup) (i : Nat) :
    (ofRequests seen asked)[i]? =
      asked[i]?.map fun setup =>
        if setup ∈ seen ++ asked.take i then hit setup else built setup := by
  induction asked generalizing seen i with
  | nil => rfl
  | cons setup rest ih =>
    cases i with
    | zero => simp [ofRequests]
    | succ i =>
      rw [ofRequests, List.getElem?_cons_succ, List.getElem?_cons_succ, ih]
      simp

/-- As many tables are built as there are setups that were not seen before. -/
theorem countP_isBuilt_ofRequests (seen asked : List Setup) :
    (ofRequests seen asked).countP isBuilt + seen.toFinset.card =
      (seen ++ asked).toFinset.card := by
  induction asked generalizing seen with
  | nil => simp [ofRequests]
  | cons setup rest ih =>
    have hrest := ih (seen ++ [setup])
    rw [List.append_assoc, List.singleton_append] at hrest
    rw [ofRequests, List.countP_cons, ← hrest]
    have hinsert := Setup.toFinset_append_singleton seen setup
    by_cases hseen : setup ∈ seen
    · rw [if_pos hseen, hinsert, Finset.insert_eq_of_mem (List.mem_toFinset.mpr hseen)]
      rfl
    · have hfresh : setup ∉ seen.toFinset := fun h => hseen (List.mem_toFinset.mp h)
      rw [if_neg hseen, hinsert, Finset.card_insert_of_notMem hfresh]
      simp [isBuilt]
      omega

/-- Every event of a request tells of a build or of a hit. -/
theorem countP_isHit_ofRequests (seen asked : List Setup) :
    (ofRequests seen asked).countP isHit + (ofRequests seen asked).countP isBuilt =
      asked.length := by
  induction asked generalizing seen with
  | nil => rfl
  | cons setup rest ih =>
    have hrest := ih (seen ++ [setup])
    rw [ofRequests, List.countP_cons, List.countP_cons, List.length_cons]
    by_cases hseen : setup ∈ seen
    · simp [hseen, isHit, isBuilt]
      omega
    · simp [hseen, isHit, isBuilt]
      omega

end LogEvent

namespace TableStore

@[simp] theorem resident_empty : empty.resident = 0 := by decide

/-- A table that is put into an empty place is one more. -/
theorem resident_put {store : TableStore} {setup : Setup} (shared : SharedTable)
    (hmissing : store.get? setup = none) :
    (store.put setup shared).resident = store.resident + 1 := by
  have hlt : setup.slot.val < store.places.toList.length := by
    rw [Vector.length_toList]
    exact setup.slot.isLt
  have hplace : store.places.toList[setup.slot.val] = none := by
    rw [Vector.getElem_toList]
    exact hmissing
  rw [resident, put, Vector.toList_set, List.countP_set hlt, hplace]
  simp [resident]

/-- The tables, the builds and the requests of a store agree. -/
structure Accounted (store : TableStore) (asked : List Setup) : Prop where
  /-- The store holds the tables that have been asked for. -/
  isSome_get? : ∀ setup, (store.get? setup).isSome ↔ setup ∈ asked
  /-- It has built one table for each setup that has been asked for. -/
  builds_eq : store.builds = asked.toFinset.card
  /-- It holds as many tables as it has built. -/
  resident_eq : store.resident = store.builds

theorem accounted_empty : empty.Accounted [] where
  isSome_get? setup := by simp
  builds_eq := rfl
  resident_eq := resident_empty

namespace Accounted

variable {store : TableStore} {asked : List Setup}

/-- A request that is answered from its place adds nothing new. -/
theorem hit (h : store.Accounted asked) {setup : Setup} (hheld : (store.get? setup).isSome) :
    store.Accounted (asked ++ [setup]) := by
  have hmem : setup ∈ asked := (h.isSome_get? setup).mp hheld
  have hsame : (asked ++ [setup]).toFinset = asked.toFinset := by
    rw [Setup.toFinset_append_singleton,
      Finset.insert_eq_of_mem (List.mem_toFinset.mpr hmem)]
  refine ⟨fun other => ?_, by rw [hsame, h.builds_eq], h.resident_eq⟩
  rw [h.isSome_get?, ← List.mem_toFinset, ← List.mem_toFinset, hsame]

/-- A table that is built is a new one. -/
theorem put (h : store.Accounted asked) {setup : Setup} (shared : SharedTable)
    (hmissing : store.get? setup = none) :
    (store.put setup shared).Accounted (asked ++ [setup]) := by
  have hnotMem : setup ∉ asked := by
    intro hmem
    have hheld := (h.isSome_get? setup).mpr hmem
    rw [hmissing] at hheld
    cases hheld
  have hinsert := Setup.toFinset_append_singleton asked setup
  refine ⟨fun other => ?_, ?_, ?_⟩
  · by_cases heq : other = setup
    · subst heq
      simp
    · rw [get?_put_of_ne _ _ heq, h.isSome_get?]
      simp [heq]
  · have hfresh : setup ∉ asked.toFinset := fun hmem => hnotMem (List.mem_toFinset.mp hmem)
    rw [hinsert, Finset.card_insert_of_notMem hfresh, ← h.builds_eq]
    rfl
  · rw [resident_put shared hmissing, h.resident_eq]
    rfl

/-- There are only six tables to build. -/
theorem builds_le (h : store.Accounted asked) : store.builds ≤ Setup.count := by
  rw [← h.resident_eq, resident]
  calc
    store.places.toList.countP Option.isSome ≤ store.places.toList.length := List.countP_le_length
    _ = Setup.count := Vector.length_toList

/-- A store is empty exactly if nothing has been asked for. -/
theorem isEmpty_iff (h : store.Accounted asked) : store.isEmpty = true ↔ asked = [] := by
  rw [isEmpty, beq_iff_eq, h.resident_eq, h.builds_eq, Finset.card_eq_zero,
    List.toFinset_eq_empty_iff]

/-- Two stores that have been asked for the same setups have built and hold the same. -/
theorem congr {other : TableStore} {asked' : List Setup} (h : store.Accounted asked)
    (h' : other.Accounted asked') (hsame : ∀ setup, setup ∈ asked ↔ setup ∈ asked') :
    store.builds = other.builds ∧ store.resident = other.resident ∧
      ∀ setup, (store.get? setup).isSome = (other.get? setup).isSome := by
  have hsets : asked.toFinset = asked'.toFinset := by
    ext setup
    rw [List.mem_toFinset, List.mem_toFinset, hsame]
  have hbuilds : store.builds = other.builds := by rw [h.builds_eq, h'.builds_eq, hsets]
  refine ⟨hbuilds, by rw [h.resident_eq, h'.resident_eq, hbuilds], fun setup => ?_⟩
  rw [Bool.eq_iff_iff, h.isSome_get?, h'.isSome_get?, hsame]

end Accounted

end TableStore

end SidVoice
