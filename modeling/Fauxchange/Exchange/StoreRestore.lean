import Fauxchange.Exchange.Restore

/-! What the two shared stores give back: a restore puts the captured legs and folds of one underlying in the
place of those the stores hold by then, and leaves the others alone. -/

namespace Fauxchange.Exchange
open Lib

namespace InMemoryExecutionsStore
variable {store later : InMemoryExecutionsStore} {underlying : String}

/-- Every leg is stored under its own key. -/
def Keyed (store : InMemoryExecutionsStore) : Prop :=
  ∀ (key : ExecutionId × Bool) (stored : StoredExecution), store.records[key]? = some stored → stored.record.key = key

/-- The legs of one underlying. -/
def slice (store : InMemoryExecutionsStore) (underlying : String) : PairMap ExecutionId Bool StoredExecution :=
  store.records.filter fun _ stored => executionLegBelongs stored.record underlying

/-- The legs of a list of captures, the last one of a key. -/
def capturedSlice (captures : List ExecutionCapture) : PairMap ExecutionId Bool StoredExecution :=
  writeAll (fun capture : ExecutionCapture => capture.record.key) (fun capture => ⟨capture.ord, capture.record⟩) ∅
    captures

theorem keyed_new : new.Keyed := by
  intro key stored present
  cases present

theorem Keyed.record (keyed : store.Keyed) (leg : ExecutionRecord) : (store.record leg).Keyed := by
  intro key stored present
  unfold InMemoryExecutionsStore.record at present
  split at present
  all_goals
    simp only [Std.ExtTreeMap.getElem?_insert, pairCompare_eq_iff] at present
    split at present
    next same =>
      cases present
      exact same
    next => exact keyed key stored present

theorem Keyed.restoreFor (keyed : store.Keyed) (underlying : String) (captures : List ExecutionCapture) :
    (store.restoreFor underlying captures).Keyed := by
  intro key stored present
  rcases exists_of_getElem?_writeAll present with old | ⟨capture, -, same, rfl⟩
  · rw [Std.ExtTreeMap.getElem?_filter', Option.filter_eq_some_iff] at old
    exact keyed key stored old.1
  · exact same

theorem getElem?_slice {key : ExecutionId × Bool} {stored : StoredExecution} :
    (store.slice underlying)[key]? = some stored ↔
      store.records[key]? = some stored ∧ executionLegBelongs stored.record underlying = true := by
  unfold slice
  rw [Std.ExtTreeMap.getElem?_filter', Option.filter_eq_some_iff]

/-- The legs that belong to the underlying, read off its slice. -/
theorem stored_slice (store : InMemoryExecutionsStore) (underlying : String) :
    (store.stored.filter fun stored => executionLegBelongs stored.record underlying) =
      (store.slice underlying).toList.map Prod.snd := by
  unfold stored slice
  rw [Std.ExtTreeMap.toList_filter, List.filter_map]
  rfl

/-- So are the executions of an account in it. -/
theorem list_congr (same : store.slice underlying = later.slice underlying) (account : AccountId) (limit : Option Nat) :
    store.list account ⟨some underlying, limit⟩ = later.list account ⟨some underlying, limit⟩ := by
  have matched : ∀ store : InMemoryExecutionsStore, (store.stored.filter fun stored =>
      stored.record.account = account ∧ (some underlying).all (stored.record.symbol = ·)) =
        ((store.slice underlying).toList.map Prod.snd).filter fun stored => stored.record.account = account := by
    intro store
    rw [← stored_slice, List.filter_filter]
    refine List.filter_congr fun stored _ => ?_
    simp [executionLegBelongs, Bool.decide_and]
  unfold InMemoryExecutionsStore.list
  simp only [matched, same]

theorem mem_captureFor {capture : ExecutionCapture} :
    capture ∈ store.captureFor underlying ↔
      ∃ key : ExecutionId × Bool, (store.slice underlying)[key]? = some (StoredExecution.mk capture.ord capture.record) := by
  unfold captureFor
  rw [(sortByKey_perm _ _).mem_iff, stored_slice, List.map_map, List.mem_map]
  constructor
  · rintro ⟨⟨key, stored⟩, member, rfl⟩
    exact ⟨key, Std.ExtTreeMap.mem_toList_iff_getElem?_eq_some.1 member⟩
  · rintro ⟨key, present⟩
    exact ⟨(key, _), Std.ExtTreeMap.mem_toList_iff_getElem?_eq_some.2 present, rfl⟩

/-- A restore installs the slice of the captures that belong to the underlying. -/
theorem slice_restoreFor (later : InMemoryExecutionsStore) (underlying : String) (captures : List ExecutionCapture) :
    (later.restoreFor underlying captures).slice underlying =
      capturedSlice (captures.filter fun capture => executionLegBelongs capture.record underlying) :=
  filter_writeAll (fun stored : StoredExecution => executionLegBelongs stored.record underlying)
    fun _ member => (List.mem_filter.1 member).2

theorem Keyed.distinct (keyed : store.Keyed) (underlying : String) :
    ((store.captureFor underlying).map fun capture => capture.record.key).Nodup := by
  unfold captureFor
  refine ((sortByKey_perm _ _).map _).nodup_iff.2 ?_
  rw [stored_slice, List.map_map, List.map_map, List.nodup_iff_pairwise_ne, List.pairwise_map]
  refine Std.ExtTreeMap.distinct_keys_toList.imp_of_mem ?_
  intro left right here there apart same
  have key : ∀ entry ∈ (store.slice underlying).toList, entry.2.record.key = entry.1 := by
    intro entry member
    have present := Std.ExtTreeMap.mem_toList_iff_getElem?_eq_some.1 member
    exact keyed entry.1 entry.2 (getElem?_slice.1 present).1
  refine apart (pairCompare_eq_iff.2 ?_)
  rw [← key left here, ← key right there]
  exact same

theorem Keyed.capturedSlice_captureFor (keyed : store.Keyed) (underlying : String) :
    capturedSlice (store.captureFor underlying) = store.slice underlying := by
  refine writeAll_eq (keyed.distinct underlying) fun key stored => ?_
  constructor
  · intro present
    exact ⟨⟨stored.ord, stored.record⟩, mem_captureFor.2 ⟨key, present⟩,
      keyed key stored (getElem?_slice.1 present).1, rfl⟩
  · rintro ⟨capture, member, rfl, rfl⟩
    obtain ⟨place, present⟩ := mem_captureFor.1 member
    rw [keyed place _ (getElem?_slice.1 present).1]
    exact present

/-- A captured slice comes back as it was, over whatever the store holds by then. -/
theorem Keyed.slice_restored (keyed : store.Keyed) (later : InMemoryExecutionsStore) (underlying : String) :
    (later.restoreFor underlying (store.captureFor underlying)).slice underlying = store.slice underlying := by
  have own : ((store.captureFor underlying).filter fun capture => executionLegBelongs capture.record underlying) =
      store.captureFor underlying := by
    refine List.filter_eq_self.2 fun capture member => ?_
    obtain ⟨key, present⟩ := mem_captureFor.1 member
    exact (getElem?_slice.1 present).2
  rw [slice_restoreFor, own, keyed.capturedSlice_captureFor]

end InMemoryExecutionsStore

namespace InMemoryPositionsStore

/-- The folds of one underlying. -/
def slice (store : InMemoryPositionsStore) (underlying : String) : PairMap AccountId Symbol PositionState :=
  store.positions.filter fun _ state => positionFoldBelongs state.underlying underlying

def capturedSlice (captures : List PositionCapture) : PairMap AccountId Symbol PositionState :=
  writeAll (fun capture : PositionCapture => (capture.account, capture.symbol)) PositionState.fromCapture ∅ captures

theorem slice_restoreFor (later : InMemoryPositionsStore) (underlying : String) (captures : List PositionCapture) :
    (later.restoreFor underlying captures).slice underlying =
      capturedSlice (captures.filter fun capture => positionFoldBelongs capture.underlying underlying) :=
  filter_writeAll (fun state : PositionState => positionFoldBelongs state.underlying underlying)
    fun _ member => (List.mem_filter.1 member).2

theorem captureFor_slice (store : InMemoryPositionsStore) (underlying : String) :
    store.captureFor underlying =
      (store.slice underlying).toList.map fun entry => entry.2.toCapture entry.1.1 entry.1.2 := by
  unfold captureFor slice
  rw [Std.ExtTreeMap.toList_filter]

theorem slice_restored (store later : InMemoryPositionsStore) (underlying : String) :
    (later.restoreFor underlying (store.captureFor underlying)).slice underlying = store.slice underlying := by
  have own : ((store.captureFor underlying).filter fun capture => positionFoldBelongs capture.underlying underlying) =
      store.captureFor underlying := by
    refine List.filter_eq_self.2 fun capture member => ?_
    obtain ⟨entry, kept, rfl⟩ := List.mem_map.1 member
    exact (List.mem_filter.1 kept).2
  rw [slice_restoreFor, own, captureFor_slice]
  exact writeAll_toList _ (fun _ _ => rfl) fun _ _ => rfl

end InMemoryPositionsStore

namespace StoreFanOut
variable {U : Upstream} {fanOut : StoreFanOut U}

/-- The stores after a restore of one underlying. -/
def restoreFor (fanOut : StoreFanOut U) (underlying : String) (executions : List ExecutionCapture)
    (positions : List PositionCapture) : StoreFanOut U :=
  { fanOut with
    executions := fanOut.executions.restoreFor underlying executions
    positions := fanOut.positions.restoreFor underlying positions }

/-- The stores that a venue can come to hold: fed by events of any underlying, and restored. -/
inductive Fed : StoreFanOut U → Prop where
  | new : Fed (.new U)
  | emitted {fanOut : StoreFanOut U} (fed : Fed fanOut) (event : VenueEvent) : Fed (fanOut.emit event).2
  | restored {fanOut : StoreFanOut U} (fed : Fed fanOut) (underlying : String) (executions : List ExecutionCapture)
      (positions : List PositionCapture) : Fed (fanOut.restoreFor underlying executions positions)

theorem projectLegs_keyed (event : VenueEvent) (symbol : Symbol) (underlying : String) (legs : List Fill)
    (keyed : fanOut.executions.Keyed) : (projectLegs event symbol underlying fanOut legs).2.executions.Keyed := by
  induction legs generalizing fanOut with
  | nil => exact keyed
  | cons leg rest ih =>
    have recorded := keyed.record (projectExecution event symbol underlying leg)
    simp only [projectLegs]
    split
    · exact recorded
    · exact ih recorded

theorem Fed.keyed (fed : Fed fanOut) : fanOut.executions.Keyed := by
  induction fed with
  | new => exact InMemoryExecutionsStore.keyed_new
  | emitted fed event ih =>
    unfold emit
    split
    · exact ih
    · split
      · exact ih
      · split
        · exact ih
        · split
          · exact ih
          · exact projectLegs_keyed event _ _ _ ih
  | restored fed underlying executions positions ih => exact ih.restoreFor underlying executions

end StoreFanOut

end Fauxchange.Exchange
