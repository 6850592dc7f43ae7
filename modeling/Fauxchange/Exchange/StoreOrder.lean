import Fauxchange.Exchange.Projection
import Fauxchange.Exchange.StoreRestore
import Fauxchange.Lib.KeyedEntries

/-! The order of the executions log: what is captured and what is listed is read off the legs in the order of
insertion, and recording a leg is an `upsert` in the log of its underlying. -/

namespace Fauxchange.Exchange
open Lib

namespace InMemoryExecutionsStore
variable {store later : InMemoryExecutionsStore} {underlying : String}

/-- The legs in the order of insertion. -/
def inOrder (store : InMemoryExecutionsStore) : List StoredExecution := sortByKey StoredExecution.ord store.stored

/-- No two legs have one place. -/
def Placed (store : InMemoryExecutionsStore) : Prop :=
  ∀ left ∈ store.stored, ∀ right ∈ store.stored, left.ord = right.ord → left = right

theorem mem_stored {stored : StoredExecution} :
    stored ∈ store.stored ↔ ∃ key : ExecutionId × Bool, store.records[key]? = some stored := by
  unfold InMemoryExecutionsStore.stored
  rw [List.mem_map]
  constructor
  · rintro ⟨⟨key, found⟩, member, rfl⟩
    exact ⟨key, Std.ExtTreeMap.mem_toList_iff_getElem?_eq_some.1 member⟩
  · rintro ⟨key, present⟩
    exact ⟨(key, stored), Std.ExtTreeMap.mem_toList_iff_getElem?_eq_some.2 present, by simp⟩

theorem Placed.captureFor (placed : store.Placed) (underlying : String) :
    store.captureFor underlying =
      (store.inOrder.filter fun stored => executionLegBelongs stored.record underlying).map
        fun stored => ⟨stored.ord, stored.record⟩ := by
  unfold InMemoryExecutionsStore.captureFor inOrder
  rw [sortByKey_map, ← sortByKey_filter _ _ placed]
  exact Eq.refl _

theorem Placed.list (placed : store.Placed) (account : AccountId) (query : ExecutionFilter) :
    store.list account query = query.limit.elim id List.take ((store.inOrder.filter fun stored =>
      stored.record.account = account ∧ query.underlying.all (stored.record.symbol = ·)).map StoredExecution.record) := by
  unfold InMemoryExecutionsStore.list inOrder
  dsimp only
  rw [sortByKey_filter _ _ placed]
  cases query.limit <;> exact Eq.refl _

/-- The executions of an account in an underlying are read off its captured legs. -/
theorem Placed.list_captured (placed : store.Placed) (account : AccountId) (underlying : String) (limit : Option Nat) :
    store.list account ⟨some underlying, limit⟩ = limit.elim id List.take
      (((store.captureFor underlying).map ExecutionCapture.record).filter fun leg => leg.account = account) := by
  rw [placed.list, placed.captureFor, List.map_map, List.filter_map, List.filter_filter]
  refine congrArg (limit.elim id List.take) (congrArg (List.map StoredExecution.record)
    (List.filter_congr fun stored _ => ?_))
  simp [executionLegBelongs]

/-- So are those among all his executions. -/
theorem Placed.list_among (placed : store.Placed) (account : AccountId) (underlying : String) :
    ((store.list account ⟨none, none⟩).filter fun leg => leg.symbol = underlying) =
      ((store.captureFor underlying).map ExecutionCapture.record).filter fun leg => leg.account = account := by
  rw [placed.list, placed.captureFor, List.map_map, List.filter_map, List.filter_filter]
  dsimp only [Option.elim, id]
  rw [List.filter_map, List.filter_filter]
  refine congrArg (List.map StoredExecution.record) (List.filter_congr fun stored _ => ?_)
  simp only [executionLegBelongs, Function.comp_apply, Option.all_none, and_true]
  exact Bool.and_comm _ _

/-- A slice determines what is captured of it. -/
theorem captureFor_congr (same : store.slice underlying = later.slice underlying) :
    store.captureFor underlying = later.captureFor underlying := by
  unfold captureFor
  rw [stored_slice, stored_slice, same]

theorem Placed.captured_sorted (placed : store.Placed) (keyed : store.Keyed) (underlying : String) :
    (store.captureFor underlying).Pairwise fun early late => early.ord < late.ord := by
  have ordered : (store.captureFor underlying).Pairwise fun early late => early.ord ≤ late.ord := sortByKey_pairwise _ _
  have keys := List.pairwise_map.1 (List.nodup_iff_pairwise_ne.1 (keyed.distinct underlying))
  refine (ordered.and keys).imp_of_mem fun {early late} here there ⟨below, apart⟩ => ?_
  obtain ⟨key, present⟩ := mem_captureFor.1 here
  obtain ⟨other, second⟩ := mem_captureFor.1 there
  refine Nat.lt_of_le_of_ne below fun same => apart ?_
  have one := placed _ (mem_stored.2 ⟨key, (getElem?_slice.1 present).1⟩) _
    (mem_stored.2 ⟨other, (getElem?_slice.1 second).1⟩) same
  exact congrArg (fun stored : StoredExecution => stored.record.key) one

/-- The captured legs, from a list of them in the order of insertion. -/
theorem captureFor_eq (keyed : store.Keyed) {captures : List ExecutionCapture}
    (sorted : captures.Pairwise fun early late => early.ord < late.ord)
    (same : ∀ capture, capture ∈ captures ↔
      ∃ key : ExecutionId × Bool, (store.slice underlying)[key]? = some (StoredExecution.mk capture.ord capture.record)) :
    store.captureFor underlying = captures := by
  have ordered : (store.captureFor underlying).Pairwise fun early late => early.ord ≤ late.ord := sortByKey_pairwise _ _
  have spread : captures.Nodup := by
    refine List.nodup_iff_pairwise_ne.2 (sorted.imp fun below same => ?_)
    rw [same] at below
    exact Nat.lt_irrefl _ below
  have perm : (store.captureFor underlying).Perm captures := by
    refine (List.perm_ext_iff_of_nodup (keyed.distinct underlying).of_map spread).2 fun capture => ?_
    rw [mem_captureFor, same]
  refine perm.eq_of_pairwise (fun left right here there below above => ?_) ordered (sorted.imp Nat.le_of_lt)
  exact apart_of_growing sorted left (perm.subset here) right there (Nat.le_antisymm below above)

section Recording
variable {leg : ExecutionRecord} {existing : StoredExecution}

theorem record_again (present : store.records[leg.key]? = some existing) :
    store.record leg = { store with records := store.records.insert leg.key ⟨existing.ord, leg⟩ } := by
  unfold record
  rw [present]

/-- A leg disturbs no underlying but its own. -/
theorem slice_record_other (own : ∀ held, store.records[leg.key]? = some held → held.record.symbol = leg.symbol)
    {other : String} (apart : other ≠ leg.symbol) : (store.record leg).slice other = store.slice other := by
  have inserted : ∃ ord, (store.record leg).records = store.records.insert leg.key ⟨ord, leg⟩ := by
    cases present : store.records[leg.key]? with
    | none => exact ⟨_, congrArg records (record_fresh present)⟩
    | some existing => exact ⟨_, congrArg records (record_again present)⟩
  obtain ⟨ord, inserted⟩ := inserted
  refine Std.ExtTreeMap.ext_getElem? fun key => Option.ext fun stored => ?_
  rw [getElem?_slice, getElem?_slice, inserted, Std.ExtTreeMap.getElem?_insert]
  by_cases same : leg.key = key
  · subst same
    rw [if_pos (pairCompare_eq_iff.2 (Eq.refl _))]
    constructor
    · rintro ⟨here, foreign⟩
      cases here
      exact absurd (of_decide_eq_true foreign).symm apart
    · rintro ⟨here, foreign⟩
      exact absurd ((of_decide_eq_true foreign).symm.trans (own stored here)) apart
  · rw [if_neg fun equal => same (pairCompare_eq_iff.1 equal)]

/-- A new leg goes to the end of its underlying's. -/
theorem captureFor_record_fresh (placed : store.Placed) (keyed : store.Keyed)
    (fresh : store.records[leg.key]? = none) (below : ∀ stored ∈ store.stored, stored.ord < store.nextOrd) :
    (store.record leg).captureFor leg.symbol = store.captureFor leg.symbol ++ [⟨store.nextOrd, leg⟩] := by
  refine captureFor_eq (keyed.record leg) ?_ fun capture => ?_
  · refine List.pairwise_append.2 ⟨placed.captured_sorted keyed _, List.pairwise_singleton _ _, ?_⟩
    intro early here late there
    obtain rfl := List.mem_singleton.1 there
    obtain ⟨key, present⟩ := mem_captureFor.1 here
    exact below _ (mem_stored.2 ⟨key, (getElem?_slice.1 present).1⟩)
  · rw [List.mem_append, List.mem_singleton, mem_captureFor]
    simp only [getElem?_slice, record_fresh fresh, Std.ExtTreeMap.getElem?_insert, pairCompare_eq_iff]
    constructor
    · rintro (⟨key, present, own⟩ | rfl)
      · refine ⟨key, ?_, own⟩
        rw [if_neg]
        · exact present
        · rintro rfl
          rw [fresh] at present
          cases present
      · exact ⟨leg.key, if_pos (Eq.refl _), decide_eq_true (Eq.refl _)⟩
    · rintro ⟨key, present, own⟩
      split at present
      · obtain ⟨ord, record⟩ := capture
        cases present
        exact Or.inr (Eq.refl _)
      · exact Or.inl ⟨key, present, own⟩

/-- A leg that is there takes its own place. -/
theorem captureFor_record_again (placed : store.Placed) (keyed : store.Keyed)
    (present : store.records[leg.key]? = some existing) (own : existing.record.symbol = leg.symbol) :
    (store.record leg).captureFor leg.symbol = (store.captureFor leg.symbol).map fun capture =>
      ⟨capture.ord, if capture.record.key = leg.key then leg else capture.record⟩ := by
  refine captureFor_eq (keyed.record leg) (List.pairwise_map.2 (placed.captured_sorted keyed _)) fun capture => ?_
  rw [List.mem_map]
  simp only [getElem?_slice, record_again present, Std.ExtTreeMap.getElem?_insert, pairCompare_eq_iff]
  constructor
  · rintro ⟨old, listed, rfl⟩
    obtain ⟨key, held⟩ := mem_captureFor.1 listed
    rw [getElem?_slice] at held
    have keyed := keyed key _ held.1
    dsimp only at keyed ⊢
    by_cases same : old.record.key = leg.key
    · refine ⟨leg.key, ?_, ?_⟩
      · rw [← keyed, same, present] at held
        rw [if_pos (Eq.refl _), if_pos same]
        exact congrArg (fun stored : StoredExecution => some (StoredExecution.mk stored.ord leg)) (Option.some.inj held.1)
      · rw [if_pos same]
        exact decide_eq_true (Eq.refl _)
    · refine ⟨key, ?_, ?_⟩
      · rw [if_neg fun equal => same (keyed.trans equal.symm), if_neg same]
        exact held.1
      · rw [if_neg same]
        exact held.2
  · rintro ⟨key, held, belongs⟩
    split at held
    next same =>
      obtain ⟨ord, record⟩ := capture
      obtain ⟨place, taken⟩ := StoredExecution.mk.inj (Option.some.inj held)
      subst place
      subst taken
      refine ⟨⟨existing.ord, existing.record⟩, mem_captureFor.2 ⟨leg.key, getElem?_slice.2 ⟨present, ?_⟩⟩, ?_⟩
      · exact decide_eq_true own
      · dsimp only
        rw [if_pos (keyed leg.key existing present)]
    next unlike =>
      refine ⟨capture, mem_captureFor.2 ⟨key, getElem?_slice.2 ⟨held, belongs⟩⟩, ?_⟩
      rw [if_neg fun equal => unlike (equal.symm.trans (keyed key _ held))]

/-- Recording a leg is an `upsert` in its underlying's log. -/
theorem captured_record (placed : store.Placed) (keyed : store.Keyed)
    (own : ∀ held, store.records[leg.key]? = some held → held.record.symbol = leg.symbol)
    (below : ∀ stored ∈ store.stored, stored.ord < store.nextOrd) :
    ((store.record leg).captureFor leg.symbol).map ExecutionCapture.record =
      upsert ExecutionRecord.key ((store.captureFor leg.symbol).map ExecutionCapture.record) leg := by
  cases present : store.records[leg.key]? with
  | none =>
    rw [captureFor_record_fresh placed keyed present below, List.map_append]
    refine (upsert_fresh fun old listed same => ?_).symm
    obtain ⟨capture, member, rfl⟩ := List.mem_map.1 listed
    obtain ⟨key, held⟩ := mem_captureFor.1 member
    have here := (getElem?_slice.1 held).1
    rw [← keyed key _ here, same, present] at here
    cases here
  | some existing =>
    have captured : (⟨existing.ord, existing.record⟩ : ExecutionCapture) ∈ store.captureFor leg.symbol :=
      mem_captureFor.2 ⟨leg.key, getElem?_slice.2 ⟨present, decide_eq_true (own existing present)⟩⟩
    rw [captureFor_record_again placed keyed present (own existing present),
      upsert_present (List.mem_map_of_mem captured) (keyed leg.key existing present), List.map_map, List.map_map]
    exact Eq.refl _

end Recording

end InMemoryExecutionsStore

end Fauxchange.Exchange
