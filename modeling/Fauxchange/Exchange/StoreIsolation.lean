import Fauxchange.Exchange.Conservation
import Fauxchange.Exchange.StoreHistory
import Fauxchange.Exchange.StoreOrder

/-! Why a restore of one underlying disturbs no other: every place in the order of insertion is given to one key
once, so a leg that comes back to its old place meets no other leg there, and no key is another underlying's. -/

namespace Fauxchange.Exchange
open Lib

namespace InMemoryExecutionsStore
variable {store later : InMemoryExecutionsStore} {underlying : String} {captures : List ExecutionCapture}

/-- A restore raises the counter only where it is still at zero. -/
theorem nextOrd_restoreFor (underlying : String) (below : ∀ capture ∈ captures, capture.ord < store.nextOrd) :
    store.nextOrd ≤ (store.restoreFor underlying captures).nextOrd ∧
      (store.restoreFor underlying captures).nextOrd ≤ max store.nextOrd 1 := by
  unfold restoreFor
  dsimp only
  generalize own : captures.filter (fun capture => executionLegBelongs capture.record underlying) = legs
  have inside : ∀ leg ∈ legs, leg.ord < store.nextOrd := by
    intro leg member
    rw [← own] at member
    exact below leg (List.mem_filter.1 member).1
  have highest : ∀ start, start < max store.nextOrd 1 →
      (legs.map ExecutionCapture.ord).foldl max start < max store.nextOrd 1 := by
    clear own
    induction legs with
    | nil => exact fun _ low => low
    | cons leg rest ih =>
      intro start low
      have first := inside leg (by simp)
      refine ih (fun other member => inside other (List.mem_cons_of_mem _ member)) (max start leg.ord) ?_
      omega
  have top := highest 0 (by omega)
  split <;> omega

/-- The legs of the other underlyings are as they were, unless one of them has a captured key. -/
theorem slice_restoreFor_other {other : String} (apart : other ≠ underlying)
    (spared : ∀ capture ∈ captures, executionLegBelongs capture.record underlying = true →
      ∀ held, store.records[capture.record.key]? = some held → held.record.symbol ≠ other) :
    (store.restoreFor underlying captures).slice other = store.slice other := by
  refine filter_writeAll_other (fun stored : StoredExecution => executionLegBelongs stored.record underlying)
    (fun stored : StoredExecution => executionLegBelongs stored.record other) ?_
    (fun _ member => (List.mem_filter.1 member).2) ?_
  · intro held foreign
    exact decide_eq_false fun own => apart ((of_decide_eq_true foreign).symm.trans own)
  · intro capture member held present
    obtain ⟨listed, own⟩ := List.mem_filter.1 member
    exact decide_eq_false (spared capture listed own held present)

end InMemoryExecutionsStore

namespace InMemoryPositionsStore
variable {store later : InMemoryPositionsStore} {underlying : String} {captures : List PositionCapture}

theorem slice_restoreFor_other {other : String} (apart : other ≠ underlying)
    (spared : ∀ capture ∈ captures, capture.underlying = underlying →
      ∀ held, store.positions[(capture.account, capture.symbol)]? = some held → held.underlying ≠ other) :
    (store.restoreFor underlying captures).slice other = store.slice other := by
  refine filter_writeAll_other (fun state : PositionState => positionFoldBelongs state.underlying underlying)
    (fun state : PositionState => positionFoldBelongs state.underlying other) ?_
    (fun _ member => (List.mem_filter.1 member).2) ?_
  · intro held foreign
    exact decide_eq_false fun own => apart ((of_decide_eq_true foreign).symm.trans own)
  · intro capture member held present
    obtain ⟨listed, own⟩ := List.mem_filter.1 member
    exact decide_eq_false (spared capture listed (of_decide_eq_true own) held present)

theorem captureFor_congr (same : store.slice underlying = later.slice underlying) :
    store.captureFor underlying = later.captureFor underlying := by
  rw [captureFor_slice, captureFor_slice, same]

end InMemoryPositionsStore

namespace PositionState
variable (state : PositionState)

theorem foldBasis_underlying (dq dqp : Int) (price : Nat) :
    (state.foldBasis dq dqp price).2.underlying = state.underlying := by
  unfold foldBasis
  dsimp only
  repeat' split
  all_goals exact Eq.refl _

/-- A fold stays with the underlying that opened it. -/
theorem fold_underlying (side : Side) (quantity price : Nat) (fee : Int) :
    (state.fold side quantity price fee).2.underlying = state.underlying := by
  unfold fold
  split
  · exact Eq.refl _
  · dsimp only
    split
    · exact Eq.refl _
    · split
      · exact Eq.refl _
      · split
        · exact Eq.refl _
        · exact foldBasis_underlying _ _ _ _

end PositionState

/-- A leg of a run, at the place that its key was given. -/
structure Given (legs : List ExecutionRecord) (assigned : Nat → ExecutionId × Bool) (next ord : Nat)
    (record : ExecutionRecord) : Prop where
  known : record ∈ legs
  place : assigned ord = record.key
  below : ord < next

/-- The places of the order of insertion, each given to one key: what is stored or was captured is at one of its
key's places. -/
structure ExecutionsHistory.Numbered (legs : List ExecutionRecord) (assigned : Nat → ExecutionId × Bool)
    (history : ExecutionsHistory) : Prop where
  keyed : history.store.Keyed
  stored : ∀ (key : ExecutionId × Bool) (stored : StoredExecution), history.store.records[key]? = some stored →
    Given legs assigned history.store.nextOrd stored.ord stored.record
  taken : ∀ taken ∈ history.cuts, ∃ store : InMemoryExecutionsStore, store.Keyed ∧ taken.2 = store.captureFor taken.1
  captured : ∀ taken ∈ history.cuts, ∀ capture ∈ taken.2,
    Given legs assigned history.store.nextOrd capture.ord capture.record

/-- The captured and the stored logs are those of the abstract recorder. -/
structure ExecutionsHistory.Follows (history : ExecutionsHistory) (recorder : RecordedLogs) : Prop where
  logs : ∀ underlying, (history.store.captureFor underlying).map ExecutionCapture.record = recorder.logs underlying
  cuts : history.cuts.map (fun taken => (taken.1, taken.2.map ExecutionCapture.record)) = recorder.cuts

namespace ExecutionsHistory
variable {legs : List ExecutionRecord} {assigned : Nat → ExecutionId × Bool} {history : ExecutionsHistory}
  {recorder : RecordedLogs}

namespace Numbered

theorem placed (numbered : history.Numbered legs assigned) : history.store.Placed := by
  intro left here right there same
  obtain ⟨key, first⟩ := InMemoryExecutionsStore.mem_stored.1 here
  obtain ⟨other, second⟩ := InMemoryExecutionsStore.mem_stored.1 there
  have one : key = other := by
    rw [← numbered.keyed key left first, ← numbered.keyed other right second, ← (numbered.stored key left first).place,
      ← (numbered.stored other right second).place, same]
  subst one
  exact Option.some.inj (first.symm.trans second)

/-- What a store gives back of a captured slice, and what it keeps of the others. -/
theorem restored (numbered : history.Numbered legs assigned) (disjoint : DisjointKeys legs)
    {taken : String × List ExecutionCapture} (member : taken ∈ history.cuts) :
    (history.store.restoreFor taken.1 taken.2).captureFor taken.1 = taken.2 ∧
      ∀ other, other ≠ taken.1 →
        (history.store.restoreFor taken.1 taken.2).slice other = history.store.slice other := by
  constructor
  · obtain ⟨store, keyed, same⟩ := numbered.taken taken member
    rw [same]
    exact InMemoryExecutionsStore.captureFor_congr (keyed.slice_restored history.store taken.1)
  · intro other apart
    refine InMemoryExecutionsStore.slice_restoreFor_other apart fun capture listed own held present foreign => ?_
    have given := numbered.captured taken member capture listed
    have here := numbered.stored _ held present
    have one := disjoint _ here.known _ given.known (numbered.keyed _ held present)
    exact apart (foreign.symm.trans (one.trans (of_decide_eq_true own)))

theorem capture (numbered : history.Numbered legs assigned) (underlying : String) :
    Numbered legs assigned { history with
      cuts := history.cuts ++ [(underlying, history.store.captureFor underlying)] } := by
  refine ⟨numbered.keyed, numbered.stored, ?_, ?_⟩
  · intro taken member
    rcases List.mem_append.1 member with old | new
    · exact numbered.taken taken old
    · obtain rfl := List.mem_singleton.1 new
      exact ⟨history.store, numbered.keyed, Eq.refl _⟩
  · intro taken member capture listed
    rcases List.mem_append.1 member with old | new
    · exact numbered.captured taken old capture listed
    · obtain rfl := List.mem_singleton.1 new
      obtain ⟨key, present⟩ := InMemoryExecutionsStore.mem_captureFor.1 listed
      exact numbered.stored key _ (InMemoryExecutionsStore.getElem?_slice.1 present).1

theorem restore (numbered : history.Numbered legs assigned) {taken : String × List ExecutionCapture}
    (member : taken ∈ history.cuts) :
    Numbered legs assigned { history with store := history.store.restoreFor taken.1 taken.2 } := by
  have captured := numbered.captured taken member
  have grows := (InMemoryExecutionsStore.nextOrd_restoreFor taken.1 fun capture listed =>
    (captured capture listed).below).1
  have later : ∀ {ord record}, Given legs assigned history.store.nextOrd ord record →
      Given legs assigned (history.store.restoreFor taken.1 taken.2).nextOrd ord record :=
    fun given => ⟨given.known, given.place, Nat.lt_of_lt_of_le given.below grows⟩
  refine ⟨numbered.keyed.restoreFor taken.1 taken.2, fun key stored present => later ?_, numbered.taken,
    fun other listed capture inside => later (numbered.captured other listed capture inside)⟩
  rcases exists_of_getElem?_writeAll present with old | ⟨capture, listed, -, rfl⟩
  · rw [Std.ExtTreeMap.getElem?_filter', Option.filter_eq_some_iff] at old
    exact numbered.stored key stored old.1
  · exact captured capture (List.mem_filter.1 listed).1

theorem record (numbered : history.Numbered legs assigned) {leg : ExecutionRecord} (known : leg ∈ legs)
    (room : history.store.nextOrd + 1 < 2 ^ 64) :
    ∃ assigned, Numbered legs assigned { history with store := history.store.record leg } := by
  cases present : history.store.records[leg.key]? with
  | some existing =>
    have same := InMemoryExecutionsStore.record_again present
    refine ⟨assigned, numbered.keyed.record leg, ?_, numbered.taken, ?_⟩
    · intro key stored here
      dsimp only at here ⊢
      rw [same] at here ⊢
      rw [Std.ExtTreeMap.getElem?_insert] at here
      split at here
      · cases here
        have given := numbered.stored leg.key existing present
        exact ⟨known, given.place.trans (numbered.keyed leg.key existing present), given.below⟩
      · exact numbered.stored key stored here
    · rw [same]
      exact numbered.captured
  | none =>
    have same := InMemoryExecutionsStore.record_fresh present
    have counted : (history.store.nextOrd + 1) % 2 ^ 64 = history.store.nextOrd + 1 := Nat.mod_eq_of_lt room
    rw [counted] at same
    have later : ∀ {ord record}, Given legs assigned history.store.nextOrd ord record →
        Given legs (Function.update assigned history.store.nextOrd leg.key) (history.store.nextOrd + 1) ord record := by
      intro ord record given
      refine ⟨given.known, ?_, Nat.lt_succ_of_lt given.below⟩
      rw [Function.update_of_ne (Nat.ne_of_lt given.below)]
      exact given.place
    refine ⟨Function.update assigned history.store.nextOrd leg.key, numbered.keyed.record leg, ?_, numbered.taken, ?_⟩
    · intro key stored here
      dsimp only at here ⊢
      rw [same] at here ⊢
      rw [Std.ExtTreeMap.getElem?_insert] at here
      split at here
      · cases here
        exact ⟨known, Function.update_self _ _ _, Nat.lt_succ_self _⟩
      · exact later (numbered.stored key stored here)
    · intro taken member capture listed
      dsimp only
      rw [same]
      exact later (numbered.captured taken member capture listed)

/-- A stored leg under the key of a leg of the run is of the same underlying. -/
theorem own (numbered : history.Numbered legs assigned) (disjoint : DisjointKeys legs) {leg : ExecutionRecord}
    (known : leg ∈ legs) :
    ∀ held, history.store.records[leg.key]? = some held → held.record.symbol = leg.symbol := by
  intro held present
  exact disjoint _ (numbered.stored _ held present).known _ known (numbered.keyed _ held present)

end Numbered

namespace Follows

theorem record (follows : history.Follows recorder) (numbered : history.Numbered legs assigned)
    (disjoint : DisjointKeys legs) {leg : ExecutionRecord} (known : leg ∈ legs) :
    Follows { history with store := history.store.record leg } (recorder.step (.executions (.record leg))) := by
  have own := numbered.own disjoint known
  refine ⟨fun underlying => ?_, follows.cuts⟩
  dsimp only [RecordedLogs.step]
  by_cases here : underlying = leg.symbol
  · subst here
    rw [Function.update_self, ← follows.logs]
    refine InMemoryExecutionsStore.captured_record numbered.placed numbered.keyed own fun stored listed => ?_
    obtain ⟨key, present⟩ := InMemoryExecutionsStore.mem_stored.1 listed
    exact (numbered.stored key stored present).below
  · rw [Function.update_of_ne here, ← follows.logs,
      InMemoryExecutionsStore.captureFor_congr (InMemoryExecutionsStore.slice_record_other own here)]

theorem capture (follows : history.Follows recorder) (underlying : String) :
    Follows { history with cuts := history.cuts ++ [(underlying, history.store.captureFor underlying)] }
      (recorder.step (.executions (.capture underlying))) := by
  refine ⟨follows.logs, ?_⟩
  dsimp only [RecordedLogs.step]
  rw [List.map_append, follows.cuts, List.map_singleton, follows.logs]

theorem restore (follows : history.Follows recorder) (numbered : history.Numbered legs assigned)
    (disjoint : DisjointKeys legs) {cut : Nat} {taken : String × List ExecutionCapture}
    (found : history.cuts[cut]? = some taken) :
    Follows { history with store := history.store.restoreFor taken.1 taken.2 }
      (recorder.step (.executions (.restore cut))) := by
  obtain ⟨back, kept⟩ := numbered.restored disjoint (List.mem_of_getElem? found)
  have copy : recorder.cuts[cut]? = some (taken.1, taken.2.map ExecutionCapture.record) := by
    rw [← follows.cuts, List.getElem?_map, found, Option.map_some]
  dsimp only [RecordedLogs.step]
  rw [copy]
  refine ⟨fun underlying => ?_, follows.cuts⟩
  dsimp only
  by_cases here : underlying = taken.1
  · subst here
    rw [Function.update_self, back]
  · rw [Function.update_of_ne here, ← follows.logs,
      InMemoryExecutionsStore.captureFor_congr (kept underlying here)]

end Follows

end ExecutionsHistory

/-- Every stored or captured fold is of the underlying of a leg of the run. -/
structure PositionsHistory.Owned (legs : List PositionLeg) (history : PositionsHistory) : Prop where
  folded : ∀ (key : AccountId × Symbol) (state : PositionState), history.store.positions[key]? = some state →
    ∃ leg ∈ legs, (leg.account, leg.symbol) = key ∧ leg.underlying = state.underlying
  taken : ∀ taken ∈ history.cuts, ∃ store : InMemoryPositionsStore, taken.2 = store.captureFor taken.1
  captured : ∀ taken ∈ history.cuts, ∀ capture ∈ taken.2,
    ∃ leg ∈ legs, (leg.account, leg.symbol) = (capture.account, capture.symbol) ∧ leg.underlying = capture.underlying

namespace PositionsHistory.Owned
variable {legs : List PositionLeg} {history : PositionsHistory}

theorem apply (owned : history.Owned legs) {leg : PositionLeg} (known : leg ∈ legs) :
    Owned legs { history with store := (history.store.apply leg).2 } := by
  refine ⟨fun key state present => ?_, owned.taken, owned.captured⟩
  dsimp only [InMemoryPositionsStore.apply] at present
  rw [Std.ExtTreeMap.getElem?_insert] at present
  split at present
  next same =>
    obtain rfl := pairCompare_eq_iff.1 same
    obtain rfl := Option.some.inj present
    rw [PositionState.fold_underlying]
    cases held : history.store.positions[(leg.account, leg.symbol)]? with
    | none => exact ⟨leg, known, Eq.refl _, Eq.refl _⟩
    | some state => exact owned.folded _ state held
  next => exact owned.folded key state present

theorem capture (owned : history.Owned legs) (underlying : String) :
    Owned legs { history with cuts := history.cuts ++ [(underlying, history.store.captureFor underlying)] } := by
  refine ⟨owned.folded, ?_, ?_⟩
  · intro taken member
    rcases List.mem_append.1 member with old | new
    · exact owned.taken taken old
    · obtain rfl := List.mem_singleton.1 new
      exact ⟨history.store, Eq.refl _⟩
  · intro taken member capture listed
    rcases List.mem_append.1 member with old | new
    · exact owned.captured taken old capture listed
    · obtain rfl := List.mem_singleton.1 new
      obtain ⟨⟨key, state⟩, inside, rfl⟩ := List.mem_map.1 listed
      exact owned.folded key state (Std.ExtTreeMap.mem_toList_iff_getElem?_eq_some.1 (List.mem_filter.1 inside).1)

theorem restore (owned : history.Owned legs) {taken : String × List PositionCapture} (member : taken ∈ history.cuts) :
    Owned legs { history with store := history.store.restoreFor taken.1 taken.2 } := by
  refine ⟨fun key state present => ?_, owned.taken, owned.captured⟩
  rcases exists_of_getElem?_writeAll present with old | ⟨capture, listed, rfl, rfl⟩
  · rw [Std.ExtTreeMap.getElem?_filter', Option.filter_eq_some_iff] at old
    exact owned.folded key state old.1
  · exact owned.captured taken member capture (List.mem_filter.1 listed).1

theorem restored (owned : history.Owned legs) (disjoint : DisjointContracts legs)
    {taken : String × List PositionCapture} (member : taken ∈ history.cuts) :
    (history.store.restoreFor taken.1 taken.2).captureFor taken.1 = taken.2 ∧
      ∀ other, other ≠ taken.1 →
        (history.store.restoreFor taken.1 taken.2).slice other = history.store.slice other := by
  constructor
  · obtain ⟨store, same⟩ := owned.taken taken member
    rw [same]
    exact InMemoryPositionsStore.captureFor_congr (store.slice_restored history.store taken.1)
  · intro other apart
    refine InMemoryPositionsStore.slice_restoreFor_other apart fun capture listed own held present foreign => ?_
    obtain ⟨leg, known, key, under⟩ := owned.captured taken member capture listed
    obtain ⟨second, folded, place, below⟩ := owned.folded _ held present
    have one := disjoint second folded leg known (place.trans key.symm)
    exact apart (foreign.symm.trans (below.symm.trans (one.trans (under.trans own))))

end PositionsHistory.Owned

namespace StoreHistory
variable {history final : StoreHistory} {recorder : RecordedLogs} {legs : List ExecutionRecord}
  {folds : List PositionLeg} {assigned : Nat → ExecutionId × Bool}

/-- What holds along a run: the places given out, the logs of the abstract recorder, and the owners of the folds. -/
structure Orderly (legs : List ExecutionRecord) (folds : List PositionLeg) (history : StoreHistory)
    (recorder : RecordedLogs) : Prop where
  numbered : ∃ assigned, history.executions.Numbered legs assigned
  follows : history.executions.Follows recorder
  owned : history.positions.Owned folds

theorem orderly_new : Orderly legs folds new .new := by
  refine ⟨⟨fun _ => ("", true), InMemoryExecutionsStore.keyed_new, ?_, ?_, ?_⟩, ⟨?_, Eq.refl _⟩, ⟨?_, ?_, ?_⟩⟩
  · intro key stored present
    cases present
  · exact List.forall_mem_nil _
  · exact List.forall_mem_nil _
  · intro underlying
    exact Eq.refl _
  · intro key state present
    cases present
  · exact List.forall_mem_nil _
  · exact List.forall_mem_nil _

/-- One call, where the counter does not wrap. The counter passes one place for each leg recorded, and one more if a
restore found it at zero. -/
theorem Orderly.step {call : StoreCall} (orderly : Orderly legs folds history recorder) (keys : DisjointKeys legs)
    (known : ∀ leg ∈ recordedLegs [call], leg ∈ legs) (folded : ∀ leg ∈ appliedLegs [call], leg ∈ folds)
    (room : history.executions.store.nextOrd + (recordedLegs [call]).length < 2 ^ 64)
    (taken : history.step call = some final) :
    Orderly legs folds final (recorder.step call) ∧
      final.executions.store.nextOrd ≤
        max (history.executions.store.nextOrd + (recordedLegs [call]).length) 1 := by
  obtain ⟨⟨assigned, numbered⟩, follows, owned⟩ := orderly
  cases call with
  | executions call =>
    obtain ⟨executions, moved, rfl⟩ := Option.map_eq_some_iff.1 taken
    cases call with
    | record leg =>
      obtain rfl := Option.some.inj moved
      have leg_known : leg ∈ legs := known leg (by simp [recordedLegs])
      refine ⟨⟨numbered.record leg_known room, follows.record numbered keys leg_known, owned⟩, ?_⟩
      refine Nat.le_trans ?_ (Nat.le_max_left _ _)
      change (history.executions.store.record leg).nextOrd ≤ history.executions.store.nextOrd + 1
      unfold InMemoryExecutionsStore.record
      split
      · exact Nat.le_succ _
      · exact Nat.mod_le _ _
    | capture underlying =>
      obtain rfl := Option.some.inj moved
      exact ⟨⟨⟨assigned, numbered.capture underlying⟩, follows.capture underlying, owned⟩, Nat.le_max_left _ _⟩
    | restore cut =>
      obtain ⟨captured, found, rfl⟩ := Option.map_eq_some_iff.1 moved
      have member := List.mem_of_getElem? found
      refine ⟨⟨⟨assigned, numbered.restore member⟩, follows.restore numbered keys found, owned⟩, ?_⟩
      exact (InMemoryExecutionsStore.nextOrd_restoreFor captured.1 fun capture listed =>
        (numbered.captured captured member capture listed).below).2
  | positions call =>
    obtain ⟨positions, moved, rfl⟩ := Option.map_eq_some_iff.1 taken
    refine ⟨⟨⟨assigned, numbered⟩, follows, ?_⟩, Nat.le_max_left _ _⟩
    cases call with
    | apply leg =>
      obtain rfl := Option.some.inj moved
      exact owned.apply (folded leg (by simp [appliedLegs]))
    | capture underlying =>
      obtain rfl := Option.some.inj moved
      exact owned.capture underlying
    | restore cut =>
      obtain ⟨captured, found, rfl⟩ := Option.map_eq_some_iff.1 moved
      exact owned.restore (List.mem_of_getElem? found)

/-- Along a run. -/
theorem Orderly.run {calls : List StoreCall} (orderly : Orderly legs folds history recorder) (keys : DisjointKeys legs)
    (known : ∀ leg ∈ recordedLegs calls, leg ∈ legs) (folded : ∀ leg ∈ appliedLegs calls, leg ∈ folds)
    (room : max history.executions.store.nextOrd 1 + (recordedLegs calls).length < 2 ^ 64)
    (run : runFrom StoreHistory.step history calls = some final) :
    Orderly legs folds final (calls.foldl RecordedLogs.step recorder) := by
  induction calls generalizing history recorder with
  | nil =>
    obtain rfl := Option.some.inj run
    exact orderly
  | cons call rest ih =>
    obtain ⟨next, taken, later⟩ := runFrom_cons run
    have split : recordedLegs ([call] ++ rest) = recordedLegs [call] ++ recordedLegs rest := List.filterMap_append
    have apart : appliedLegs ([call] ++ rest) = appliedLegs [call] ++ appliedLegs rest := List.filterMap_append
    rw [← List.singleton_append, split] at known room
    rw [← List.singleton_append, apart] at folded
    rw [List.length_append] at room
    obtain ⟨reached, counted⟩ := orderly.step keys (fun leg member => known leg (List.mem_append_left _ member))
      (fun leg member => folded leg (List.mem_append_left _ member)) (by omega) taken
    exact ih reached (fun leg member => known leg (List.mem_append_right _ member))
      (fun leg member => folded leg (List.mem_append_right _ member)) (by omega) later

theorem Orderly.isolated (orderly : Orderly legs folds history recorder) (keys : DisjointKeys legs)
    (contracts : DisjointContracts folds) : history.Isolated recorder.logs := by
  obtain ⟨⟨assigned, numbered⟩, follows, owned⟩ := orderly
  refine ⟨?_, fun key stored present => (numbered.stored key stored present).below, ?_, ?_,
    fun taken member => numbered.restored keys member, fun taken member => owned.restored contracts member⟩
  · intro key other stored second first last same
    rw [← numbered.keyed key stored first, ← numbered.keyed other second last,
      ← (numbered.stored key stored first).place, ← (numbered.stored other second last).place, same]
  · intro account underlying limit
    rw [numbered.placed.list_captured, follows.logs]
  · intro account underlying
    rw [numbered.placed.list_among, follows.logs]

/-- Under any interleaving of recording, folding, capturing and restoring, where no key and no contract belongs to two
underlyings and the counter does not reach its end. -/
theorem run_isolated {calls : List StoreCall} (keys : DisjointKeys (recordedLegs calls))
    (contracts : DisjointContracts (appliedLegs calls)) (room : (recordedLegs calls).length + 1 < 2 ^ 64)
    (run : runFrom StoreHistory.step new calls = some final) : final.Isolated (RecordedLogs.after calls).logs := by
  refine (orderly_new.run keys (fun _ member => member) (fun _ member => member) ?_ run).isolated keys contracts
  change max 0 1 + (recordedLegs calls).length < 2 ^ 64
  omega

/-- A bought contract of the first fill of an event. -/
def boughtLeg (symbol : String) (sequence : Nat) : ExecutionRecord :=
  ⟨LineageId.executionId "run-1" "BTC" sequence 0, "run-1:BTC:0:0", "alice", symbol, "BTC-20240329-50000-C", .buy, .taker,
    1, 100, 0, 100, 0, sequence, 0, 0⟩

def boughtContract (underlying : String) : PositionLeg := ⟨"alice", "BTC-20240329-50000-C", underlying, .buy, 1, 100, 0⟩

def ethereumLeg : ExecutionRecord := { boughtLeg "ETH" 0 with executionId := "run-1:ETH:0:0" }

/-- Two underlyings trade around a restore of one of them. -/
def bitcoinRestored : List StoreCall :=
  [.executions (.record (boughtLeg "BTC" 1)), .executions (.record ethereumLeg), .executions (.capture "BTC"),
    .positions (.apply (boughtContract "BTC")), .positions (.capture "BTC"), .executions (.record (boughtLeg "BTC" 2)),
    .executions (.restore 0), .positions (.restore 0), .executions (.record (boughtLeg "BTC" 3))]

theorem bitcoinRestored_isolated : ∃ final, runFrom StoreHistory.step new bitcoinRestored = some final ∧
    final.Isolated (RecordedLogs.after bitcoinRestored).logs ∧
    (RecordedLogs.after bitcoinRestored).logs "BTC" = [boughtLeg "BTC" 1, boughtLeg "BTC" 3] ∧
    (RecordedLogs.after bitcoinRestored).logs "ETH" = [ethereumLeg] := by
  have runs : (runFrom StoreHistory.step new bitcoinRestored).isSome = true := by decide +kernel
  obtain ⟨final, run⟩ := Option.isSome_iff_exists.1 runs
  exact ⟨final, run, run_isolated (by decide) (by decide) (by decide) run, by decide, by decide⟩

/-- A key recorded for another underlying while a cut of the first holds it. -/
def sharedKey : List StoreCall :=
  [.executions (.record (boughtLeg "BTC" 1)), .executions (.capture "BTC"), .executions (.record (boughtLeg "ETH" 1))]

/-- A contract folded for another underlying while a cut of the first holds it. -/
def sharedContract : List StoreCall :=
  [.positions (.capture "BTC"), .positions (.apply (boughtContract "BTC")), .positions (.capture "BTC"),
    .positions (.restore 0), .positions (.apply (boughtContract "ETH"))]

section Recorded

theorem run_recorded (legs : List ExecutionRecord) (history : StoreHistory) :
    runFrom StoreHistory.step history (legs.map fun leg => .executions (.record leg)) =
      some { history with executions := ⟨history.executions.store.recordAll legs, history.executions.cuts⟩ } := by
  induction legs generalizing history with
  | nil => exact Eq.refl _
  | cons leg rest ih => exact ih ⟨⟨history.executions.store.record leg, history.executions.cuts⟩, history.positions⟩

/-- Each new leg takes one place, and the last one takes the counter back to its start. -/
theorem nextOrd_recordAll {store : InMemoryExecutionsStore} {legs : List ExecutionRecord}
    (distinct : (legs.map ExecutionRecord.key).Nodup) (fresh : ∀ leg ∈ legs, store.records[leg.key]? = none)
    (low : store.nextOrd < 2 ^ 64) :
    (store.recordAll legs).nextOrd = (store.nextOrd + legs.length) % 2 ^ 64 := by
  induction legs generalizing store with
  | nil => exact (Nat.mod_eq_of_lt low).symm
  | cons leg rest ih =>
    obtain ⟨apart, others⟩ := List.nodup_cons.1 distinct
    have new := InMemoryExecutionsStore.record_fresh (fresh leg (by simp))
    have later := @ih (store.record leg) others
      (by
        intro other member
        rw [new, Std.ExtTreeMap.getElem?_insert, if_neg]
        · exact fresh other (List.mem_cons_of_mem _ member)
        · rw [pairCompare_eq_iff]
          exact fun same => apart (same ▸ List.mem_map_of_mem member))
      (by
        rw [new]
        exact Nat.mod_lt _ (by decide))
    refine Eq.trans later ?_
    rw [new, List.length_cons]
    dsimp only
    omega

end Recorded

/-- Legs under as many keys as the counter has values. -/
def countedOut : List ExecutionRecord := (List.range (2 ^ 64)).map (boughtLeg "BTC")

theorem countedOut_wraps : (InMemoryExecutionsStore.new.recordAll countedOut).nextOrd = 0 ∧
    ∃ (key : ExecutionId × Bool) (stored : StoredExecution),
      (InMemoryExecutionsStore.new.recordAll countedOut).records[key]? = some stored := by
  have distinct : (countedOut.map ExecutionRecord.key).Nodup := by
    unfold countedOut
    rw [List.map_map]
    refine List.nodup_range.map fun first last same => ?_
    exact (LineageId.executionId_inj (congrArg Prod.fst same)).2.1
  have size : countedOut.length = 2 ^ 64 := by
    unfold countedOut
    rw [List.length_map, List.length_range]
  constructor
  · rw [nextOrd_recordAll distinct (fun _ _ => by simp [InMemoryExecutionsStore.new]) (by decide), size]
    decide
  · refine ⟨(boughtLeg "BTC" 0).key, ⟨0, boughtLeg "BTC" 0⟩, ?_⟩
    refine (InMemoryExecutionsStore.new_recordAll distinct _ _).2 ⟨0, ?_, Eq.refl _, Eq.refl _⟩
    unfold countedOut
    rw [List.getElem?_map, List.getElem?_range (by decide)]
    exact Eq.refl _

/-- A restore takes the leg, or the fold, that another underlying has come to hold under a captured key; and the
counter, at its end, starts again below the places it has given. -/
theorem shared_disturbed :
    (∃ final, runFrom StoreHistory.step new sharedKey = some final ∧
      ∃ taken ∈ final.executions.cuts, taken.1 ≠ "ETH" ∧
        (final.executions.store.restoreFor taken.1 taken.2).slice "ETH" ≠ final.executions.store.slice "ETH") ∧
    (∃ final, runFrom StoreHistory.step new sharedContract = some final ∧
      ∃ taken ∈ final.positions.cuts, taken.1 ≠ "ETH" ∧
        (final.positions.store.restoreFor taken.1 taken.2).slice "ETH" ≠ final.positions.store.slice "ETH") ∧
    ∃ final, runFrom StoreHistory.step new (countedOut.map fun leg => .executions (.record leg)) = some final ∧
      ∃ (key : ExecutionId × Bool) (stored : StoredExecution),
        final.executions.store.records[key]? = some stored ∧ ¬stored.ord < final.executions.store.nextOrd := by
  refine ⟨?_, ?_, ?_⟩
  · have runs : (runFrom StoreHistory.step new sharedKey).any (fun final => final.executions.cuts.any fun taken =>
        taken.1 ≠ "ETH" ∧ ((final.executions.store.restoreFor taken.1 taken.2).slice "ETH").size ≠
          (final.executions.store.slice "ETH").size) = true := by decide +kernel
    obtain ⟨final, run, disturbed⟩ := (Option.any_eq_true _ _).1 runs
    obtain ⟨taken, member, found⟩ := List.any_eq_true.1 disturbed
    obtain ⟨apart, sizes⟩ := of_decide_eq_true found
    exact ⟨final, run, taken, member, apart, fun same => sizes (congrArg Std.ExtTreeMap.size same)⟩
  · have runs : (runFrom StoreHistory.step new sharedContract).any (fun final => final.positions.cuts.any fun taken =>
        taken.1 ≠ "ETH" ∧ ((final.positions.store.restoreFor taken.1 taken.2).slice "ETH").size ≠
          (final.positions.store.slice "ETH").size) = true := by decide +kernel
    obtain ⟨final, run, disturbed⟩ := (Option.any_eq_true _ _).1 runs
    obtain ⟨taken, member, found⟩ := List.any_eq_true.1 disturbed
    obtain ⟨apart, sizes⟩ := of_decide_eq_true found
    exact ⟨final, run, taken, member, apart, fun same => sizes (congrArg Std.ExtTreeMap.size same)⟩
  · obtain ⟨restarted, key, stored, present⟩ := countedOut_wraps
    refine ⟨_, run_recorded countedOut new, key, stored, present, ?_⟩
    dsimp only [new]
    rw [restarted]
    exact Nat.not_lt_zero _

end StoreHistory

end Fauxchange.Exchange
