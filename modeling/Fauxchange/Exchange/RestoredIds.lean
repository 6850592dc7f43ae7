import Fauxchange.Exchange.RestoreAtomic

/-! The engine ids after a restore. A restored order keeps the id that its record carries, and the commands after the
restore mint theirs from the sequence that continues: nothing compares the two, so a cut that names a later sequence,
or one sequence twice, is accepted and an order's record is replaced. The captures of the actor's own history never
do. -/

namespace Fauxchange.Exchange
open Lib

namespace UnderlyingActor
variable {U : Upstream} {actor : VenueActor U} {hashOrder : VisitOrder} {venueTs : Nat} {snapshot : VenueSnapshot}
  {fingerprint : String}

/-- The turn makes its command durable and executes it. -/
def Executes (actor : VenueActor U) (input : Submission) : Prop :=
  actor.sealed = none ∧ (actor.ahead input).1 = .committed

instance Executes.decidable (input : Submission) : Decidable (actor.Executes input) := by
  unfold Executes
  infer_instance

/-- The engine ids that the commands of a run mint. -/
def minted : VenueActor U → List Submission → List Nat
  | _, [] => []
  | actor, input :: rest =>
    if actor.Executes input then engineOrderId actor.nextSequence :: minted (actor.handle input).2 rest
    else minted (actor.handle input).2 rest

theorem nextSequence_advance (actor : VenueActor U) : actor.nextSequence ≤ actor.advance.nextSequence ∧
    (actor.advance.sealed = none → actor.nextSequence < actor.advance.nextSequence) := by
  unfold advance
  split
  next next advanced =>
    have above : next = actor.nextSequence + 1 := (checkedNext_eq_some.1 advanced).2
    exact ⟨by dsimp only; omega, fun _ => by dsimp only; omega⟩
  next => exact ⟨Nat.le_refl _, fun opened => by cases opened⟩

/-- The counter never steps back, and it is past a command that was executed unless the actor is sealed. -/
theorem handle_nextSequence (actor : VenueActor U) (input : Submission) :
    actor.nextSequence ≤ (actor.handle input).2.nextSequence ∧
      (actor.Executes input → (actor.handle input).2.sealed = none →
        actor.nextSequence < (actor.handle input).2.nextSequence) := by
  have turn := actor.handle_turn input
  generalize actor.handle input = result at turn ⊢
  obtain ⟨reply, last⟩ := result
  cases turn with
  | refused reason closed =>
    refine ⟨Nat.le_refl _, fun executes => ?_⟩
    rw [executes.1] at closed
    cases closed
  | reused journal opened ahead =>
    refine ⟨Nat.le_refl _, fun executes => ?_⟩
    have committed := executes.2
    rw [ahead] at committed
    cases committed
  | eventLost => exact ⟨Nat.le_refl _, fun _ opened => by cases opened⟩
  | projectionFailed => exact ⟨Nat.le_refl _, fun _ opened => by cases opened⟩
  | committed journal last fanOut =>
    obtain ⟨grows, passes⟩ := nextSequence_advance { ({ actor with journal := last, executor :=
      (actor.derived input).2 }.publish (actor.derived input).1) with fanOut := fanOut }
    exact ⟨grows, fun _ => passes⟩

theorem nextSequence_le_minted (inputs : List Submission) : ∀ id ∈ actor.minted inputs, actor.nextSequence ≤ id := by
  induction inputs generalizing actor with
  | nil => exact List.forall_mem_nil _
  | cons input rest ih =>
    have later : ∀ id ∈ (actor.handle input).2.minted rest, actor.nextSequence ≤ id :=
      fun id member => Nat.le_trans (actor.handle_nextSequence input).1 (ih id member)
    rw [minted]
    split
    · exact List.forall_mem_cons.2 ⟨Nat.le_refl _, later⟩
    · exact later

/-- What a turn registers, it registers under the sequence of its command. -/
theorem handle_resting {input : Submission} {id : Nat} {record : RestingRecord}
    (present : (actor.handle input).2.executor.state.registry.resting[id]? = some record) :
    actor.executor.state.registry.resting[id]? = some record ∨ actor.Executes input ∧ id = actor.nextSequence := by
  rcases actor.handle_executor input with same | ⟨opened, committed, executed⟩
  · rw [same] at present
    exact Or.inl present
  · rw [executed] at present
    rcases (SequencedState.execute_registry actor.executor.hashOrder actor.executor.state
      ((actor.envelope input).context actor.underlying actor.lineageId)).resting present with old | new
    · exact Or.inl old
    · exact Or.inr ⟨⟨opened, committed⟩, new⟩

/-- A record below the counter is the one that was there, or none. -/
theorem run_resting {inputs : List Submission} {id : Nat} {record : RestingRecord} (below : id < actor.nextSequence)
    (present : (actor.run inputs).2.executor.state.registry.resting[id]? = some record) :
    actor.executor.state.registry.resting[id]? = some record := by
  induction inputs generalizing actor with
  | nil => exact present
  | cons input rest ih =>
    rw [run_cons] at present
    have step := actor.handle_nextSequence input
    rcases handle_resting (ih (by omega) present) with old | ⟨-, here⟩
    · exact old
    · omega

/-- What an accepted restore goes on with. -/
theorem restore_accepted {receipt : Receipt}
    (accepted : (actor.restore hashOrder venueTs snapshot fingerprint).1 = .ok receipt) :
    ∃ prepared, Prepared actor hashOrder snapshot prepared ∧
      (actor.restore hashOrder venueTs snapshot fingerprint).2.nextSequence = actor.nextSequence + 1 ∧
        (actor.restore hashOrder venueTs snapshot fingerprint).2.executor = prepared.1 := by
  revert accepted
  unfold restore
  split
  · exact fun accepted => by cases accepted
  next prepared done =>
    have ready := prepareRestore_prepared done
    split
    · exact fun accepted => by cases accepted
    · exact fun _ => ⟨prepared, ready, ready.next, rfl⟩

end UnderlyingActor

namespace SequencedState
variable {U : Upstream}

theorem rebuildFrom_registry {state rebuilt : SequencedState U} {orders : List RestingOrderCapture}
    (done : state.rebuildFrom orders = .ok rebuilt) : rebuilt.registry = registerAll state.registry orders := by
  induction orders generalizing state with
  | nil =>
    cases done
    rfl
  | cons capture rest ih =>
    unfold rebuildFrom at done
    split at done
    · cases done
    · split at done
      · cases done
      · exact ih done

/-- The records of a prepared state are those of its cut, the later of two with one engine sequence. -/
theorem prepareRestore_resting {expected : String} {cut : ExecutorState} {prepared : SequencedState U}
    (done : prepareRestore U expected cut = .ok prepared) :
    prepared.registry.resting = writeAll RestingOrderCapture.engineSeq captureRecord ∅
      (sortByKey RestingOrderCapture.engineSeq cut.restingOrders) := by
  unfold prepareRestore at done
  split at done
  · cases done
  · split at done
    · cases done
    next rebuilt rebuild =>
      rw [(applyInstrumentStatuses_frame done).2.2.1, rebuildFrom_registry rebuild, registerAll_resting]
      rfl

end SequencedState

namespace UnderlyingActor
variable {U : Upstream} {actor : VenueActor U} {hashOrder : VisitOrder} {venueTs : Nat} {snapshot : VenueSnapshot}
  {fingerprint : String}

/-- The orders of a cut and the commands after its restore have different engine ids, and the venue never records
another order under the id of a restored one. -/
structure Collisionless (restored : VenueActor U) (cut : List RestingOrderCapture) : Prop where
  below : ∀ capture ∈ cut, capture.engineSeq < restored.nextSequence
  distinct : (cut.map RestingOrderCapture.engineSeq).Nodup
  registered : ∀ capture ∈ cut, restored.executor.state.registry.resting[engineOrderId capture.engineSeq]? =
    some (SequencedState.captureRecord capture)
  unminted : ∀ inputs, ∀ capture ∈ cut, engineOrderId capture.engineSeq ∉ restored.minted inputs
  kept : ∀ inputs, ∀ capture ∈ cut, ∀ record,
    (restored.run inputs).2.executor.state.registry.resting[engineOrderId capture.engineSeq]? = some record →
      record = SequencedState.captureRecord capture

/-- The records of a cut name different sequences, none of which the actor has still to reach. -/
structure Fitting (actor : VenueActor U) (cut : List RestingOrderCapture) : Prop where
  reached : ∀ capture ∈ cut, capture.engineSeq ≤ actor.nextSequence
  distinct : (cut.map RestingOrderCapture.engineSeq).Nodup

/-- The ids of an accepted snapshot collide with none exactly when its cut fits the actor that it is restored into. -/
theorem restore_collisionless_iff {receipt : Receipt}
    (accepted : (actor.restore hashOrder venueTs snapshot fingerprint).1 = .ok receipt) :
    Collisionless (actor.restore hashOrder venueTs snapshot fingerprint).2 snapshot.executor.restingOrders ↔
      Fitting actor snapshot.executor.restingOrders := by
  obtain ⟨prepared, ready, next, executor⟩ := restore_accepted accepted
  generalize (actor.restore hashOrder venueTs snapshot fingerprint).2 = restored at next executor ⊢
  constructor
  · intro free
    refine ⟨fun capture member => ?_, free.distinct⟩
    have below := free.below capture member
    omega
  · intro fitting
    obtain ⟨state, built, same⟩ := MatchingExecutor.prepareRestore_eq_ok.1 ready.executor
    have below : ∀ capture ∈ snapshot.executor.restingOrders, capture.engineSeq < restored.nextSequence := by
      intro capture member
      have reached := fitting.reached capture member
      omega
    have registered : ∀ capture ∈ snapshot.executor.restingOrders,
        restored.executor.state.registry.resting[engineOrderId capture.engineSeq]? =
          some (SequencedState.captureRecord capture) := by
      intro capture member
      have sorted := sortByKey_perm RestingOrderCapture.engineSeq snapshot.executor.restingOrders
      rw [executor, same, SequencedState.prepareRestore_resting built]
      exact getElem?_writeAll_of_mem ((sorted.map _).nodup_iff.2 fitting.distinct) (sorted.mem_iff.2 member)
    refine ⟨below, fitting.distinct, registered, fun inputs capture member again => ?_,
      fun inputs capture member record present => ?_⟩
    · have above := nextSequence_le_minted inputs _ again
      exact Nat.not_le.2 (below capture member) above
    · have before := run_resting (below capture member) present
      exact Option.some.inj (before.symm.trans (registered capture member))

/-- An actor with one resting bid, and the snapshot that it captures then. -/
def biddingActor : VenueActor referenceUpstream := ((freshActor []).handle ⟨5, testOrder "a" .buy 100⟩).2

def biddingSnapshot : VenueSnapshot := biddingActor.capture 6 "snap-1" "fp"

theorem bidding_collisionless :
    biddingSnapshot.executor.restingOrders.length = 1 ∧
      Collisionless (biddingActor.restore (fun _ _ => Equiv.refl _) 7 biddingSnapshot "fp").2
        biddingSnapshot.executor.restingOrders := by
  have accepted : (biddingActor.restore (fun _ _ => Equiv.refl _) 7 biddingSnapshot "fp").1 =
      .ok (Receipt.control 1 7) := by decide +kernel
  exact ⟨by decide +kernel, (restore_collisionless_iff accepted).2 ⟨by decide +kernel, by decide +kernel⟩⟩

/-- A snapshot of resting bids on the put, one for each engine sequence. -/
def putSnapshot (engineSeqs : List Nat) : VenueSnapshot where
  metadata := .new "snap-1" 5 "run-1" "fp"
  executor := ⟨engineSeqs.map fun engineSeq =>
    ⟨"BTC-20351231-50000-P", "a" ++ toString engineSeq, "acct-2", 8, engineSeq, .buy, 100, 5, .gtc⟩, [], []⟩
  executions := []
  positions := []

/-- A snapshot from further on is accepted by a fresh actor, and the first order placed after it takes over the record
of the restored one. -/
theorem later_snapshot_collides :
    let restored := (freshActor []).restore (fun _ _ => Equiv.refl _) 6 (putSnapshot [1]) "fp"
    restored.1 = .ok (Receipt.control 0 6) ∧
      (restored.2.executor.state.registry.resting[1]?).map RestingRecord.venueOrderId = some "a1" ∧
        restored.2.minted [⟨7, testOrder "b" .buy 100⟩] = [1] ∧
          ((restored.2.run [⟨7, testOrder "b" .buy 100⟩]).2.executor.state.registry.resting[1]?).map
            RestingRecord.venueOrderId = some "b" := by
  decide +kernel

/-- The history of an actor from an empty registry: commands, captures, and restores of its own captures, each under
whatever the journal answers. The list holds the cuts captured so far. -/
inductive OwnHistory : VenueActor U → List ExecutorState → Prop where
  | opened {actor : VenueActor U} (empty : actor.executor.state.registry = .new) : OwnHistory actor []
  | handled {actor : VenueActor U} {cuts : List ExecutorState} (history : OwnHistory actor cuts) (input : Submission) :
      OwnHistory (actor.handle input).2 cuts
  | captured {actor : VenueActor U} {cuts : List ExecutorState} (history : OwnHistory actor cuts) :
      OwnHistory actor (actor.executor.captureState :: cuts)
  | restored {actor : VenueActor U} {cuts : List ExecutorState} (history : OwnHistory actor cuts)
      (hashOrder : VisitOrder) (venueTs : Nat) {snapshot : VenueSnapshot} (fingerprint : String)
      (own : snapshot.executor ∈ cuts) :
      OwnHistory (actor.restore hashOrder venueTs snapshot fingerprint).2 cuts

/-- No order is registered under a sequence that the actor has still to reach. -/
structure Behind (actor : VenueActor U) : Prop where
  reached : ∀ (id : Nat) (record : RestingRecord), actor.executor.state.registry.resting[id]? = some record →
    id ≤ actor.nextSequence
  passed : actor.sealed = none → ∀ (id : Nat) (record : RestingRecord),
    actor.executor.state.registry.resting[id]? = some record → id < actor.nextSequence

theorem Behind.handle (behind : Behind actor) (input : Submission) : Behind (actor.handle input).2 := by
  obtain ⟨grows, passes⟩ := actor.handle_nextSequence input
  constructor
  · intro id record present
    rcases handle_resting present with old | ⟨-, here⟩
    · exact Nat.le_trans (behind.reached id record old) grows
    · omega
  · intro opened id record present
    rcases handle_resting present with old | ⟨executes, here⟩
    · have running : actor.sealed = none := by
        by_contra closed
        obtain ⟨reason, closed⟩ := Option.ne_none_iff_exists'.1 closed
        rw [show (actor.handle input).2 = actor by unfold UnderlyingActor.handle; rw [closed]] at opened
        rw [closed] at opened
        cases opened
      exact Nat.lt_of_lt_of_le (behind.passed running id record old) grows
    · have passed := passes executes opened
      omega

/-- What a restore can do: it is accepted, or the actor has at most written to its journal. -/
theorem restore_cases (actor : VenueActor U) (hashOrder : VisitOrder) (venueTs : Nat) (snapshot : VenueSnapshot)
    (fingerprint : String) :
    (∃ receipt, (actor.restore hashOrder venueTs snapshot fingerprint).1 = .ok receipt) ∨
      ∃ journal, (actor.restore hashOrder venueTs snapshot fingerprint).2 = { actor with journal := journal } := by
  unfold restore
  split
  · exact Or.inr ⟨actor.journal, rfl⟩
  · split
    next journal _ => exact Or.inr ⟨journal, rfl⟩
    · exact Or.inl ⟨_, rfl⟩

theorem Behind.restore (behind : Behind actor) (fitting : Fitting actor snapshot.executor.restingOrders) :
    Behind (actor.restore hashOrder venueTs snapshot fingerprint).2 := by
  rcases restore_cases actor hashOrder venueTs snapshot fingerprint with ⟨receipt, accepted⟩ | ⟨journal, same⟩
  · obtain ⟨prepared, ready, next, executor⟩ := restore_accepted accepted
    obtain ⟨state, built, same⟩ := MatchingExecutor.prepareRestore_eq_ok.1 ready.executor
    have below : ∀ (id : Nat) (record : RestingRecord),
        (actor.restore hashOrder venueTs snapshot fingerprint).2.executor.state.registry.resting[id]? = some record →
          id < (actor.restore hashOrder venueTs snapshot fingerprint).2.nextSequence := by
      intro id record present
      rw [executor, same, SequencedState.prepareRestore_resting built] at present
      rcases exists_of_getElem?_writeAll present with before | ⟨capture, member, named, -⟩
      · simp at before
      · have reached := fitting.reached capture ((sortByKey_perm _ _).mem_iff.1 member)
        omega
    exact ⟨fun id record present => Nat.le_of_lt (below id record present), fun _ => below⟩
  · rw [same]
    exact ⟨behind.reached, behind.passed⟩

theorem Fitting.mono {cut : List RestingOrderCapture} {after : VenueActor U} (fitting : Fitting actor cut)
    (grows : actor.nextSequence ≤ after.nextSequence) : Fitting after cut :=
  ⟨fun capture member => Nat.le_trans (fitting.reached capture member) grows, fitting.distinct⟩

/-- A capture of what is registered fits. -/
theorem Behind.captured (behind : Behind actor) : Fitting actor actor.executor.captureState.restingOrders where
  reached := by
    intro capture member
    obtain ⟨record, present, -⟩ := mem_restingOrders.1 member
    exact behind.reached capture.engineSeq record present
  distinct := List.nodup_iff_pairwise_ne.2 (List.pairwise_map.2
    ((restingOrders_ascending actor.executor.state).imp fun before => Nat.ne_of_lt before))

theorem nextSequence_restore (actor : VenueActor U) (hashOrder : VisitOrder) (venueTs : Nat) (snapshot : VenueSnapshot)
    (fingerprint : String) :
    actor.nextSequence ≤ (actor.restore hashOrder venueTs snapshot fingerprint).2.nextSequence := by
  rcases restore_cases actor hashOrder venueTs snapshot fingerprint with ⟨receipt, accepted⟩ | ⟨journal, same⟩
  · obtain ⟨prepared, -, next, -⟩ := restore_accepted accepted
    omega
  · rw [same]

theorem OwnHistory.fitting {cuts : List ExecutorState} (history : OwnHistory actor cuts) :
    Behind actor ∧ ∀ cut ∈ cuts, Fitting actor cut.restingOrders := by
  induction history with
  | opened empty =>
    refine ⟨⟨?_, fun _ => ?_⟩, List.forall_mem_nil _⟩ <;>
      exact fun id record present => absurd present (by simp [empty, OrderRegistry.new])
  | handled history input ih =>
    exact ⟨ih.1.handle input, fun cut member => (ih.2 cut member).mono (handle_nextSequence _ input).1⟩
  | captured history ih => exact ⟨ih.1, List.forall_mem_cons.2 ⟨ih.1.captured, ih.2⟩⟩
  | restored history hashOrder venueTs fingerprint own ih =>
    exact ⟨ih.1.restore (ih.2 _ own), fun cut member =>
      (ih.2 cut member).mono (nextSequence_restore _ hashOrder venueTs _ fingerprint)⟩

/-- The actor's own captures, however old, are restored without a collision. -/
theorem OwnHistory.collisionless {cuts : List ExecutorState} (history : OwnHistory actor cuts)
    (own : snapshot.executor ∈ cuts) {receipt : Receipt}
    (accepted : (actor.restore hashOrder venueTs snapshot fingerprint).1 = .ok receipt) :
    Collisionless (actor.restore hashOrder venueTs snapshot fingerprint).2 snapshot.executor.restingOrders :=
  (restore_collisionless_iff accepted).2 (history.fitting.2 _ own)

/-- A capture that is restored after one more bid. -/
theorem older_capture_collisionless :
    Collisionless ((biddingActor.handle ⟨7, testOrder "b" .buy 90⟩).2.restore (fun _ _ => Equiv.refl _) 8 biddingSnapshot "fp").2
      biddingSnapshot.executor.restingOrders := by
  have opened : OwnHistory (freshActor []) [] := .opened rfl
  have history := (opened.handled ⟨5, testOrder "a" .buy 100⟩).captured.handled ⟨7, testOrder "b" .buy 90⟩
  have accepted : ((biddingActor.handle ⟨7, testOrder "b" .buy 90⟩).2.restore (fun _ _ => Equiv.refl _) 8 biddingSnapshot "fp").1 =
      .ok (Receipt.control 2 8) := by decide +kernel
  exact OwnHistory.collisionless history List.mem_cons_self accepted

end UnderlyingActor

end Fauxchange.Exchange
