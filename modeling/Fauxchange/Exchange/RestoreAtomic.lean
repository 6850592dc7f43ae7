import Fauxchange.Exchange.ReferenceLaws
import Fauxchange.Exchange.Rebuild
import Fauxchange.Exchange.StoreRestore

/-! When a restore is all-or-nothing: at every failure point the actor is as it was, but for a marker whose append
is ambiguous and has landed. -/

namespace Fauxchange.Exchange
open Lib

/-- The actor of an underlying over a journal under a script of faults. -/
abbrev VenueActor (U : Upstream) := UnderlyingActor FaultJournal (MatchingExecutor U) (StoreFanOut U)

namespace FaultJournal
variable {journal : FaultJournal} {record : JournalRecord}

/-- A quiet append makes nothing durable but its own record. -/
theorem Quiet.mem_append (quiet : journal.Quiet) {other : JournalRecord}
    (durable : other ∈ (journal.append record).2.records) : other ∈ journal.records ∨ other = record := by
  rw [quiet.append_eq] at durable
  change other ∈ (attempt journal.log record journal.turn.fault).2.records at durable
  have written : other ∈ (appendContract journal.log.records record).2 → other ∈ journal.records ∨ other = record := by
    rw [appendContract_records]
    exact LateLog.mem_write _
  unfold attempt at durable
  split at durable
  · exact written durable
  · exact Or.inl durable
  · exact Or.inl durable
  · exact written durable
  · exact Or.inl durable

/-- The answer and the durable records of an append, on a quiet journal. -/
theorem Quiet.append_cases (quiet : journal.Quiet) (record : JournalRecord) :
    (journal.turn.fault = .none ∧
        ((journal.append record).1, (journal.append record).2.records) = appendContract journal.records record) ∨
      (∃ detail, journal.turn.fault = .ambiguous detail true) ∧
        (∃ error, (journal.append record).1 = .error error) ∧
        (journal.append record).2.records = (appendContract journal.records record).2 ∨
      journal.turn.fault ≠ .none ∧ (∀ detail, journal.turn.fault ≠ .ambiguous detail true) ∧
        (∃ error, (journal.append record).1 = .error error) ∧
        (journal.append record).2.records = journal.records := by
  rw [quiet.append_eq]
  match fault : journal.turn.fault with
  | .none => exact Or.inl ⟨rfl, rfl⟩
  | .appendFailed detail => exact Or.inr (Or.inr ⟨by simp, by simp, ⟨_, rfl⟩, rfl⟩)
  | .resourceLimit limit found ceiling => exact Or.inr (Or.inr ⟨by simp, by simp, ⟨_, rfl⟩, rfl⟩)
  | .ambiguous detail true => exact Or.inr (Or.inl ⟨⟨detail, rfl⟩, ⟨_, rfl⟩, rfl⟩)
  | .ambiguous detail false => exact Or.inr (Or.inr ⟨by simp, by simp, ⟨_, rfl⟩, rfl⟩)

end FaultJournal

namespace UnderlyingActor
variable {U : Upstream} {laws : BookLaws U} {actor : VenueActor U}

/-- The journal of an open actor is behind its next sequence, but for an epoch marker that may stand at it. -/
structure Fronted (actor : VenueActor U) : Prop where
  quiet : actor.journal.Quiet
  behind : actor.sealed = none → ∀ record ∈ actor.journal.records, record.sequence < actor.nextSequence ∨
    record.key = (actor.nextSequence, .epoch)

/-- No record stands at the sequence of the next command. -/
def Vacant (actor : VenueActor U) : Prop :=
  actor.sealed = none → ∀ record ∈ actor.journal.records, record.sequence ≠ actor.nextSequence

theorem Fronted.sequence_le (fronted : Fronted actor) (opened : actor.sealed = none) {record : JournalRecord}
    (durable : record ∈ actor.journal.records) : record.sequence ≤ actor.nextSequence := by
  rcases fronted.behind opened record durable with early | here
  · exact Nat.le_of_lt early
  · exact Nat.le_of_eq (congrArg Prod.fst here)

theorem ahead_journal {input : Submission} {ahead : WriteAhead} {journal : FaultJournal}
    (done : actor.ahead input = (ahead, journal)) :
    (actor.journal.append (actor.commandRecord input)).2 = journal := by
  have written : (actor.ahead input).2 = (VenueJournal.append actor.journal (actor.commandRecord input)).2 :=
    writeAheadCommand_journal _ _ _
  rw [done] at written
  exact written.symm

/-- What a turn of an open actor leaves durable behind a complete pair. -/
theorem Fronted.pair (fronted : Fronted actor) (opened : actor.sealed = none) (input : Submission)
    {journal last : FaultJournal} (ahead : actor.ahead input = (.committed, journal))
    (stored : VenueJournal.append journal (.event (actor.derived input).1) = (.ok (), last)) :
    last.Quiet ∧ ∀ record ∈ last.records, record.sequence ≤ actor.nextSequence := by
  have written := ahead_journal ahead
  have quiet : journal.Quiet := written ▸ fronted.quiet.append rfl
  have appended : (journal.append (.event (actor.derived input).1)).2 = last := congrArg Prod.snd stored
  refine ⟨appended ▸ quiet.append rfl, fun record durable => ?_⟩
  rw [← appended] at durable
  rcases quiet.mem_append durable with early | rfl
  · rw [← written] at early
    rcases fronted.quiet.mem_append early with old | rfl
    · exact fronted.sequence_le opened old
    · exact Nat.le_refl _
  · exact Nat.le_refl _

/-- Advancing past everything durable vacates the next sequence. -/
theorem fronted_advance (quiet : actor.journal.Quiet)
    (below : ∀ record ∈ actor.journal.records, record.sequence ≤ actor.nextSequence) : Fronted actor.advance := by
  unfold UnderlyingActor.advance
  split
  next next advanced =>
    obtain ⟨-, rfl⟩ := checkedNext_eq_some.1 advanced
    exact ⟨quiet, fun _ record durable => Or.inl (Nat.lt_succ_of_le (below record durable))⟩
  next => exact ⟨quiet, fun closed => by cases closed⟩

theorem Fronted.handle (fronted : Fronted actor) (input : Submission) : Fronted (actor.handle input).2 := by
  generalize result : actor.handle input = reply
  have turn := actor.handle_turn input
  rw [result] at turn
  obtain ⟨reply, last⟩ := reply
  cases turn with
  | refused reason closed => exact fronted
  | reused journal opened ahead =>
    have free : (JournalRecord.command (actor.envelope input)).key ∉ actor.journal.records.map JournalRecord.key := by
      intro taken
      obtain ⟨record, durable, same⟩ := List.mem_map.1 taken
      rcases fronted.behind opened record durable with early | here
      · have place : record.sequence = actor.nextSequence := congrArg Prod.fst same
        omega
      · rw [here] at same
        cases same
    have reuse : (writeAheadCommand actor.journal actor.nextSequence (.command (actor.envelope input))).1 = .reuse :=
      congrArg Prod.fst ahead
    have kept : (actor.ahead input).2.records = actor.journal.records := fronted.quiet.reuse free reuse
    rw [ahead] at kept
    refine ⟨ahead_journal ahead ▸ fronted.quiet.append rfl, fun opened => ?_⟩
    change ∀ record ∈ journal.records, _
    rw [show journal.records = actor.journal.records from kept]
    exact fronted.behind opened
  | eventLost journal last error opened ahead lost =>
    refine ⟨?_, fun closed => by cases closed⟩
    have written := ahead_journal ahead
    have quiet : journal.Quiet := written ▸ fronted.quiet.append rfl
    exact quiet.append lost
  | projectionFailed journal last error fanOut opened ahead stored failed =>
    exact ⟨(fronted.pair opened input ahead stored).1, fun closed => by cases closed⟩
  | committed journal last fanOut opened ahead stored emitted =>
    obtain ⟨quiet, below⟩ := fronted.pair opened input ahead stored
    exact fronted_advance quiet below

section Restore
variable {hashOrder : VisitOrder} {venueTs : Nat} {snapshot : VenueSnapshot} {fingerprint : String}
  {prepared : MatchingExecutor U × Nat × Nat}

/-- What a preparation that succeeds has checked. -/
structure Prepared (actor : VenueActor U) (hashOrder : VisitOrder) (snapshot : VenueSnapshot)
    (prepared : MatchingExecutor U × Nat × Nat) : Prop where
  opened : actor.sealed = none
  epoch : prepared.2.1 = actor.epoch + 1
  next : prepared.2.2 = actor.nextSequence + 1
  executor : actor.executor.prepareRestore hashOrder snapshot.executor = .ok prepared.1
  executions : executionsForeign actor.underlying snapshot.executions = 0
  positions : positionsForeign actor.underlying snapshot.positions = 0

theorem prepareRestore_prepared (done : actor.prepareRestore hashOrder snapshot fingerprint = .ok prepared) :
    Prepared actor hashOrder snapshot prepared := by
  simp only [UnderlyingActor.prepareRestore, bind, Except.bind, pure, Except.pure, throw, throwThe,
    MonadExceptOf.throw, nextEpoch, InMemoryExecutionsStore.validateRestore, InMemoryPositionsStore.validateRestore]
    at done
  split at done
  · cases done
  · split at done
    · cases done
    next checked =>
      split at done
      · cases done
      next epoch counted =>
        split at done
        next next advanced =>
          split at done
          · cases done
          next executor rebuilt =>
            split at done
            · cases done
            next executions =>
              split at done
              · cases done
              next positions =>
                cases done
                refine ⟨checked, ?_, (checkedNext_eq_some.1 advanced).2, rebuilt, ?_, ?_⟩
                · split at counted
                  · exact (Except.ok.inj counted).symm
                  · cases counted
                · split at executions
                  · cases executions
                  next none => exact Nat.eq_zero_of_not_pos none
                · split at positions
                  · cases positions
                  next none => exact Nat.eq_zero_of_not_pos none
        · cases done

/-- Nothing of the actor has changed, and nothing has become durable. -/
structure Unchanged (actor after : VenueActor U) : Prop where
  executor : after.executor = actor.executor
  fanOut : after.fanOut = actor.fanOut
  epoch : after.epoch = actor.epoch
  nextSequence : after.nextSequence = actor.nextSequence
  records : after.journal.records = actor.journal.records

/-- The four stores hold the slices of the snapshot, and its marker is durable at the sequence before the next. -/
structure Restored (laws : BookLaws U) (actor : VenueActor U) (venueTs : Nat) (snapshot : VenueSnapshot)
    (after : VenueActor U) : Prop where
  books : ConsistentCut laws actor.executor.state.underlyingBook.underlying snapshot.executor.restingOrders →
    ∀ capture, capture ∈ after.executor.captureState.restingOrders ↔ capture ∈ snapshot.executor.restingOrders
  idempotency : after.executor.state.idempotency = IdempotencyMap.fromRecords snapshot.executor.idempotency
  executions : after.fanOut.executions.slice actor.underlying =
    InMemoryExecutionsStore.capturedSlice snapshot.executions
  positions : after.fanOut.positions.slice actor.underlying = InMemoryPositionsStore.capturedSlice snapshot.positions
  marker : actor.marker venueTs snapshot after.epoch ∈ after.journal.records
  epoch : after.epoch = actor.epoch + 1
  nextSequence : after.nextSequence = actor.nextSequence + 1

/-- A reply of a restore is all-or-nothing. -/
structure AllOrNothing (laws : BookLaws U) (actor : VenueActor U) (venueTs : Nat) (snapshot : VenueSnapshot)
    (reply : Except SnapshotError Receipt × VenueActor U) : Prop where
  failed : ∀ error, reply.1 = .error error → Unchanged actor reply.2
  restored : ∀ receipt, reply.1 = .ok receipt → Restored laws actor venueTs snapshot reply.2
  vacant : Vacant reply.2

theorem Prepared.restored (ready : Prepared actor hashOrder snapshot prepared) {journal : FaultJournal}
    (durable : actor.marker venueTs snapshot prepared.2.1 ∈ journal.records) :
    Restored laws actor venueTs snapshot ({ actor with journal := journal }.commitRestore prepared snapshot) := by
  obtain ⟨state, built, same⟩ := MatchingExecutor.prepareRestore_eq_ok.1 ready.executor
  obtain ⟨idempotency, books⟩ := @prepareRestore_readBack U laws _ _ _ built
  have restored : prepared.1.state = state := by rw [same]
  rw [← restored] at idempotency books
  have executions : (snapshot.executions.filter fun capture => executionLegBelongs capture.record actor.underlying) =
      snapshot.executions := by
    refine List.filter_eq_self.2 fun capture member => ?_
    have own := List.countP_eq_zero.1 ready.executions capture member
    simpa using own
  have positions : (snapshot.positions.filter fun capture => positionFoldBelongs capture.underlying actor.underlying) =
      snapshot.positions := by
    refine List.filter_eq_self.2 fun capture member => ?_
    have own := List.countP_eq_zero.1 ready.positions capture member
    simpa using own
  refine ⟨books, idempotency, ?_, ?_, durable, ready.epoch, ready.next⟩
  · exact (InMemoryExecutionsStore.slice_restoreFor _ _ _).trans (by rw [executions])
  · exact (InMemoryPositionsStore.slice_restoreFor _ _ _).trans (by rw [positions])

/-- The preparation succeeds, and the append of the marker is answered as ambiguous although it has landed. -/
def Stranded (actor : VenueActor U) (hashOrder : VisitOrder) (snapshot : VenueSnapshot) (fingerprint : String) : Prop :=
  (∃ prepared, actor.prepareRestore hashOrder snapshot fingerprint = .ok prepared) ∧
    ∃ detail, actor.journal.turn.fault = .ambiguous detail true

/-- The call re-appends, without a fault, the very marker that an earlier one has left at the next sequence. -/
def Resumes (actor : VenueActor U) (hashOrder : VisitOrder) (venueTs : Nat) (snapshot : VenueSnapshot)
    (fingerprint : String) : Prop :=
  ∃ prepared, actor.prepareRestore hashOrder snapshot fingerprint = .ok prepared ∧
    actor.journal.turn.fault = .none ∧
      actor.journal.records.find? (fun record => record.key = (actor.marker venueTs snapshot prepared.2.1).key) =
        some (actor.marker venueTs snapshot prepared.2.1)

theorem restore_of_unprepared {error : SnapshotError}
    (unprepared : actor.prepareRestore hashOrder snapshot fingerprint = .error error) :
    actor.restore hashOrder venueTs snapshot fingerprint = (.error error, actor) := by
  unfold restore
  rw [unprepared]

/-- The marker of a prepared restore. -/
theorem restore_of_refused (done : actor.prepareRestore hashOrder snapshot fingerprint = .ok prepared)
    {error : JournalError} (refused : (actor.journal.append (actor.marker venueTs snapshot prepared.2.1)).1 = .error error) :
    actor.restore hashOrder venueTs snapshot fingerprint = (.error .journalUnavailable,
      { actor with journal := (actor.journal.append (actor.marker venueTs snapshot prepared.2.1)).2 }) := by
  have answer : VenueJournal.append actor.journal (actor.marker venueTs snapshot prepared.2.1) =
      (.error error, (actor.journal.append (actor.marker venueTs snapshot prepared.2.1)).2) := Prod.ext refused rfl
  unfold restore
  rw [done]
  dsimp only
  rw [answer]

theorem restore_of_accepted (done : actor.prepareRestore hashOrder snapshot fingerprint = .ok prepared)
    (accepted : (actor.journal.append (actor.marker venueTs snapshot prepared.2.1)).1 = .ok ()) :
    actor.restore hashOrder venueTs snapshot fingerprint = (.ok (Receipt.control actor.nextSequence venueTs),
      { actor with
        journal := (actor.journal.append (actor.marker venueTs snapshot prepared.2.1)).2 }.commitRestore prepared
          snapshot) := by
  have answer : VenueJournal.append actor.journal (actor.marker venueTs snapshot prepared.2.1) =
      (.ok (), (actor.journal.append (actor.marker venueTs snapshot prepared.2.1)).2) := Prod.ext accepted rfl
  unfold restore
  rw [done]
  dsimp only
  rw [answer]

/-- A journal behind the marker leaves the sequence past it vacant. -/
theorem Fronted.marked (fronted : Fronted actor) (opened : actor.sealed = none) (epoch : Nat) {record : JournalRecord}
    (durable : record ∈ (actor.journal.append (actor.marker venueTs snapshot epoch)).2.records) :
    record.sequence ≤ actor.nextSequence := by
  rcases fronted.quiet.mem_append durable with old | rfl
  · exact fronted.sequence_le opened old
  · exact Nat.le_refl _

theorem Fronted.restore (fronted : Fronted actor) :
    Fronted (actor.restore hashOrder venueTs snapshot fingerprint).2 := by
  cases done : actor.prepareRestore hashOrder snapshot fingerprint with
  | error error =>
    rw [restore_of_unprepared done]
    exact fronted
  | ok prepared =>
    have ready := prepareRestore_prepared done
    cases answer : (actor.journal.append (actor.marker venueTs snapshot prepared.2.1)).1 with
    | error error =>
      rw [restore_of_refused done answer]
      refine ⟨fronted.quiet.append rfl, fun opened record durable => ?_⟩
      rcases fronted.quiet.mem_append durable with old | rfl
      · exact fronted.behind opened record old
      · exact Or.inr rfl
    | ok =>
      rw [restore_of_accepted done answer]
      refine ⟨fronted.quiet.append rfl, fun _ record durable => Or.inl ?_⟩
      change record.sequence < prepared.2.2
      rw [ready.next]
      exact Nat.lt_succ_of_le (fronted.marked ready.opened _ durable)

/-- A failed call that leaves the records alone is all-or-nothing where the next sequence was vacant. -/
theorem allOrNothing_of_unchanged {error : SnapshotError} {after : VenueActor U} (unchanged : Unchanged actor after)
    (sealed : after.sealed = actor.sealed) :
    AllOrNothing laws actor venueTs snapshot (.error error, after) ↔ Vacant actor := by
  have same : Vacant after ↔ Vacant actor := by
    unfold Vacant
    rw [sealed, unchanged.records, unchanged.nextSequence]
  constructor
  · exact fun all => same.1 all.vacant
  · intro vacant
    exact ⟨fun _ _ => unchanged, fun receipt reply => (by cases reply), same.2 vacant⟩

theorem Fronted.allOrNothing_of_accepted (fronted : Fronted actor)
    (done : actor.prepareRestore hashOrder snapshot fingerprint = .ok prepared)
    (accepted : (actor.journal.append (actor.marker venueTs snapshot prepared.2.1)).1 = .ok ())
    (durable : actor.marker venueTs snapshot prepared.2.1 ∈
      (actor.journal.append (actor.marker venueTs snapshot prepared.2.1)).2.records) :
    AllOrNothing laws actor venueTs snapshot (actor.restore hashOrder venueTs snapshot fingerprint) := by
  have ready := prepareRestore_prepared done
  rw [restore_of_accepted done accepted]
  refine ⟨fun error reply => (by cases reply), fun receipt _ => ready.restored durable, fun _ record kept => ?_⟩
  have low := fronted.marked ready.opened _ kept
  change record.sequence ≠ prepared.2.2
  rw [ready.next]
  omega

/-- A marker that stands at the next sequence keeps it taken. -/
theorem not_vacant_of_key (opened : actor.sealed = none) {record marker : JournalRecord}
    (durable : record ∈ actor.journal.records) (same : record.key = marker.key)
    (here : marker.sequence = actor.nextSequence) : ¬ Vacant actor := by
  intro vacant
  exact vacant opened record durable ((congrArg Prod.fst same).trans here)

/-- The restore of an actor is all-or-nothing exactly where no earlier marker is left at its next sequence, or
the call resumes that very one, and its own is not stranded. -/
theorem Fronted.restore_iff (fronted : Fronted actor) :
    AllOrNothing laws actor venueTs snapshot (actor.restore hashOrder venueTs snapshot fingerprint) ↔
      (Vacant actor ∨ Resumes actor hashOrder venueTs snapshot fingerprint) ∧
        ¬ Stranded actor hashOrder snapshot fingerprint := by
  cases done : actor.prepareRestore hashOrder snapshot fingerprint with
  | error error =>
    have idle : ¬ Resumes actor hashOrder venueTs snapshot fingerprint := by
      rintro ⟨prepared, ready, -⟩
      rw [done] at ready
      cases ready
    have unstranded : ¬ Stranded actor hashOrder snapshot fingerprint := by
      rintro ⟨⟨prepared, ready⟩, -⟩
      rw [done] at ready
      cases ready
    rw [restore_of_unprepared done, allOrNothing_of_unchanged ⟨rfl, rfl, rfl, rfl, rfl⟩ rfl]
    tauto
  | ok prepared =>
    have opened := (prepareRestore_prepared done).opened
    rcases fronted.quiet.append_cases (actor.marker venueTs snapshot prepared.2.1) with
      ⟨clean, answer⟩ | ⟨landed, ⟨error, refused⟩, records⟩ | ⟨faulty, unlanded, ⟨error, refused⟩, records⟩
    · have unstranded : ¬ Stranded actor hashOrder snapshot fingerprint := by
        rintro ⟨-, detail, fault⟩
        rw [clean] at fault
        cases fault
      cases found : actor.journal.records.find?
          (fun record => record.key = (actor.marker venueTs snapshot prepared.2.1).key) with
      | none =>
        have written : appendContract actor.journal.records (actor.marker venueTs snapshot prepared.2.1) =
            (.ok (), actor.journal.records ++ [actor.marker venueTs snapshot prepared.2.1]) := by
          simp [appendContract, found]
        rw [written] at answer
        obtain ⟨accepted, records⟩ := Prod.mk.inj answer
        have vacant : Vacant actor := by
          intro _ record durable here
          rcases fronted.behind opened record durable with early | key
          · omega
          · exact absurd (decide_eq_true (p := record.key = (actor.marker venueTs snapshot prepared.2.1).key) key)
              (List.find?_eq_none.1 found record durable)
        have all := @Fronted.allOrNothing_of_accepted U laws _ _ _ _ _ _ fronted done accepted (by simp [records])
        exact ⟨fun _ => ⟨Or.inl vacant, unstranded⟩, fun _ => all⟩
      | some existing =>
        have key : existing.key = (actor.marker venueTs snapshot prepared.2.1).key := by
          simpa using List.find?_some found
        have durable := List.mem_of_find?_eq_some found
        by_cases same : existing = actor.marker venueTs snapshot prepared.2.1
        · have written : appendContract actor.journal.records (actor.marker venueTs snapshot prepared.2.1) =
              (.ok (), actor.journal.records) := by
            simp [appendContract, found, same]
          rw [written] at answer
          obtain ⟨accepted, records⟩ := Prod.mk.inj answer
          have all := @Fronted.allOrNothing_of_accepted U laws _ _ _ _ _ _ fronted done accepted
            (by rw [records, ← same]; exact durable)
          exact ⟨fun _ => ⟨Or.inr ⟨prepared, done, clean, by rw [found, same]⟩, unstranded⟩, fun _ => all⟩
        · have written : appendContract actor.journal.records (actor.marker venueTs snapshot prepared.2.1) =
              (.error (.conflict (actor.marker venueTs snapshot prepared.2.1).sequence
                (actor.marker venueTs snapshot prepared.2.1).kind), actor.journal.records) := by
            simp [appendContract, found, same]
          rw [written] at answer
          obtain ⟨refused, records⟩ := Prod.mk.inj answer
          have taken := not_vacant_of_key opened durable key rfl
          have unchanged : Unchanged actor { actor with
              journal := (actor.journal.append (actor.marker venueTs snapshot prepared.2.1)).2 } :=
            ⟨rfl, rfl, rfl, rfl, records⟩
          rw [restore_of_refused done refused, allOrNothing_of_unchanged unchanged rfl]
          constructor
          · exact fun vacant => absurd vacant taken
          · rintro ⟨vacant | ⟨again, ready, -, resumed⟩, -⟩
            · exact vacant
            · rw [done] at ready
              obtain rfl := Except.ok.inj ready
              rw [found] at resumed
              exact absurd (Option.some.inj resumed) same
    · have stranded : Stranded actor hashOrder snapshot fingerprint := ⟨⟨prepared, done⟩, landed⟩
      rw [restore_of_refused done refused]
      refine ⟨fun all => ?_, fun clear => absurd stranded clear.2⟩
      exfalso
      rw [appendContract_records] at records
      have held := LateLog.key_mem_write JournalRecord.key actor.journal.records
        (actor.marker venueTs snapshot prepared.2.1)
      rw [← records] at held
      obtain ⟨record, durable, key⟩ := List.mem_map.1 held
      exact all.vacant opened record durable (congrArg Prod.fst key)
    · have idle : ¬ Resumes actor hashOrder venueTs snapshot fingerprint := by
        rintro ⟨-, -, clean, -⟩
        exact faulty clean
      have unstranded : ¬ Stranded actor hashOrder snapshot fingerprint := by
        rintro ⟨-, detail, fault⟩
        exact unlanded detail fault
      have unchanged : Unchanged actor { actor with
          journal := (actor.journal.append (actor.marker venueTs snapshot prepared.2.1)).2 } :=
        ⟨rfl, rfl, rfl, rfl, records⟩
      rw [restore_of_refused done refused, allOrNothing_of_unchanged unchanged rfl]
      tauto

end Restore

/-- The actors of an underlying: opened behind everything durable, then any commands and any restores, each under
whatever the journal answers. -/
inductive Operated : VenueActor U → Prop where
  | opened {actor : VenueActor U} (running : actor.sealed = none) (quiet : actor.journal.Quiet)
      (settled : ∀ record ∈ actor.journal.records, record.sequence < actor.nextSequence) : Operated actor
  | handled {actor : VenueActor U} (operated : Operated actor) (input : Submission) :
      Operated (actor.handle input).2
  | restored {actor : VenueActor U} (operated : Operated actor) (hashOrder : VisitOrder) (venueTs : Nat)
      (snapshot : VenueSnapshot) (fingerprint : String) :
      Operated (actor.restore hashOrder venueTs snapshot fingerprint).2

theorem Operated.fronted (operated : Operated actor) : Fronted actor := by
  induction operated with
  | opened running quiet settled => exact ⟨quiet, fun _ record durable => Or.inl (settled record durable)⟩
  | handled operated input ih => exact ih.handle input
  | restored operated hashOrder venueTs snapshot fingerprint ih => exact ih.restore

end UnderlyingActor

/-- A fresh actor of BTC under a script of faults. -/
def freshActor (script : List AppendTurn) : VenueActor referenceUpstream :=
  ⟨"BTC", "run-1", ⟨⟨[], []⟩, script⟩, freshExecutor referenceUpstream "BTC" none none fun _ _ => Equiv.refl _,
    .new referenceUpstream, 0, 0, none, none⟩

/-- Its own capture, restored at once. -/
def restoredAtOnce (script : List AppendTurn) : Except SnapshotError Receipt × VenueActor referenceUpstream :=
  (freshActor script).restore (fun _ _ => Equiv.refl _) 6 ((freshActor script).capture 5 "snap-1" "fp") "fp"

end Fauxchange.Exchange
