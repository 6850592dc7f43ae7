import Fauxchange.Exchange.Executor
import Fauxchange.Exchange.Stores

/-! The snapshot of an underlying: the consistent cut of its four stores, and the restore that rebuilds a
detached executor, journals the epoch marker and swaps the stores in. -/

namespace Fauxchange.Exchange
open Lib

/-- The atomic cut of the four derived stores. -/
structure VenueSnapshot where
  metadata : SnapshotMetadata
  executor : ExecutorState
  executions : List ExecutionCapture
  positions : List PositionCapture
  deriving DecidableEq, Repr

namespace SequencedState
variable {U : Upstream}

/-- The cut of one registered order, as its leaf holds it now. -/
def captureOrder (state : SequencedState U) (engineId : Nat) (record : RestingRecord) : Option RestingOrderCapture :=
  match state.underlyingBook.resolveLeafRead record.symbol with
  | none => none
  | some (_, leaf) =>
    match U.getOrder leaf engineId with
    | none => none
    | some order =>
      if u64Max < order.price then none
      else some ⟨record.symbol, record.venueOrderId, record.account, record.owner, engineId, order.side,
        order.price, order.visibleQuantity, order.timeInForce⟩

/-- The statuses of the leaves of one strike that are not active; a leaf whose symbol does not parse is
skipped. -/
def captureStrikeStatuses (underlying : String) (entry : (String × Nat) × StrikeBook U) :
    List InstrumentStatusCapture :=
  [OptionStyle.call, .put].filterMap fun style =>
    let symbol := U.toSymbol ⟨underlying, entry.1.1, entry.1.2, style⟩
    if U.status (entry.2.leaf style) = .active then none
    else if (U.parse symbol).isOk then some ⟨symbol, U.status (entry.2.leaf style)⟩ else none

def captureInstrumentStatuses (state : SequencedState U) : List InstrumentStatusCapture :=
  sortByKey InstrumentStatusCapture.symbol
    (state.underlyingBook.strikes.toList.flatMap (captureStrikeStatuses state.underlyingBook.underlying))

/-- Engine ids are unique, so the sort makes the cut independent of the map's iteration order. -/
def captureState (state : SequencedState U) : ExecutorState where
  restingOrders := sortByKey RestingOrderCapture.engineSeq
    (state.registry.resting.toList.filterMap fun entry => state.captureOrder entry.1 entry.2)
  idempotency := IdempotencyMap.capture state.idempotency
  instrumentStatuses := state.captureInstrumentStatuses

def quoted (text : String) : String := "'" ++ text ++ "'"

/-- Every captured order must parse and belong to the underlying. -/
def validateResting (U : Upstream) (expected : String) : List RestingOrderCapture → Except SnapshotError Unit
  | [] => .ok ()
  | capture :: rest =>
    match U.parse capture.symbol with
    | .error error =>
      .error (.rebuildFailed ("unparseable symbol " ++ quoted capture.symbol ++ ": " ++ error))
    | .ok parsed =>
      if parsed.underlying ≠ expected then
        .error (.rebuildFailed (UnderlyingOrderBook.crossUnderlying capture.symbol expected))
      else validateResting U expected rest

def captureRecord (capture : RestingOrderCapture) : RestingRecord :=
  ⟨capture.symbol, capture.orderId, capture.account, capture.owner, capture.side⟩

/-- The order a capture is re-added as; the trade capture of the leaf is not armed here. -/
def captureLimitOrder (capture : RestingOrderCapture) : LimitOrder :=
  ⟨engineOrderId capture.engineSeq, capture.side, capture.price, capture.quantity, capture.timeInForce,
    capture.owner⟩

def rebuildFrom (state : SequencedState U) : List RestingOrderCapture → Except SnapshotError (SequencedState U)
  | [] => .ok state
  | capture :: rest =>
    match state.underlyingBook.resolveLeafVivify capture.symbol with
    | .error reason =>
      .error (.rebuildFailed ("could not vivify leaf for " ++ quoted capture.symbol ++ ": " ++ reason))
    | .ok (address, book) =>
      match U.addLimitOrder (book.leafAt address) (captureLimitOrder capture) with
      | (.error error, _) =>
        .error (.rebuildFailed ("re-adding restored order " ++ quoted capture.orderId ++ " failed: " ++ error))
      | (.ok _, leaf) =>
        rebuildFrom ({ state with underlyingBook := book }.commitLeaf address
          (state.registry.registerResting (engineOrderId capture.engineSeq) (captureRecord capture)) leaf) rest

/-- The statuses go to the upstream leaves, after every re-add. -/
def applyInstrumentStatuses (state : SequencedState U) :
    List InstrumentStatusCapture → Except SnapshotError (SequencedState U)
  | [] => .ok state
  | capture :: rest =>
    match state.underlyingBook.resolveLeafVivify capture.symbol with
    | .error reason =>
      .error (.rebuildFailed
        ("could not vivify leaf for status restore " ++ quoted capture.symbol ++ ": " ++ reason))
    | .ok (address, book) =>
      match U.setStatus (book.leafAt address) capture.status with
      | (.error error, _) =>
        .error (.rebuildFailed ("restoring instrument status " ++ U.displayStatus capture.status ++ " for " ++
          quoted capture.symbol ++ " failed: " ++ error))
      | (.ok (), leaf) => 
        applyInstrumentStatuses ({ state with underlyingBook := book }.commitLeaf address state.registry leaf) rest

/-- The cut a detached executor starts from: a bare book of the underlying. -/
def prepareRestore (U : Upstream) (expected : String) (cut : ExecutorState) :
    Except SnapshotError (SequencedState U) :=
  match validateResting U expected cut.restingOrders with
  | .error error => .error error
  | .ok () =>
    match rebuildFrom (SequencedState.new expected)
        (sortByKey RestingOrderCapture.engineSeq cut.restingOrders) with
    | .error error => .error error
    | .ok rebuilt =>
      applyInstrumentStatuses { rebuilt with idempotency := IdempotencyMap.fromRecords cut.idempotency }
        cut.instrumentStatuses

end SequencedState

namespace MatchingExecutor
variable {U : Upstream}

def captureState (executor : MatchingExecutor U) : ExecutorState := executor.state.captureState

/-- The detached executor is a new one: it has no control sink and its own hash order. -/
def prepareRestore (executor : MatchingExecutor U) (hashOrder : VisitOrder) (cut : ExecutorState) :
    Except SnapshotError (MatchingExecutor U) :=
  match SequencedState.prepareRestore U executor.state.underlyingBook.underlying cut with
  | .error error => .error error
  | .ok state =>
    .ok { (new executor.state.underlyingBook.underlying hashOrder : MatchingExecutor U) with state := state }

/-- The whole executor is replaced. -/
def commitRestore (_executor prepared : MatchingExecutor U) : MatchingExecutor U := prepared

end MatchingExecutor

def executionsForeign (underlying : String) (captures : List ExecutionCapture) : Nat :=
  captures.countP fun capture => !executionLegBelongs capture.record underlying

def InMemoryExecutionsStore.validateRestore (underlying : String) (captures : List ExecutionCapture) :
    Except SnapshotError Unit :=
  if 0 < executionsForeign underlying captures then
    .error (.rebuildFailed ("executions restore cut for " ++ underlying ++ " carries " ++
      toString (executionsForeign underlying captures) ++ " leg(s) for another underlying"))
  else .ok ()

def positionsForeign (underlying : String) (captures : List PositionCapture) : Nat :=
  captures.countP fun capture => !positionFoldBelongs capture.underlying underlying

def InMemoryPositionsStore.validateRestore (underlying : String) (captures : List PositionCapture) :
    Except SnapshotError Unit :=
  if 0 < positionsForeign underlying captures then
    .error (.rebuildFailed ("positions restore cut for " ++ underlying ++ " carries " ++
      toString (positionsForeign underlying captures) ++ " fold(s) for another underlying"))
  else .ok ()

namespace UnderlyingActor
variable {J : Type} [VenueJournal J] {U : Upstream}

/-- The consistent cut of the four stores at a clock reading. -/
def capture (actor : UnderlyingActor J (MatchingExecutor U) (StoreFanOut U)) (now : Nat)
    (snapshotId configFingerprint : String) : VenueSnapshot where
  metadata := .new snapshotId now actor.lineageId configFingerprint
  executor := actor.executor.captureState
  executions := actor.fanOut.executions.captureFor actor.underlying
  positions := actor.fanOut.positions.captureFor actor.underlying

def sealedError : SealReason → SnapshotError
  | .sequenceExhausted => .sequenceExhausted
  | .journalUnavailable | .projectionFailed => .journalUnavailable

/-- `u64::checked_add(1)` on the epoch. -/
def nextEpoch (epoch : Nat) : Except SnapshotError Nat :=
  if epoch < u64Max then .ok (epoch + 1) else .error .sequenceExhausted

/-- The fallible preparation, before anything is journaled or swapped: the prepared executor, the new epoch
and the sequence to continue from. -/
def prepareRestore (actor : UnderlyingActor J (MatchingExecutor U) (StoreFanOut U)) (hashOrder : VisitOrder)
    (snapshot : VenueSnapshot) (configFingerprint : String) :
    Except SnapshotError (MatchingExecutor U × Nat × Nat) := do
  snapshot.metadata.validateAgainst actor.lineageId configFingerprint
  match actor.sealed with
  | some reason => throw (sealedError reason)
  | none => pure ()
  let newEpoch ← nextEpoch actor.epoch
  let nextSequence ← match checkedNext actor.nextSequence with
    | some next => pure next
    | none => throw .sequenceExhausted
  let prepared ← actor.executor.prepareRestore hashOrder snapshot.executor
  InMemoryExecutionsStore.validateRestore actor.underlying snapshot.executions
  InMemoryPositionsStore.validateRestore actor.underlying snapshot.positions
  return (prepared, newEpoch, nextSequence)

def marker (actor : UnderlyingActor J (MatchingExecutor U) (StoreFanOut U)) (venueTs : Nat)
    (snapshot : VenueSnapshot) (epoch : Nat) : JournalRecord :=
  .epoch (.new actor.nextSequence venueTs snapshot.metadata.snapshotId epoch actor.lineageId)

/-- The swap of the four stores; it cannot fail. -/
def commitRestore (actor : UnderlyingActor J (MatchingExecutor U) (StoreFanOut U))
    (prepared : MatchingExecutor U × Nat × Nat) (snapshot : VenueSnapshot) :
    UnderlyingActor J (MatchingExecutor U) (StoreFanOut U) :=
  { actor with
    executor := actor.executor.commitRestore prepared.1
    fanOut := { actor.fanOut with
      executions := actor.fanOut.executions.restoreFor actor.underlying snapshot.executions
      positions := actor.fanOut.positions.restoreFor actor.underlying snapshot.positions }
    epoch := prepared.2.1
    nextSequence := prepared.2.2 }

/-- Prepare, append the epoch marker, commit. The answer of the append is not read back. -/
def restore (actor : UnderlyingActor J (MatchingExecutor U) (StoreFanOut U)) (hashOrder : VisitOrder)
    (venueTs : Nat) (snapshot : VenueSnapshot) (configFingerprint : String) :
    Except SnapshotError Receipt × UnderlyingActor J (MatchingExecutor U) (StoreFanOut U) :=
  match actor.prepareRestore hashOrder snapshot configFingerprint with
  | .error error => (.error error, actor)
  | .ok prepared =>
    match VenueJournal.append actor.journal (actor.marker venueTs snapshot prepared.2.1) with
    | (.error _, journal) => (.error .journalUnavailable, { actor with journal := journal })
    | (.ok (), journal) =>
      (.ok (Receipt.control actor.nextSequence venueTs),
        { actor with journal := journal }.commitRestore prepared snapshot)

end UnderlyingActor

end Fauxchange.Exchange
