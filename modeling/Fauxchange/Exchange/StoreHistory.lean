import Fauxchange.Exchange.StoreRestore
import Fauxchange.Lib.GuardedRuns
import Fauxchange.Lib.KeyedEntries

/-! The two stores in the hands of all the underlyings that share them: legs are recorded and folded, slices are
captured, and a slice captured at any time before is restored. The abstract recorder keeps one log for each
underlying and puts back a copy of it. -/

namespace Fauxchange.Exchange
open Lib

inductive ExecutionsCall where
  | record (leg : ExecutionRecord)
  | capture (underlying : String)
  | restore (cut : Nat)
  deriving DecidableEq, Repr

inductive PositionsCall where
  | apply (leg : PositionLeg)
  | capture (underlying : String)
  | restore (cut : Nat)
  deriving DecidableEq, Repr

inductive StoreCall where
  | executions (call : ExecutionsCall)
  | positions (call : PositionsCall)
  deriving DecidableEq, Repr

/-- The log and what has been captured from it so far, each cut with its underlying. -/
structure ExecutionsHistory where
  store : InMemoryExecutionsStore
  cuts : List (String × List ExecutionCapture)

structure PositionsHistory where
  store : InMemoryPositionsStore
  cuts : List (String × List PositionCapture)

def ExecutionsHistory.step (history : ExecutionsHistory) : ExecutionsCall → Option ExecutionsHistory
  | .record leg => some { history with store := history.store.record leg }
  | .capture underlying =>
    some { history with cuts := history.cuts ++ [(underlying, history.store.captureFor underlying)] }
  | .restore cut =>
    (history.cuts[cut]?).map fun taken => { history with store := history.store.restoreFor taken.1 taken.2 }

def PositionsHistory.step (history : PositionsHistory) : PositionsCall → Option PositionsHistory
  | .apply leg => some { history with store := (history.store.apply leg).2 }
  | .capture underlying =>
    some { history with cuts := history.cuts ++ [(underlying, history.store.captureFor underlying)] }
  | .restore cut =>
    (history.cuts[cut]?).map fun taken => { history with store := history.store.restoreFor taken.1 taken.2 }

structure StoreHistory where
  executions : ExecutionsHistory
  positions : PositionsHistory

def StoreHistory.new : StoreHistory := ⟨⟨.new, []⟩, ⟨.new, []⟩⟩

def StoreHistory.step (history : StoreHistory) : StoreCall → Option StoreHistory
  | .executions call => (history.executions.step call).map fun executions => { history with executions }
  | .positions call => (history.positions.step call).map fun positions => { history with positions }

/-- The legs that a run records. -/
def recordedLegs (calls : List StoreCall) : List ExecutionRecord :=
  calls.filterMap fun
    | .executions (.record leg) => some leg
    | _ => none

/-- The legs that a run folds. -/
def appliedLegs (calls : List StoreCall) : List PositionLeg :=
  calls.filterMap fun
    | .positions (.apply leg) => some leg
    | _ => none

/-- No key belongs to two underlyings. -/
def DisjointKeys (legs : List ExecutionRecord) : Prop :=
  ∀ leg ∈ legs, ∀ other ∈ legs, leg.key = other.key → leg.symbol = other.symbol

/-- No contract belongs to two underlyings. -/
def DisjointContracts (legs : List PositionLeg) : Prop :=
  ∀ leg ∈ legs, ∀ other ∈ legs, (leg.account, leg.symbol) = (other.account, other.symbol) →
    leg.underlying = other.underlying

instance DisjointKeys.decidable (legs : List ExecutionRecord) : Decidable (DisjointKeys legs) := by
  unfold DisjointKeys
  infer_instance

instance DisjointContracts.decidable (legs : List PositionLeg) : Decidable (DisjointContracts legs) := by
  unfold DisjointContracts
  infer_instance

/-- The abstract recorder: a log for each underlying, in the order in which its legs were first recorded. -/
structure RecordedLogs where
  logs : String → List ExecutionRecord
  cuts : List (String × List ExecutionRecord)

namespace RecordedLogs

def new : RecordedLogs := ⟨fun _ => [], []⟩

def step (recorder : RecordedLogs) : StoreCall → RecordedLogs
  | .executions (.record leg) =>
    { recorder with
      logs := Function.update recorder.logs leg.symbol (upsert ExecutionRecord.key (recorder.logs leg.symbol) leg) }
  | .executions (.capture underlying) =>
    { recorder with cuts := recorder.cuts ++ [(underlying, recorder.logs underlying)] }
  | .executions (.restore cut) =>
    match recorder.cuts[cut]? with
    | some taken => { recorder with logs := Function.update recorder.logs taken.1 taken.2 }
    | none => recorder
  | .positions _ => recorder

def after (calls : List StoreCall) : RecordedLogs := calls.foldl step new

end RecordedLogs

/-- What the sharing underlyings rely on. -/
structure StoreHistory.Isolated (history : StoreHistory) (logs : String → List ExecutionRecord) : Prop where
  distinct : ∀ (key other : ExecutionId × Bool) (stored second : StoredExecution),
    history.executions.store.records[key]? = some stored → history.executions.store.records[other]? = some second →
      stored.ord = second.ord → key = other
  below : ∀ (key : ExecutionId × Bool) (stored : StoredExecution),
    history.executions.store.records[key]? = some stored → stored.ord < history.executions.store.nextOrd
  /-- An account's executions in one underlying, and those of each underlying in the list of all. -/
  listed : ∀ account underlying limit, history.executions.store.list account ⟨some underlying, limit⟩ =
    limit.elim id List.take ((logs underlying).filter fun leg => leg.account = account)
  listedAmong : ∀ account underlying,
    ((history.executions.store.list account ⟨none, none⟩).filter fun leg => leg.symbol = underlying) =
      (logs underlying).filter fun leg => leg.account = account
  executions : ∀ taken ∈ history.executions.cuts,
    (history.executions.store.restoreFor taken.1 taken.2).captureFor taken.1 = taken.2 ∧
      ∀ other, other ≠ taken.1 → (history.executions.store.restoreFor taken.1 taken.2).slice other =
        history.executions.store.slice other
  positions : ∀ taken ∈ history.positions.cuts,
    (history.positions.store.restoreFor taken.1 taken.2).captureFor taken.1 = taken.2 ∧
      ∀ other, other ≠ taken.1 → (history.positions.store.restoreFor taken.1 taken.2).slice other =
        history.positions.store.slice other

end Fauxchange.Exchange
