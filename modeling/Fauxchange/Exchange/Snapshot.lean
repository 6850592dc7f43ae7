import Fauxchange.Exchange.Upstream
import Fauxchange.Lib.LastWrite

/-! The snapshot data: the client-order-id idempotency map, the captures of the executor's stores and the
metadata a restore is validated against. -/

namespace Fauxchange.Exchange
open Lib

inductive SnapshotError where
  | metadataMismatch (detail : String)
  | rebuildFailed (detail : String)
  | journalUnavailable
  | sequenceExhausted
  deriving DecidableEq, Repr

structure SnapshotMetadata where
  snapshotId : String
  createdAt : Nat
  schemaVersion : String
  lineageId : LineageId
  configFingerprint : String
  deriving DecidableEq, Repr

namespace SnapshotMetadata

def new (snapshotId : String) (createdAt : Nat) (lineageId : LineageId) (configFingerprint : String) :
    SnapshotMetadata :=
  ⟨snapshotId, createdAt, venueEnvelopeSchema, lineageId, configFingerprint⟩

def validateAgainst (metadata : SnapshotMetadata) (runningLineage : LineageId)
    (runningConfigFingerprint : String) : Except SnapshotError Unit :=
  if metadata.schemaVersion ≠ venueEnvelopeSchema then
    .error (.metadataMismatch
      ("schema " ++ metadata.schemaVersion ++ " is not the running " ++ venueEnvelopeSchema))
  else if metadata.lineageId ≠ runningLineage then
    .error (.metadataMismatch "snapshot lineage does not match the running venue")
  else if metadata.configFingerprint ≠ runningConfigFingerprint then
    .error (.metadataMismatch "snapshot config fingerprint does not match the running venue")
  else .ok ()

end SnapshotMetadata

structure IdempotencyFingerprint where
  symbol : Symbol
  side : Side
  orderType : OrderType
  limitPrice : Option Nat
  quantity : Nat
  timeInForce : TimeInForce
  deriving DecidableEq, Repr

structure IdempotencyEntry where
  fingerprint : IdempotencyFingerprint
  orderId : VenueOrderId
  sequence : Nat
  terminal : VenueOutcome
  deriving DecidableEq, Repr

structure IdempotencyRecord where
  account : AccountId
  clientOrderId : ClientOrderId
  entry : IdempotencyEntry
  deriving DecidableEq, Repr

abbrev IdempotencyMap := PairMap AccountId ClientOrderId IdempotencyEntry

namespace IdempotencyMap

/-- The records sorted by account and client order id. Keys are unique, so the iteration order of the
source's map does not matter. -/
def capture (map : IdempotencyMap) : List IdempotencyRecord :=
  map.toList.map fun (key, entry) => ⟨key.1, key.2, entry⟩

def fromRecords (records : List IdempotencyRecord) : IdempotencyMap :=
  writeAll (fun record : IdempotencyRecord => (record.account, record.clientOrderId)) IdempotencyRecord.entry ∅ records

end IdempotencyMap

structure RestingOrderCapture where
  symbol : Symbol
  orderId : VenueOrderId
  account : AccountId
  owner : Hash32
  engineSeq : Nat
  side : Side
  price : Nat
  quantity : Nat
  timeInForce : TimeInForce
  deriving DecidableEq, Repr

structure InstrumentStatusCapture where
  symbol : Symbol
  status : InstrumentStatus
  deriving DecidableEq, Repr

/-- The executor's contribution to a consistent cut. -/
structure ExecutorState where
  restingOrders : List RestingOrderCapture
  idempotency : List IdempotencyRecord
  instrumentStatuses : List InstrumentStatusCapture
  deriving DecidableEq, Repr

end Fauxchange.Exchange
