import Mathlib.Algebra.GroupWithZero.Nat
import Mathlib.Algebra.Ring.Int.Defs
import Mathlib.Data.Rat.Defs

/-! The `venue.v1` envelope: the boundary newtypes, the write-ahead command and the captured outcome.
Prices (`Cents`), sequence numbers, venue timestamps and engine order ids (always
`OrderId::sequential`) are `Nat`, with the 64-bit width checked where the source checks it. -/

namespace Fauxchange.Exchange

abbrev Symbol := String
abbrev VenueOrderId := String
abbrev AccountId := String
abbrev ClientOrderId := String
abbrev ExecutionId := String

/-- An owner hash, `Hash32([u8; 32])` upstream. -/
abbrev Hash32 := BitVec 256

def u64Max : Nat := 2 ^ 64 - 1

/-- `SequenceNumber::checked_next`: the successor, or nothing past `u64::MAX`. -/
def checkedNext (sequence : Nat) : Option Nat :=
  if sequence < u64Max then some (sequence + 1) else none

inductive Side where
  | buy
  | sell
  deriving DecidableEq, Repr

inductive TimeInForce where
  | gtc
  | ioc
  | fok
  | gtd (deadline : Nat)
  | day
  deriving DecidableEq, Repr

inductive STPMode where
  | none
  | cancelTaker
  | cancelMaker
  | cancelBoth
  deriving DecidableEq, Repr

inductive OrderType where
  | limit
  | market
  deriving DecidableEq, Repr

inductive LiquidityFlag where
  | maker
  | taker
  deriving DecidableEq, Repr

inductive OptionStyle where
  | call
  | put
  deriving DecidableEq, Repr

/-- Upstream's lifecycle states. -/
inductive InstrumentStatus where
  | pending
  | active
  | halted
  | settling
  | expired
  deriving DecidableEq, Repr

/-- Upstream's expiry: a relative day count or an absolute instant in milliseconds. -/
inductive ExpirationDate where
  | days (count : Rat)
  | dateTime (millis : Int)
  deriving DecidableEq, Repr

inductive MassCancelScope where
  | underlying
  | expiration (expiry : ExpirationDate)
  | strike (expiry : ExpirationDate) (strike : Nat)
  | book (symbol : Symbol)
  deriving DecidableEq, Repr

inductive MassCancelType where
  | all
  | bySide (side : Side)
  | byUser (owner : Hash32)
  deriving DecidableEq, Repr

inductive CancelReason where
  | massCancel
  | selfTradePrevention
  | timeInForceExpiry
  | replace
  deriving DecidableEq, Repr

/-- One leg of a match; the two legs share their `executionId`. -/
structure Fill where
  executionId : ExecutionId
  orderId : VenueOrderId
  account : AccountId
  owner : Hash32
  side : Side
  liquidity : LiquidityFlag
  price : Nat
  quantity : Nat
  fee : Int
  deriving DecidableEq, Repr

structure CancelledLeg where
  orderId : VenueOrderId
  owner : Hash32
  symbol : Symbol
  side : Side
  reason : CancelReason
  deriving DecidableEq, Repr

inductive RejectKind where
  | notFound
  | notOwner
  | notResting
  | instrumentNotActive
  | invalidOrder
  | notFillable
  | internal
  deriving DecidableEq, Repr

inductive AddOutcome where
  | filled (fills : List Fill) (stpCancelled : List CancelledLeg)
  | rested (fills : List Fill) (restingQuantity : Nat) (stpCancelled : List CancelledLeg)
  | rejected (kind : RejectKind) (reason : String)
  deriving DecidableEq, Repr

inductive VenueOutcome where
  | added (fills : List Fill) (restingQuantity : Nat) (stpCancelled : List CancelledLeg)
  | market (fills : List Fill) (unfilledQuantity : Nat) (stpCancelled : List CancelledLeg)
  | cancelled (orderId : VenueOrderId)
  | replace (cancelled : Bool) (add : AddOutcome)
  | massCancelled (affected : List CancelledLeg)
  | instrumentStatusChanged (symbol : Symbol) (status : InstrumentStatus)
  | evicted (evicted : List VenueOrderId)
  | controlApplied (swept : List CancelledLeg)
  | rejected (kind : RejectKind) (reason : String)
  | duplicate (originalOrderId : VenueOrderId) (originalSequence : Nat)
      (terminal : VenueOutcome)
  deriving DecidableEq, Repr

namespace VenueOutcome

/-- The prices and quantities of the aggressor's own legs; a duplicate shows those of its stored terminal. -/
def takerFillLegs : VenueOutcome → List (Nat × Nat)
  | .duplicate _ _ terminal => terminal.takerFillLegs
  | .added fills .. | .market fills .. =>
    (fills.filter fun fill => fill.liquidity = .taker).map fun fill => (fill.price, fill.quantity)
  | _ => []

def terminal : VenueOutcome → VenueOutcome
  | .duplicate _ _ terminal => terminal
  | outcome => outcome

/-- The id and the sequence to render: those of the original placement on a duplicate, the fresh ones otherwise. -/
def renderedIdentity (outcome : VenueOutcome) (freshOrderId : VenueOrderId) (freshSequence : Nat) : VenueOrderId × Nat :=
  match outcome with
  | .duplicate originalOrderId originalSequence _ => (originalOrderId, originalSequence)
  | _ => (freshOrderId, freshSequence)

end VenueOutcome

/-- The `AddOrder` payload. -/
structure AddOrder where
  symbol : Symbol
  orderId : VenueOrderId
  account : AccountId
  owner : Hash32
  clientOrderId : Option ClientOrderId
  side : Side
  orderType : OrderType
  limitPrice : Option Nat
  quantity : Nat
  timeInForce : TimeInForce
  stpMode : STPMode
  deriving DecidableEq, Repr

/-- The `Replace` payload. -/
structure Replace where
  symbol : Symbol
  orderId : VenueOrderId
  newOrderId : VenueOrderId
  account : AccountId
  clientOrderId : Option ClientOrderId
  origClientOrderId : Option ClientOrderId
  side : Side
  limitPrice : Option Nat
  quantity : Nat
  timeInForce : TimeInForce
  stpMode : STPMode
  deriving DecidableEq, Repr

/-- The `MarketMakerControl` payload, also the `MarketMakerControlKnobs` handed to the sink. The
multipliers are finite `f64`s within their serde ranges, kept as rationals. -/
structure MarketMakerControlKnobs where
  spreadMultiplier : Option Rat
  sizeScalar : Option Rat
  directionalSkew : Option Rat
  enabled : Option Bool
  deriving DecidableEq, Repr

inductive VenueCommand where
  | addOrder (order : AddOrder)
  | cancelOrder (symbol : Symbol) (orderId : VenueOrderId) (account : AccountId)
  | replace (order : Replace)
  | massCancel (scope : MassCancelScope) (cancelType : MassCancelType) (account : AccountId)
  | setInstrumentStatus (symbol : Symbol) (status : InstrumentStatus)
  | evictExpiredOrders (nowMs : Nat)
  | marketMakerControl (knobs : MarketMakerControlKnobs)
  | clock (nowMs : Nat)
  | simStep (nowMs : Nat) (underlying : String) (price : Nat)
      (bid ask : Option Nat)
  deriving DecidableEq, Repr

def venueEnvelopeSchema : String := "venue.v1"

structure VenueEvent where
  schema : String
  underlyingSequence : Nat
  venueTs : Nat
  command : VenueCommand
  outcome : VenueOutcome
  deriving DecidableEq, Repr

def VenueEvent.new (sequence : Nat) (venueTs : Nat) (command : VenueCommand)
    (outcome : VenueOutcome) : VenueEvent :=
  ⟨venueEnvelopeSchema, sequence, venueTs, command, outcome⟩

abbrev LineageId := String

/-- The composite id grammar `{lineage}:{underlying}:{sequence}:{index}`. -/
def LineageId.composite (lineage : LineageId) (underlying : String) (sequence : Nat)
    (index : Nat) : String :=
  lineage ++ ":" ++ underlying ++ ":" ++ toString sequence ++ ":" ++ toString index

def LineageId.executionId (lineage : LineageId) (underlying : String) (sequence : Nat)
    (fillIndex : Nat) : ExecutionId :=
  LineageId.composite lineage underlying sequence fillIndex

theorem checkedNext_eq_some {sequence next : Nat} :
    checkedNext sequence = some next ↔ sequence < u64Max ∧ next = sequence + 1 := by
  unfold checkedNext
  split <;> grind

end Fauxchange.Exchange
