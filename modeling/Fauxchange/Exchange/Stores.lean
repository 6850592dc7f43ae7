import Fauxchange.Exchange.Actor
import Fauxchange.Exchange.Upstream
import Fauxchange.Lib.LastWrite
import Fauxchange.Lib.VisitOrder

/-! The executions log and the positions fold: two projections of the committed events, shared by the actors
of all underlyings, and the fan-out that feeds them. The marks are live-only and stay outside. -/

namespace Fauxchange.Exchange
open Lib

inductive StoreError where
  | arithmetic
  | backend (detail : String)
  deriving DecidableEq, Repr

def StoreError.display : StoreError → String
  | .arithmetic => "store arithmetic overflow in the position fold"
  | .backend detail => "store backend failure: " ++ detail

structure ExecutionRecord where
  executionId : ExecutionId
  orderId : VenueOrderId
  account : AccountId
  symbol : String
  instrument : Symbol
  side : Side
  liquidity : LiquidityFlag
  quantity : Nat
  priceCents : Nat
  feeCents : Int
  theoValueCents : Nat
  edgeCents : Int
  underlyingSequence : Nat
  latencyUs : Nat
  executedAt : Nat
  deriving DecidableEq, Repr

structure ExecutionCapture where
  ord : Nat
  record : ExecutionRecord
  deriving DecidableEq, Repr

structure PositionCapture where
  account : AccountId
  symbol : Symbol
  underlying : String
  netQuantity : Int
  basis : Int
  cashExFee : Int
  fees : Int
  deriving DecidableEq, Repr

/-- Whether a leg is the maker's; it orders the two legs of a match. -/
def LiquidityFlag.isMaker : LiquidityFlag → Bool
  | .maker => true
  | .taker => false

theorem LiquidityFlag.isMaker_injective : Function.Injective LiquidityFlag.isMaker := by
  intro first second
  cases first <;> cases second <;> simp [LiquidityFlag.isMaker]

/-- One stored leg; `ord` is its place in the order of insertion. -/
structure StoredExecution where
  ord : Nat
  record : ExecutionRecord
  deriving DecidableEq, Repr

/-- The `(execution_id, liquidity)` key of a leg. -/
def ExecutionRecord.key (record : ExecutionRecord) : ExecutionId × Bool :=
  (record.executionId, record.liquidity.isMaker)

def executionLegBelongs (record : ExecutionRecord) (underlying : String) : Bool := record.symbol = underlying

structure ExecutionFilter where
  underlying : Option String
  limit : Option Nat
  deriving DecidableEq, Repr

structure InMemoryExecutionsStore where
  records : PairMap ExecutionId Bool StoredExecution
  nextOrd : Nat

namespace InMemoryExecutionsStore

def new : InMemoryExecutionsStore := ⟨∅, 0⟩

def stored (store : InMemoryExecutionsStore) : List StoredExecution := store.records.toList.map Prod.snd

/-- The legs of one underlying in the order of insertion; the orders are unique in a store that `record` has
filled, so the iteration order of the source's map does not matter. -/
def captureFor (store : InMemoryExecutionsStore) (underlying : String) : List ExecutionCapture :=
  sortByKey ExecutionCapture.ord
    ((store.stored.filter fun stored => executionLegBelongs stored.record underlying).map
      fun stored => ⟨stored.ord, stored.record⟩)

/-- Only the underlying's legs are replaced, and a foreign capture is skipped. -/
def restoreFor (store : InMemoryExecutionsStore) (underlying : String) (captures : List ExecutionCapture) :
    InMemoryExecutionsStore :=
  let own := captures.filter fun capture => executionLegBelongs capture.record underlying
  let maxOrd := (own.map ExecutionCapture.ord).foldl max 0
  { records := writeAll (fun capture : ExecutionCapture => capture.record.key)
      (fun capture => ⟨capture.ord, capture.record⟩)
      (store.records.filter fun _ stored => !executionLegBelongs stored.record underlying) own
    nextOrd := if maxOrd < u64Max then max store.nextOrd (maxOrd + 1) else store.nextOrd }

/-- A leg recorded again keeps its place. The counter is an atomic `u64`: it wraps. -/
def record (store : InMemoryExecutionsStore) (leg : ExecutionRecord) : InMemoryExecutionsStore :=
  match store.records[leg.key]? with
  | some existing => { store with records := store.records.insert leg.key ⟨existing.ord, leg⟩ }
  | none => ⟨store.records.insert leg.key ⟨store.nextOrd, leg⟩, (store.nextOrd + 1) % 2 ^ 64⟩

/-- The taker leg comes first. -/
def get (store : InMemoryExecutionsStore) (executionId : ExecutionId) (account : AccountId) :
    Option ExecutionRecord :=
  [LiquidityFlag.taker, .maker].findSome? fun liquidity =>
    match store.records[(executionId, liquidity.isMaker)]? with
    | some stored => if stored.record.account = account then some stored.record else none
    | none => none

def list (store : InMemoryExecutionsStore) (account : AccountId) (query : ExecutionFilter) :
    List ExecutionRecord :=
  let matched := store.stored.filter fun stored =>
    stored.record.account = account ∧ query.underlying.all (stored.record.symbol = ·)
  let listed := (sortByKey StoredExecution.ord matched).map StoredExecution.record
  match query.limit with
  | some limit => listed.take limit
  | none => listed

end InMemoryExecutionsStore

def checkedI64 (value : Int) : Except StoreError Int :=
  if value < -2 ^ 63 ∨ 2 ^ 63 ≤ value then .error .arithmetic else .ok value

def checkedI128 (value : Int) : Except StoreError Int :=
  if value < -2 ^ 127 ∨ 2 ^ 127 ≤ value then .error .arithmetic else .ok value

/-- The fold of one account's legs in one contract. -/
structure PositionState where
  underlying : String
  netQuantity : Int
  basis : Int
  cashExFee : Int
  fees : Int
  deriving DecidableEq, Repr

structure Position where
  account : AccountId
  symbol : Symbol
  underlying : String
  netQuantity : Int
  avgPrice : Nat
  currentPrice : Option Nat
  realizedPnl : Int
  unrealizedPnl : Option Int
  deltaExposure : Rat
  deriving DecidableEq, Repr

namespace PositionState

def new (underlying : String) : PositionState := ⟨underlying, 0, 0, 0, 0⟩

/-- The basis and the net quantity take one leg of signed quantity `dq`. A failing check leaves the writes
before it in place. -/
def foldBasis (state : PositionState) (dq dqp : Int) (price : Nat) : Except StoreError Unit × PositionState :=
  let net := state.netQuantity
  if net = 0 ∨ (0 < net ↔ 0 < dq) then
    -- opening or adding in the same direction
    match checkedI128 (state.basis + dqp) with
    | .error error => (.error error, state)
    | .ok basis =>
      match checkedI64 (net + dq) with
      | .error error => (.error error, { state with basis := basis })
      | .ok quantity => (.ok (), { state with basis := basis, netQuantity := quantity })
  else if dq.natAbs ≤ net.natAbs then
    -- reducing: the proportional cost leaves
    match checkedI128 (state.basis * dq.natAbs) with
    | .error error => (.error error, state)
    | .ok product =>
      match checkedI128 (state.basis - product.tdiv net.natAbs) with
      | .error error => (.error error, state)
      | .ok basis =>
        match checkedI64 (net + dq) with
        | .error error => (.error error, { state with basis := basis })
        | .ok quantity =>
          (.ok (), { state with basis := if quantity = 0 then 0 else basis, netQuantity := quantity })
  else
    -- flipping: the remainder opens at the price
    match checkedI64 (net + dq) with
    | .error error => (.error error, state)
    | .ok quantity =>
      match checkedI128 (quantity * price) with
      | .error error => (.error error, { state with netQuantity := quantity })
      | .ok basis => (.ok (), { state with basis := basis, netQuantity := quantity })

def fold (state : PositionState) (side : Side) (quantity price : Nat) (fee : Int) :
    Except StoreError Unit × PositionState :=
  match checkedI64 quantity with
  | .error error => (.error error, state)
  | .ok quantity =>
    let dq := match side with
      | .buy => quantity
      | .sell => -quantity
    match checkedI128 (dq * price) with
    | .error error => (.error error, state)
    | .ok dqp =>
      match checkedI128 (state.fees + fee) with
      | .error error => (.error error, state)
      | .ok fees =>
        let state := { state with fees := fees }
        match checkedI128 (state.cashExFee - dqp) with
        | .error error => (.error error, state)
        | .ok cash => { state with cashExFee := cash }.foldBasis dq dqp price

def toCapture (state : PositionState) (account : AccountId) (symbol : Symbol) : PositionCapture :=
  ⟨account, symbol, state.underlying, state.netQuantity, state.basis, state.cashExFee, state.fees⟩

def fromCapture (capture : PositionCapture) : PositionState :=
  ⟨capture.underlying, capture.netQuantity, capture.basis, capture.cashExFee, capture.fees⟩

def unrealized (state : PositionState) (mark : Nat) : Except StoreError Int := do
  let value ← checkedI128 (state.netQuantity * mark)
  let gain ← checkedI128 (value - state.basis)
  checkedI64 gain

def avgPrice (state : PositionState) : Except StoreError Nat :=
  if state.netQuantity = 0 then .ok 0
  else
    let magnitude := state.basis.natAbs / state.netQuantity.natAbs
    if magnitude ≤ u64Max then .ok magnitude else .error .arithmetic

def project (state : PositionState) (account : AccountId) (symbol : Symbol) (mark : Option Nat) :
    Except StoreError Position := do
  let avgPrice ← state.avgPrice
  let netCash ← checkedI128 (state.cashExFee - state.fees)
  let realized ← checkedI128 (netCash + state.basis)
  let realizedPnl ← checkedI64 realized
  match mark with
  | none =>
    return ⟨account, symbol, state.underlying, state.netQuantity, avgPrice, none, realizedPnl, none, 0⟩
  | some mark =>
    let unrealizedPnl ← state.unrealized mark
    return ⟨account, symbol, state.underlying, state.netQuantity, avgPrice, some mark, realizedPnl,
      some unrealizedPnl, 0⟩

end PositionState

/-- One fill leg as the positions fold takes it. -/
structure PositionLeg where
  account : AccountId
  symbol : Symbol
  underlying : String
  side : Side
  quantity : Nat
  price : Nat
  fee : Int
  deriving DecidableEq, Repr

def positionFoldBelongs (foldUnderlying underlying : String) : Bool := foldUnderlying = underlying

structure InMemoryPositionsStore where
  positions : PairMap AccountId Symbol PositionState

namespace InMemoryPositionsStore

def new : InMemoryPositionsStore := ⟨∅⟩

/-- The folds of one underlying, sorted by account and symbol: the order of the map's keys. -/
def captureFor (store : InMemoryPositionsStore) (underlying : String) : List PositionCapture :=
  (store.positions.toList.filter fun entry => positionFoldBelongs entry.2.underlying underlying).map
    fun entry => entry.2.toCapture entry.1.1 entry.1.2

def restoreFor (store : InMemoryPositionsStore) (underlying : String) (captures : List PositionCapture) :
    InMemoryPositionsStore :=
  ⟨writeAll (fun capture : PositionCapture => (capture.account, capture.symbol)) PositionState.fromCapture
    (store.positions.filter fun _ state => !positionFoldBelongs state.underlying underlying)
    (captures.filter fun capture => positionFoldBelongs capture.underlying underlying)⟩

/-- A failing fold leaves its entry behind. -/
def apply (store : InMemoryPositionsStore) (leg : PositionLeg) : Except StoreError Unit × InMemoryPositionsStore :=
  let state := (store.positions[(leg.account, leg.symbol)]?).getD (.new leg.underlying)
  let folded := state.fold leg.side leg.quantity leg.price leg.fee
  (folded.1, ⟨store.positions.insert (leg.account, leg.symbol) folded.2⟩)

def get (store : InMemoryPositionsStore) (account : AccountId) (symbol : Symbol) (mark : Option Nat) :
    Except StoreError (Option Position) :=
  match store.positions[(account, symbol)]? with
  | some state => (state.project account symbol mark).map some
  | none => .ok none

/-- The positions of an account in the order of their symbols. -/
def list (store : InMemoryPositionsStore) (account : AccountId) (marks : Symbol → Option Nat) :
    Except StoreError (List Position) :=
  (store.positions.toList.filter fun entry => entry.1.1 = account).mapM fun entry =>
    entry.2.project account entry.1.2 (marks entry.1.2)

end InMemoryPositionsStore

def commandSymbol : VenueCommand → Option Symbol
  | .addOrder order => some order.symbol
  | .replace order => some order.symbol
  | _ => none

def outcomeFills : VenueOutcome → List Fill
  | .added fills .. | .market fills .. => fills
  | .replace _ (.filled fills _) | .replace _ (.rested fills ..) => fills
  | _ => []

def underlyingOf (U : Upstream) (symbol : Symbol) : Option String :=
  (U.parse symbol).toOption.map ParsedSymbol.underlying

/-- The negated fee; `i64::MIN` has no negation and counts as zero. -/
def netOfFeeEdge (fill : Fill) : Int := if fill.fee = -2 ^ 63 then 0 else -fill.fee

def projectExecution (event : VenueEvent) (symbol : Symbol) (underlying : String) (fill : Fill) : ExecutionRecord where
  executionId := fill.executionId
  orderId := fill.orderId
  account := fill.account
  symbol := underlying
  instrument := symbol
  side := fill.side
  liquidity := fill.liquidity
  quantity := fill.quantity
  priceCents := fill.price
  feeCents := fill.fee
  theoValueCents := fill.price
  edgeCents := netOfFeeEdge fill
  underlyingSequence := event.underlyingSequence
  latencyUs := 0
  executedAt := event.venueTs

/-- The fan-out into the two stores. It seals on the first projection that fails. -/
structure StoreFanOut (U : Upstream) where
  executions : InMemoryExecutionsStore
  positions : InMemoryPositionsStore
  sealed : Bool

namespace StoreFanOut
variable {U : Upstream}

def new (U : Upstream) : StoreFanOut U := ⟨.new, .new, false⟩

def positionLeg (symbol : Symbol) (underlying : String) (fill : Fill) : PositionLeg :=
  ⟨fill.account, symbol, underlying, fill.side, fill.quantity, fill.price, fill.fee⟩

/-- The legs of one event, each into both stores, up to the first failure. -/
def projectLegs (event : VenueEvent) (symbol : Symbol) (underlying : String) (fanOut : StoreFanOut U) :
    List Fill → Except FanOutSealed Unit × StoreFanOut U
  | [] => (.ok (), fanOut)
  | fill :: rest =>
    let executions := fanOut.executions.record (projectExecution event symbol underlying fill)
    match fanOut.positions.apply (positionLeg symbol underlying fill) with
    | (.error error, positions) => (.error ⟨"positions", error.display⟩, ⟨executions, positions, true⟩)
    | (.ok (), positions) => projectLegs event symbol underlying { fanOut with executions, positions } rest

def emit (fanOut : StoreFanOut U) (event : VenueEvent) : Except FanOutSealed Unit × StoreFanOut U :=
  if fanOut.sealed then
    (.error ⟨"store", "fan-out already sealed by a prior projection failure"⟩, fanOut)
  else
    match commandSymbol event.command with
    | none => (.ok (), fanOut)
    | some symbol =>
      if (outcomeFills event.outcome).isEmpty then (.ok (), fanOut)
      else
        match underlyingOf U symbol with
        | none => (.ok (), fanOut)
        | some underlying => projectLegs event symbol underlying fanOut (outcomeFills event.outcome)

instance : FanOut (StoreFanOut U) where
  emit := emit

end StoreFanOut

end Fauxchange.Exchange
