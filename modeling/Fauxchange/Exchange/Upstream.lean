import Fauxchange.Exchange.Envelope
import Fauxchange.Lib.PairMap

/-! The seam to the upstream matching stack, which is not part of the repository: its data as the venue
reads them, and its operations as a parameter of the model. -/

namespace Fauxchange.Exchange
open Lib

structure FeeSchedule where
  makerFeeBps : Int
  takerFeeBps : Int
  deriving DecidableEq, Repr

structure ContractSpecs where
  tickSize : Nat
  lotSize : Nat
  minOrderSize : Nat
  maxOrderSize : Nat
  deriving DecidableEq, Repr

/-- What the hierarchy root propagates to every leaf it vivifies. -/
structure BookConfig where
  feeSchedule : Option FeeSchedule
  stpMode : STPMode
  specs : Option ContractSpecs
  deriving DecidableEq, Repr

/-- The configuration of `UnderlyingOrderBook::new`. -/
def BookConfig.bare : BookConfig := ⟨none, .none, none⟩

structure ParsedSymbol where
  underlying : String
  expirationStr : String
  strike : Nat
  optionStyle : OptionStyle
  deriving DecidableEq, Repr

structure Trade where
  makerOrderId : Nat
  makerSide : Side
  takerSide : Side
  price : Nat
  quantity : Nat
  deriving DecidableEq, Repr

structure MatchResult where
  trades : List Trade
  filledOrderIds : List Nat
  deriving DecidableEq, Repr

structure TradeResult where
  matchResult : MatchResult
  engineSeq : Nat
  deriving DecidableEq, Repr

/-- A resting order as the leaf reads it back. -/
structure BookOrder where
  id : Nat
  side : Side
  price : Nat
  visibleQuantity : Nat
  timeInForce : TimeInForce
  owner : Hash32
  deriving DecidableEq, Repr

/-- An order as it is submitted to a leaf. -/
structure LimitOrder where
  id : Nat
  side : Side
  price : Nat
  quantity : Nat
  timeInForce : TimeInForce
  owner : Hash32
  deriving DecidableEq, Repr

/-- Whether an order passes the specs of a book, if it has any. -/
def withinSpecs (specs : Option ContractSpecs) (price quantity : Nat) : Bool :=
  match specs with
  | none => true
  | some specs =>
    price % specs.tickSize = 0 ∧ quantity % specs.lotSize = 0 ∧ specs.minOrderSize ≤ quantity ∧
      quantity ≤ specs.maxOrderSize

/-- The upstream crates: the leaf order book, the symbol grammar, the lifecycle rules and the fees. -/
structure Upstream where
  Leaf : Type
  new : BookConfig → Leaf
  stpMode : Leaf → STPMode
  feeSchedule : Leaf → Option FeeSchedule
  armTradeCapture : Leaf → Leaf
  lastTradeResult : Leaf → Option TradeResult
  ordersByUser : Leaf → Hash32 → List Nat
  getOrder : Leaf → Nat → Option BookOrder
  totalBidDepth : Leaf → Except String Nat
  totalAskDepth : Leaf → Except String Nat
  addLimitOrder : Leaf → LimitOrder → Except String TradeResult × Leaf
  submitMarketOrder : Leaf → Nat → Nat → Side → Hash32 → Except String MatchResult × Leaf
  tradeResultNew : MatchResult → Except String TradeResult
  cancelOrder : Leaf → Nat → Except String Bool × Leaf
  evictExpiredOrders : Leaf → Nat → Except String (List Nat) × Leaf
  status : Leaf → InstrumentStatus
  setStatus : Leaf → InstrumentStatus → Except String Unit × Leaf
  parse : String → Except String ParsedSymbol
  toSymbol : ParsedSymbol → String
  formatExpirationYyyymmdd : ExpirationDate → Except String String
  calculateFee : FeeSchedule → Nat → Bool → Except String Int
  canTransition : InstrumentStatus → InstrumentStatus → Bool
  isAcceptingOrders : InstrumentStatus → Bool
  displayStatus : InstrumentStatus → String
  displayOrderId : Nat → String

/-- The place of a leaf in the hierarchy. -/
structure LeafAddress where
  expirationStr : String
  strike : Nat
  optionStyle : OptionStyle
  deriving DecidableEq, Repr

/-- Two leaves of one strike are its call and its put. -/
theorem LeafAddress.style_ne {address other : LeafAddress} (apart : other ≠ address)
    (shared : (other.expirationStr, other.strike) = (address.expirationStr, address.strike)) :
    other.optionStyle ≠ address.optionStyle := by
  intro style
  obtain ⟨expiry, strike⟩ := Prod.mk.inj shared
  cases address
  cases other
  simp_all

def ParsedSymbol.address (parsed : ParsedSymbol) : LeafAddress :=
  ⟨parsed.expirationStr, parsed.strike, parsed.optionStyle⟩

variable (U : Upstream)

/-- A strike holds its call and its put; both are created together. -/
structure StrikeBook where
  call : U.Leaf
  put : U.Leaf

/-- The hierarchy root of one underlying. The expirations are keyed by their canonical `YYYYMMDD`. -/
structure UnderlyingOrderBook where
  underlying : String
  config : BookConfig
  strikes : PairMap String Nat (StrikeBook U)

variable {U}

namespace StrikeBook

def leaf (book : StrikeBook U) : OptionStyle → U.Leaf
  | .call => book.call
  | .put => book.put

def setLeaf (book : StrikeBook U) (leaf : U.Leaf) : OptionStyle → StrikeBook U
  | .call => { book with call := leaf }
  | .put => { book with put := leaf }

end StrikeBook

namespace UnderlyingOrderBook

def new (underlying : String) : UnderlyingOrderBook U := ⟨underlying, .bare, ∅⟩

/-- The leaf at an address, if its strike exists. -/
def leaf? (book : UnderlyingOrderBook U) (address : LeafAddress) : Option U.Leaf :=
  book.strikes[(address.expirationStr, address.strike)]?.map (·.leaf address.optionStyle)

/-- The leaf at an address, or the one that vivification would create there. -/
def leafAt (book : UnderlyingOrderBook U) (address : LeafAddress) : U.Leaf :=
  (book.leaf? address).getD (U.new book.config)

/-- `get_or_create_expiration` and `get_or_create_strike`. -/
def vivify (book : UnderlyingOrderBook U) (address : LeafAddress) : UnderlyingOrderBook U :=
  { book with
    strikes := book.strikes.insertIfNew (address.expirationStr, address.strike)
      ⟨U.new book.config, U.new book.config⟩ }

def setLeaf (book : UnderlyingOrderBook U) (address : LeafAddress) (leaf : U.Leaf) : UnderlyingOrderBook U :=
  { book with
    strikes := book.strikes.modify (address.expirationStr, address.strike)
      (·.setLeaf leaf address.optionStyle) }

section Lemmas
variable (book : UnderlyingOrderBook U) (address other : LeafAddress) (leaf : U.Leaf)

@[simp] theorem underlying_vivify : (book.vivify address).underlying = book.underlying := rfl

@[simp] theorem config_vivify : (book.vivify address).config = book.config := rfl

@[simp] theorem underlying_setLeaf : (book.setLeaf address leaf).underlying = book.underlying := rfl

@[simp] theorem config_setLeaf : (book.setLeaf address leaf).config = book.config := rfl

/-- Vivification changes no leaf; the ones it creates are those it would have created. -/
@[simp] theorem leafAt_vivify : (book.vivify address).leafAt other = book.leafAt other := by
  unfold leafAt leaf? vivify
  simp only [Std.ExtTreeMap.getElem?_insertIfNew, pairCompare_eq_iff]
  split
  next created =>
    obtain ⟨same, fresh⟩ := created
    rw [← same, Std.ExtTreeMap.getElem?_eq_none fresh]
    cases other.optionStyle <;> rfl
  next => rfl

theorem leaf?_vivify_self : (book.vivify address).leaf? address = some (book.leafAt address) := by
  unfold leafAt leaf? vivify
  simp only [Std.ExtTreeMap.getElem?_insertIfNew, pairCompare_eq_iff, true_and]
  split
  next fresh =>
    rw [Std.ExtTreeMap.getElem?_eq_none fresh]
    cases address.optionStyle <;> rfl
  next present =>
    obtain ⟨strike, here⟩ := Option.isSome_iff_exists.1
      (Std.ExtTreeMap.mem_iff_isSome_getElem?.1 (Decidable.not_not.1 present))
    simp [here]

theorem isSome_leaf?_vivify (present : (book.leaf? other).isSome) : ((book.vivify address).leaf? other).isSome := by
  obtain ⟨leaf, here⟩ := Option.isSome_iff_exists.1 present
  obtain ⟨strike, found, -⟩ := Option.map_eq_some_iff.1 here
  unfold leaf? vivify
  simp only [Std.ExtTreeMap.getElem?_insertIfNew, pairCompare_eq_iff]
  split
  · rfl
  · simp [found]

theorem leaf?_setLeaf : (book.setLeaf address leaf).leaf? other =
    if other = address then (book.leaf? address).map fun _ => leaf else book.leaf? other := by
  unfold leaf? setLeaf
  simp only [Std.ExtTreeMap.getElem?_modify, pairCompare_eq_iff]
  by_cases same : other = address
  · subst same
    cases book.strikes[(other.expirationStr, other.strike)]? <;> cases other.optionStyle <;> simp [StrikeBook.setLeaf, StrikeBook.leaf]
  · rw [if_neg same]
    split
    next key =>
      have styles := LeafAddress.style_ne same key.symm
      rw [key, Option.map_map]
      refine congrArg (fun read => Option.map read _) (funext fun strike => ?_)
      cases left : other.optionStyle <;> cases right : address.optionStyle <;>
        simp_all [StrikeBook.setLeaf, StrikeBook.leaf]
    next => rfl

/-- The second write to a leaf counts. -/
@[simp] theorem setLeaf_setLeaf (second : U.Leaf) :
    (book.setLeaf address leaf).setLeaf address second = book.setLeaf address second := by
  unfold setLeaf
  congr 1
  refine Std.ExtTreeMap.ext_getElem? fun key => ?_
  simp only [Std.ExtTreeMap.getElem?_modify, pairCompare_eq_iff]
  split
  · rw [if_pos trivial, Option.map_map]
    refine congrArg (fun write => Option.map write _) (funext fun strike => ?_)
    cases address.optionStyle <;> rfl
  · rfl

/-- Writes to two leaves commute. -/
theorem setLeaf_comm {address other : LeafAddress} (apart : other ≠ address) (leaf second : U.Leaf) :
    (book.setLeaf address leaf).setLeaf other second = (book.setLeaf other second).setLeaf address leaf := by
  unfold setLeaf
  congr 1
  refine Std.ExtTreeMap.ext_getElem? fun key => ?_
  simp only [Std.ExtTreeMap.getElem?_modify, pairCompare_eq_iff]
  by_cases shared : (address.expirationStr, address.strike) = (other.expirationStr, other.strike)
  · have styles := LeafAddress.style_ne apart shared.symm
    simp only [shared, if_true]
    split
    · rw [Option.map_map, Option.map_map]
      refine congrArg (fun write => Option.map write _) (funext fun strike => ?_)
      cases left : other.optionStyle <;> cases right : address.optionStyle <;>
        simp_all [StrikeBook.setLeaf]
    · rfl
  · rw [if_neg shared, if_neg (Ne.symm shared)]
    by_cases here : (other.expirationStr, other.strike) = key
    · rw [if_pos here, if_neg (here ▸ shared), if_pos here]
    · rw [if_neg here, if_neg here]

theorem isSome_leaf?_setLeaf (present : (book.leaf? other).isSome) :
    ((book.setLeaf address leaf).leaf? other).isSome := by
  rw [leaf?_setLeaf]
  split
  next same =>
    rw [← same, Option.isSome_map]
    exact present
  next => exact present

theorem leafAt_setLeaf_of_ne {address other : LeafAddress} (apart : other ≠ address) :
    (book.setLeaf address leaf).leafAt other = book.leafAt other := by
  simp [leafAt, leaf?_setLeaf, apart]

theorem leafAt_setLeaf_self {address : LeafAddress} (present : (book.leaf? address).isSome) :
    (book.setLeaf address leaf).leafAt address = leaf := by
  obtain ⟨old, here⟩ := Option.isSome_iff_exists.1 present
  simp [leafAt, leaf?_setLeaf, here]

end Lemmas

end UnderlyingOrderBook

end Fauxchange.Exchange
