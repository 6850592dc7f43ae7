import Fauxchange.MarketMaker.Config
import Fauxchange.Venue.Producers

/-! The market-maker engine: the contracts it quotes, the legs it tracks, and the commands of a requote. -/

namespace Fauxchange.MarketMaker
open Exchange Venue

/-- A registered contract, with the volatility and the persona that its quotes are priced with. -/
structure QuotableInstrument where
  symbol : Symbol
  underlying : String
  iv : Option Rat
  persona : Option String

/-- The ids of the two legs of one contract. -/
structure LegSlots where
  bid : Option VenueOrderId
  ask : Option VenueOrderId

def LegSlots.empty : LegSlots := ⟨none, none⟩

def LegSlots.ids (slots : LegSlots) : List VenueOrderId := slots.bid.toList ++ slots.ask.toList

structure QuoteParams where
  bidPrice : Nat
  askPrice : Nat
  bidSize : Nat
  askSize : Nat

/-- The pricing of a contract at a spot, a configuration and a venue time: nothing for an expired contract or a
theoretical value that is not finite. -/
abbrev Quoter := QuotableInstrument → Nat → MarketMakerConfig → Nat → Option QuoteParams

/-- A leg of the maker in a recovered stream. -/
structure RecoveredMmLeg where
  underlying : String
  symbol : Symbol
  orderId : VenueOrderId
  isBuy : Bool
  priceCents : Nat
  quantity : Nat
  seq : Nat

structure MarketMakerEngine where
  lineageId : LineageId
  config : MarketMakerConfig
  prices : String → Option Nat
  instruments : String → List QuotableInstrument
  legs : Symbol → LegSlots
  nextOrderSeq : Nat
  venueNowMs : Nat

namespace MarketMakerEngine

def new (lineageId : LineageId) : MarketMakerEngine :=
  ⟨lineageId, .default, fun _ => none, fun _ => [], fun _ => .empty, 0, 0⟩

variable (engine : MarketMakerEngine)

/-- A control only writes the configuration: it never requotes and never cancels. -/
def applySequencedControl (knobs : MarketMakerControlKnobs) : MarketMakerEngine :=
  { engine with config := engine.config.applySequencedControl knobs }

def setVenueNowMs (nowMs : Nat) : MarketMakerEngine := { engine with venueNowMs := nowMs }

/-- The price is recorded, without a requote. -/
def seedReferencePrice (underlying : String) (priceCents : Nat) : MarketMakerEngine :=
  { engine with prices := Function.update engine.prices underlying (some priceCents) }

/-- A contract is registered under the underlying that its symbol names, once. -/
def registerResolved (U : Upstream) (symbol : Symbol) (iv : Option Rat) (persona : Option String) : MarketMakerEngine :=
  match U.parse symbol with
  | .error _ => engine
  | .ok parsed =>
    let list := engine.instruments parsed.underlying
    if list.any fun instrument => instrument.symbol = symbol then engine
    else
      { engine with
        instruments := Function.update engine.instruments parsed.underlying
          (list ++ [⟨symbol, parsed.underlying, iv.filter (0 < ·), persona⟩]) }

/-- The legs of a recovered stream are tracked again, and the ids are minted past them. -/
def restoreRecoveredProducer (legs : List RecoveredMmLeg) (nextSeqFloor : Nat) : MarketMakerEngine :=
  { engine with
    legs := legs.foldl (fun tracked leg =>
      Function.update tracked leg.symbol
        (if leg.isBuy then { tracked leg.symbol with bid := some leg.orderId }
          else { tracked leg.symbol with ask := some leg.orderId })) engine.legs
    nextOrderSeq := max engine.nextOrderSeq nextSeqFloor }

def orderIdAt (seq : Nat) : VenueOrderId := engine.lineageId ++ ":MM:" ++ toString seq

/-- A fresh quote of one contract: the prior legs are cancelled, and two fresh ones are tracked and added. -/
def updateQuote (instrument : QuotableInstrument) (params : QuoteParams) : List MakerCommand × MarketMakerEngine :=
  let bidId := engine.orderIdAt engine.nextOrderSeq
  let askSeq := (engine.nextOrderSeq + 1) % 2 ^ 64
  let askId := engine.orderIdAt askSeq
  ((engine.legs instrument.symbol).ids.map (MakerCommand.cancel instrument.symbol) ++
      [.add instrument.symbol bidId .buy params.bidPrice params.bidSize,
        .add instrument.symbol askId .sell params.askPrice params.askSize],
    { engine with
      legs := Function.update engine.legs instrument.symbol ⟨some bidId, some askId⟩
      nextOrderSeq := (askSeq + 1) % 2 ^ 64 })

end MarketMakerEngine

end Fauxchange.MarketMaker
