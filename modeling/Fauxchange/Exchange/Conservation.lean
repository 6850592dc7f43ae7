import Fauxchange.Exchange.Commits
import Fauxchange.Exchange.Projection
import Fauxchange.Exchange.ReferenceBook
import Fauxchange.Exchange.TradeLegs
import Fauxchange.Lib.Delimiter
import Fauxchange.Lib.MapSum

/-! Conservation: a trade enters the stores as two legs that cancel, so over all accounts the contracts and the cash
of a symbol sum to zero, and each trade leaves exactly its two records. -/

namespace Fauxchange.Exchange
open Lib

/-- What an execution id is made of can be read back, up to where the lineage ends. -/
theorem LineageId.executionId_parts {lineage second : LineageId} {underlying other : String}
    {sequence last index place : Nat}
    (same : lineage.executionId underlying sequence index = second.executionId other last place) :
    lineage ++ ":" ++ underlying = second ++ ":" ++ other ∧ sequence = last ∧ index = place := by
  have split : ∀ (lineage : LineageId) (name : String) (number field : Nat),
      (lineage.executionId name number field).toList =
        ((lineage ++ ":" ++ name).toList ++ ':' :: (toString number).toList) ++ ':' :: (toString field).toList := by
    intro lineage name number field
    simp [LineageId.executionId, LineageId.composite]
  have texts := congrArg String.toList same
  rw [split, split] at texts
  obtain ⟨front, fields⟩ := append_cons_inj (toList_toString_free (by decide) index)
    (toList_toString_free (by decide) place) texts
  obtain ⟨names, numbers⟩ := append_cons_inj (toList_toString_free (by decide) sequence)
    (toList_toString_free (by decide) last) front
  exact ⟨String.toList_inj.1 names, toString_toList_inj numbers, toString_toList_inj fields⟩

/-- One lineage names different trades differently. -/
theorem LineageId.executionId_inj {lineage : LineageId} {underlying other : String} {sequence last index place : Nat}
    (same : lineage.executionId underlying sequence index = lineage.executionId other last place) :
    underlying = other ∧ sequence = last ∧ index = place := by
  obtain ⟨names, numbers⟩ := LineageId.executionId_parts same
  exact ⟨(String.append_right_inj _).1 names, numbers⟩

namespace InMemoryPositionsStore

/-- What a figure of the position folds sums to over the accounts of a symbol. -/
def total (read : PositionState → Int) (store : InMemoryPositionsStore) (symbol : Symbol) : Int :=
  mapSum (fun key state => if key.2 = symbol then read state else 0) store.positions

section Total
variable {read : PositionState → Int} {change : PositionLeg → Int}

/-- A figure that starts at nothing and that each accepted leg moves by a known amount. -/
structure Additive (read : PositionState → Int) (change : PositionLeg → Int) : Prop where
  start : ∀ underlying, read (.new underlying) = 0
  moves : ∀ (state next : PositionState) (leg : PositionLeg),
    state.fold leg.side leg.quantity leg.price leg.fee = (.ok (), next) → read next = read state + change leg

theorem additive_netQuantity : Additive PositionState.netQuantity PositionLeg.signed :=
  ⟨fun _ => rfl, fun _ _ _ folded => (PositionState.fold_ok folded).1⟩

theorem additive_cashExFee : Additive PositionState.cashExFee fun leg => -(leg.signed * leg.price) := by
  refine ⟨fun _ => rfl, fun state next leg folded => ?_⟩
  rw [(PositionState.fold_ok folded).2.1, Int.sub_eq_add_neg]
  rfl

theorem Additive.total_apply (additive : Additive read change) {store next : InMemoryPositionsStore}
    {leg : PositionLeg} (applied : store.apply leg = (.ok (), next)) (symbol : Symbol) :
    next.total read symbol = store.total read symbol + if leg.symbol = symbol then change leg else 0 := by
  unfold apply at applied
  obtain ⟨accepted, rfl⟩ := Prod.mk.inj applied
  have moved := additive.moves _ _ leg (Prod.ext accepted rfl)
  have written := mapSum_insert (fun (key : AccountId × Symbol) state => if key.2 = symbol then read state else 0)
    store.positions (leg.account, leg.symbol)
      ((store.positions[(leg.account, leg.symbol)]?.getD (.new leg.underlying)).fold leg.side leg.quantity leg.price
        leg.fee).2
  have before : weightAt (fun (key : AccountId × Symbol) state => if key.2 = symbol then read state else 0)
      store.positions (leg.account, leg.symbol) = if leg.symbol = symbol then
        read (store.positions[(leg.account, leg.symbol)]?.getD (.new leg.underlying)) else 0 := by
    unfold weightAt
    cases store.positions[(leg.account, leg.symbol)]? with
    | none => simp [additive.start]
    | some state => rfl
  rw [before] at written
  unfold total
  dsimp only
  split
  next same =>
    rw [if_pos same, if_pos same, moved] at written
    omega
  next other =>
    rw [if_neg other, if_neg other] at written
    omega

theorem Additive.total_applyAll (additive : Additive read change) {store last : InMemoryPositionsStore}
    {legs : List PositionLeg} (applied : store.applyAll legs = .ok last) (symbol : Symbol) :
    last.total read symbol =
      store.total read symbol + (legs.map fun leg => if leg.symbol = symbol then change leg else 0).sum := by
  induction legs generalizing store with
  | nil =>
    cases applied
    simp
  | cons leg rest ih =>
    simp only [applyAll] at applied
    split at applied
    next next step =>
      rw [ih applied, additive.total_apply step, List.map_cons, List.sum_cons, Int.add_assoc]
    next => cases applied

end Total

end InMemoryPositionsStore

section Trades
variable {U : Upstream}

/-- The buyer and the seller of a trade. -/
def MadeMatch.Opposed (made : MadeMatch) : Prop := ∀ trade ∈ made.matched.trades, trade.makerSide ≠ trade.takerSide

/-- What the venue relies on in a match of the book: each trade has a buyer and a seller, and the book's record of a
match holds the match. -/
structure MatchLaws (U : Upstream) : Prop where
  wraps : ∀ matched trade, U.tradeResultNew matched = .ok trade → trade.matchResult = matched
  add_opposed : ∀ (leaf : U.Leaf) order made, addMatch leaf order = some made → made.Opposed
  market_opposed : ∀ (leaf : U.Leaf) sequence placement made, marketMatch leaf sequence placement = some made →
    made.Opposed

theorem MatchLaws.addOrderMatch_opposed (laws : MatchLaws U) {state : SequencedState U} {sequence : Nat}
    {placement : Placement} {orderType : OrderType} {limitPrice : Option Nat} {made : MadeMatch}
    (matched : state.addOrderMatch sequence placement orderType limitPrice = some made) : made.Opposed := by
  unfold SequencedState.addOrderMatch at matched
  split at matched
  · cases matched
  · split at matched
    · cases matched
    · split at matched
      · exact laws.market_opposed _ _ _ _ matched
      · cases matched
      · exact laws.add_opposed _ _ _ matched

theorem MatchLaws.replaceMatch_opposed (laws : MatchLaws U) {state : SequencedState U} {sequence : Nat}
    {amended : Replace} {made : MadeMatch} (matched : state.replaceMatch sequence amended = some made) :
    made.Opposed := by
  unfold SequencedState.replaceMatch at matched
  split at matched
  · cases matched
  · split at matched
    · cases matched
    · split at matched
      · cases matched
      · dsimp only at matched
        split at matched
        · obtain ⟨price, -, added⟩ := Option.bind_eq_some_iff.1 matched
          exact laws.add_opposed _ _ _ added
        · cases matched

/-- The trades of a command have a buyer and a seller each. -/
theorem MatchLaws.opposed (laws : MatchLaws U) (state : SequencedState U) (sequence : Nat) (command : VenueCommand) :
    ∀ trade ∈ capturedTrades U (state.matchOf sequence command), trade.makerSide ≠ trade.takerSide := by
  cases matched : state.matchOf sequence command with
  | none => simp [capturedTrades]
  | some made =>
    have sides : made.Opposed := by
      unfold SequencedState.matchOf at matched
      split at matched
      · split at matched
        · cases matched
        · exact laws.addOrderMatch_opposed matched
      · exact laws.replaceMatch_opposed matched
      · cases matched
    intro trade member
    simp only [capturedTrades] at member
    split at member
    · exact sides trade member
    · cases member

/-- The trades of a command that are captured, each with its execution id. -/
def namedTrades (lineage : LineageId) (state : SequencedState U) (commit : Commit) : List (ExecutionId × Trade) :=
  (capturedTrades U (state.matchOf commit.command.sequence commit.command.command)).zipIdx.map fun entry =>
    (lineage.executionId commit.underlying commit.command.sequence entry.2, entry.1)

/-- The trades of a venue's commits. -/
def Executors.tradesOf (lineage : LineageId) (executors : Executors U) : List Commit → List (ExecutionId × Trade)
  | [] => []
  | first :: rest =>
    namedTrades lineage (executors.stateFor first) first ++ (executors.commit lineage first).2.tradesOf lineage rest

/-- A leg of a trade on one of its sides, in both stores. -/
structure Carries (trade : Trade) (side : Side) (leg : StoreLeg) : Prop where
  record : leg.record.side = side ∧ leg.record.quantity = trade.quantity ∧ leg.record.priceCents = trade.price
  folded : leg.leg.side = side ∧ leg.leg.quantity = trade.quantity ∧ leg.leg.price = trade.price

/-- The two legs of a trade. -/
structure Twins (made : ExecutionId × Trade) (legs : StoreLeg × StoreLeg) : Prop where
  keys : legs.1.record.key = (made.1, true) ∧ legs.2.record.key = (made.1, false)
  symbol : legs.1.leg.symbol = legs.2.leg.symbol
  maker : Carries made.2 made.2.makerSide legs.1
  taker : Carries made.2 made.2.takerSide legs.2

variable (lineage : LineageId)

theorem LegsOf.twins {ctx : ExecutionContext} {trade : Trade × Nat} {legs : Fill × Fill} (pair : LegsOf ctx trade legs)
    (event : VenueEvent) (symbol : Symbol) (underlying : String) :
    Twins (ctx.lineageId.executionId ctx.underlying ctx.sequence trade.2, trade.1)
      (legs.map (storeLeg event symbol underlying) (storeLeg event symbol underlying)) where
  keys := by
    simp [storeLeg, ExecutionRecord.key, projectExecution, pair.makerId, pair.takerId, pair.maker, pair.taker,
      LiquidityFlag.isMaker]
  symbol := rfl
  maker := ⟨⟨pair.makerSide, pair.quantity.1, pair.price.1⟩, ⟨pair.makerSide, pair.quantity.1, pair.price.1⟩⟩
  taker := ⟨⟨pair.takerSide, pair.quantity.2, pair.price.2⟩, ⟨pair.takerSide, pair.quantity.2, pair.price.2⟩⟩

/-- The legs a commit brings to the stores are the twins of its trades. -/
theorem storeLegs_twins (laws : MatchLaws U) (executors : Executors U) (commit : Commit) :
    ∃ pairs, List.Forall₂ Twins (namedTrades lineage (executors.stateFor commit) commit) pairs ∧
      storeLegs U (executors.commit lineage commit).1 = pairs.flatMap bothLegs := by
  have captured := SequencedState.execute_captures (executors commit.underlying).hashOrder
    (executors.stateFor commit) (commit.command.context commit.underlying lineage) laws.wraps
  obtain ⟨pairs, legs, fills⟩ := captured
  have named := SequencedState.execute_fills_symbol (executors commit.underlying).hashOrder
    (executors.stateFor commit) (commit.command.context commit.underlying lineage)
  by_cases silent : pairs = []
  · subst silent
    refine ⟨[], ?_, ?_⟩
    · have empty := List.forall₂_nil_right_iff.1 legs
      exact List.forall₂_nil_right_iff.2 (List.map_eq_nil_iff.2 empty)
    · unfold storeLegs
      split
      · rfl
      · split
        · rfl
        · exact List.map_eq_nil_iff.2 fills
  · obtain ⟨symbol, command, underlying⟩ := named (by
      rw [fills]
      intro none
      cases pairs with
      | nil => exact silent rfl
      | cons pair rest => cases none)
    let leg := storeLeg (executors.commit lineage commit).1 symbol (executors.stateFor commit).underlyingBook.underlying
    refine ⟨pairs.map (Prod.map leg leg), ?_, ?_⟩
    rotate_left
    · unfold storeLegs
      rw [show commandSymbol (executors.commit lineage commit).1.command = some symbol from command]
      dsimp only
      rw [underlying]
      dsimp only
      rw [show outcomeFills (executors.commit lineage commit).1.outcome = _ from fills]
      exact map_bothLegs _ pairs
    · unfold namedTrades
      rw [List.forall₂_map_left_iff, List.forall₂_map_right_iff]
      exact legs.imp fun trade pair both => both.twins _ symbol _

/-- So are the legs of a whole run. -/
theorem Executors.storeLegs_commitAll (laws : MatchLaws U) (executors : Executors U) (commits : List Commit) :
    ∃ pairs, List.Forall₂ Twins (executors.tradesOf lineage commits) pairs ∧
      ((executors.commitAll lineage commits).1.map Prod.snd).flatMap (storeLegs U) = pairs.flatMap bothLegs := by
  induction commits generalizing executors with
  | nil => exact ⟨[], .nil, rfl⟩
  | cons first rest ih =>
    obtain ⟨early, twins, legs⟩ := storeLegs_twins lineage laws executors first
    obtain ⟨late, others, more⟩ := ih _
    refine ⟨early ++ late, List.rel_append twins others, ?_⟩
    simp only [commitAll, List.map_cons, List.flatMap_cons, List.flatMap_append]
    rw [legs, more]

/-- A trade's execution id names the commit that made it. -/
theorem Executors.mem_tradesOf {executors : Executors U} {commits : List Commit} {made : ExecutionId × Trade}
    (member : made ∈ executors.tradesOf lineage commits) :
    ∃ commit ∈ commits, ∃ index,
      made.1 = lineage.executionId commit.underlying commit.command.sequence index := by
  induction commits generalizing executors with
  | nil => cases member
  | cons first rest ih =>
    rcases List.mem_append.1 member with here | later
    · obtain ⟨entry, -, rfl⟩ := List.mem_map.1 here
      exact ⟨first, by simp, entry.2, rfl⟩
    · obtain ⟨commit, listed, named⟩ := ih later
      exact ⟨commit, List.mem_cons_of_mem _ listed, named⟩

theorem namedTrades_nodup (state : SequencedState U) (commit : Commit) :
    ((namedTrades lineage state commit).map Prod.fst).Nodup := by
  have indices : ((capturedTrades U (state.matchOf commit.command.sequence commit.command.command)).zipIdx.map Prod.snd).Nodup := by
    rw [List.zipIdx_map_snd]
    exact List.nodup_range'
  unfold namedTrades
  rw [List.map_map]
  refine List.pairwise_map.2 ((List.pairwise_map.1 indices).imp ?_)
  intro entry other apart same
  exact apart (LineageId.executionId_inj same).2.2

/-- No two trades of a run share an execution id. -/
theorem Executors.tradesOf_nodup (executors : Executors U) {commits : List Commit} (ascending : Ascending commits) :
    ((executors.tradesOf lineage commits).map Prod.fst).Nodup := by
  induction commits generalizing executors with
  | nil => exact List.nodup_nil
  | cons first rest ih =>
    obtain ⟨later, others⟩ := List.pairwise_cons.1 ascending
    rw [tradesOf, List.map_append]
    refine List.nodup_append.2 ⟨namedTrades_nodup lineage _ first, ih _ others, ?_⟩
    intro id here other there same
    obtain ⟨made, named, rfl⟩ := List.mem_map.1 here
    obtain ⟨entry, -, rfl⟩ := List.mem_map.1 named
    obtain ⟨second, listed, rfl⟩ := List.mem_map.1 there
    obtain ⟨commit, member, index, origin⟩ := mem_tradesOf lineage listed
    obtain ⟨underlying, sequence, -⟩ := LineageId.executionId_inj (same.trans origin)
    have above := later commit member underlying
    omega

theorem Executors.tradesOf_opposed (laws : MatchLaws U) (executors : Executors U) (commits : List Commit) :
    ∀ made ∈ executors.tradesOf lineage commits, made.2.makerSide ≠ made.2.takerSide := by
  induction commits generalizing executors with
  | nil => simp [tradesOf]
  | cons first rest ih =>
    intro made member
    rcases List.mem_append.1 member with here | later
    · obtain ⟨entry, listed, rfl⟩ := List.mem_map.1 here
      exact laws.opposed _ _ _ entry.1 (List.fst_mem_of_mem_zipIdx listed)
    · exact ih _ made later

end Trades

section Books
variable {U : Upstream}

theorem Side.signed_opposed {side other : Side} (opposed : side ≠ other) (quantity : Int) :
    side.signed quantity + other.signed quantity = 0 := by
  cases side <;> cases other <;> simp [Side.signed] at opposed ⊢

/-- Legs in twins change no total. -/
theorem twins_cancel {change : PositionLeg → Int} {trades : List (ExecutionId × Trade)}
    {pairs : List (StoreLeg × StoreLeg)} (twins : List.Forall₂ Twins trades pairs)
    (cancel : ∀ made ∈ trades, ∀ pair, Twins made pair → change pair.1.leg + change pair.2.leg = 0) (symbol : Symbol) :
    (((pairs.flatMap bothLegs).map StoreLeg.leg).map fun leg => if leg.symbol = symbol then change leg else 0).sum = 0 := by
  induction twins with
  | nil => rfl
  | @cons made pair trades pairs both rest ih =>
    have none := cancel made (by simp) pair both
    have others := ih fun other member => cancel other (List.mem_cons_of_mem _ member)
    simp only [List.flatMap_cons, bothLegs, List.map_append, List.map_cons, List.map_nil, List.sum_append,
      List.sum_cons, List.sum_nil, both.symbol] at others ⊢
    split <;> omega

theorem twins_of_mem {trades : List (ExecutionId × Trade)} {pairs : List (StoreLeg × StoreLeg)}
    (twins : List.Forall₂ Twins trades pairs) {made : ExecutionId × Trade} (member : made ∈ trades) :
    ∃ pair ∈ pairs, Twins made pair := by
  induction twins with
  | nil => cases member
  | @cons first pair trades pairs both rest ih =>
    rcases List.mem_cons.1 member with rfl | later
    · exact ⟨pair, by simp, both⟩
    · obtain ⟨other, listed, twin⟩ := ih later
      exact ⟨other, List.mem_cons_of_mem _ listed, twin⟩

/-- The keys of the legs of distinct trades. -/
theorem twins_keys {trades : List (ExecutionId × Trade)} {pairs : List (StoreLeg × StoreLeg)}
    (twins : List.Forall₂ Twins trades pairs) :
    ((pairs.flatMap bothLegs).map StoreLeg.record).map ExecutionRecord.key =
      (trades.map Prod.fst).flatMap fun id => [(id, true), (id, false)] := by
  induction twins with
  | nil => rfl
  | @cons made pair trades pairs both rest ih =>
    simp only [List.flatMap_cons, bothLegs, List.map_append, List.map_cons, List.map_nil, both.keys] at ih ⊢
    rw [ih]

theorem bothKeys_nodup {ids : List ExecutionId} (distinct : ids.Nodup) :
    (ids.flatMap fun id => [(id, true), (id, false)]).Nodup := by
  induction ids with
  | nil => exact List.nodup_nil
  | cons id rest ih =>
    obtain ⟨apart, others⟩ := List.nodup_cons.1 distinct
    simp [apart, ih others]

/-- The books balance: over all accounts the contracts and the cash of every symbol sum to zero, every trade has one
record for its maker and one for its taker, of its quantity and price and of opposite sides, and no other record
exists. -/
structure Conserved (stores : StoreFanOut U) (trades : List (ExecutionId × Trade)) : Prop where
  quantity : ∀ symbol, stores.positions.total PositionState.netQuantity symbol = 0
  cash : ∀ symbol, stores.positions.total PositionState.cashExFee symbol = 0
  distinct : (trades.map Prod.fst).Nodup
  recorded : ∀ made ∈ trades, ∃ maker taker : StoredExecution,
    stores.executions.records[(made.1, true)]? = some maker ∧ stores.executions.records[(made.1, false)]? = some taker ∧
      maker.record.liquidity = .maker ∧ taker.record.liquidity = .taker ∧
        maker.record.quantity = made.2.quantity ∧ taker.record.quantity = made.2.quantity ∧
          maker.record.priceCents = made.2.price ∧ taker.record.priceCents = made.2.price ∧
            maker.record.side ≠ taker.record.side
  only : ∀ (key : ExecutionId × Bool) (stored : StoredExecution), stores.executions.records[key]? = some stored →
    ∃ made ∈ trades, made.1 = key.1

theorem ExecutionRecord.liquidity_of_key {record : ExecutionRecord} {id : ExecutionId} {liquidity : LiquidityFlag}
    (keyed : record.key = (id, liquidity.isMaker)) : record.liquidity = liquidity :=
  LiquidityFlag.isMaker_injective (Prod.mk.inj keyed).2

end Books

namespace ReferenceBook

theorem opposed_matchResult (taken : List (BookOrder × Nat)) (schedule : Option FeeSchedule) (recorded : Bool) :
    MadeMatch.Opposed ⟨matchResult taken, schedule, recorded⟩ := by
  intro trade member
  obtain ⟨entry, -, rfl⟩ := List.mem_map.1 member
  cases entry.1.side <;> simp

/-- A limit add matches some orders, and its answer and its leaf tell of that match. -/
theorem addLimitOrder_taken (leaf : Leaf) (order : LimitOrder) : ∃ taken,
    (addLimitOrder leaf order).2.slot = (leaf.matched taken).slot ∧
      ∀ trade, (addLimitOrder leaf order).1 = .ok trade → trade.matchResult = matchResult taken := by
  unfold addLimitOrder
  split
  · exact ⟨[], rfl, fun trade done => by cases done⟩
  · split
    · exact ⟨[], rfl, fun trade done => by cases done⟩
    · refine ⟨takenByLimit leaf.orders order, ?_⟩
      dsimp only
      split
      · exact ⟨rfl, fun trade done => by cases done⟩
      · refine ⟨?_, ?_⟩
        · dsimp only
          split
          · unfold Leaf.rest
            split <;> rfl
          · rfl
        · intro trade done
          cases done
          rfl

theorem opposed_heard {armed leaf : Leaf} {made : MadeMatch} (taken : List (BookOrder × Nat))
    (unheard : armed.slot = none) (slot : leaf.slot = (armed.matched taken).slot)
    (heard : @heardMatch referenceUpstream armed leaf = some made) : made.Opposed := by
  obtain ⟨trade, after, rfl⟩ := Option.map_eq_some_iff.1 heard
  have same : leaf.slot = some trade := by
    unfold slotTradeAfter at after
    change (match leaf.slot, _ with
      | some trade, none => some trade
      | some trade, some before => if before < trade.engineSeq then some trade else none
      | none, _ => none) = some trade at after
    split at after
    next held _ => rw [held, after]
    next held _ =>
      split at after
      · rw [held, after]
      · cases after
    next => cases after
  rw [slot, Leaf.matched] at same
  split at same
  · rw [unheard] at same
    cases same
  · cases same
    exact opposed_matchResult taken _ _

end ReferenceBook

open ReferenceBook in
theorem matchLaws_reference : MatchLaws referenceUpstream where
  wraps := by
    intro matched trade wrapped
    cases wrapped
    rfl
  add_opposed := by
    intro leaf order made matched
    obtain ⟨taken, slot, answer⟩ := addLimitOrder_taken (referenceUpstream.armTradeCapture leaf) order
    simp only [addMatch] at matched
    cases added : (referenceUpstream.addLimitOrder (referenceUpstream.armTradeCapture leaf) order).1 with
    | ok trade =>
      simp only [added] at matched
      obtain rfl := Option.some.inj matched
      rw [answer trade added]
      exact opposed_matchResult taken _ _
    | error error =>
      simp only [added] at matched
      exact opposed_heard taken rfl slot matched
  market_opposed := by
    intro leaf sequence placement made matched
    simp only [marketMatch] at matched
    split at matched
    · cases matched
    · cases matched
      exact opposed_matchResult _ _ _

/-- A call sold to one account and bought by another, with a fee on the taker. -/
def crossingCommits : List Commit :=
  [⟨"BTC", 0, 1, .addOrder ⟨"BTC-20351231-50000-C", "a", "acct-1", 7, none, .sell, .limit, some 100, 3, .gtc, .none⟩⟩,
    ⟨"BTC", 1, 2, .addOrder ⟨"BTC-20351231-50000-C", "b", "acct-2", 8, none, .buy, .limit, some 110, 2, .gtc, .none⟩⟩]

def feeExecutors : Executors referenceUpstream := fun underlying =>
  ⟨.fromBook ⟨underlying, ⟨some ⟨-10, 35⟩, .none, none⟩, ∅⟩, none, fun _ _ => Equiv.refl _⟩

end Fauxchange.Exchange
