import Fauxchange.Exchange.AddLegs
import Fauxchange.Exchange.Correlation
import Fauxchange.Venue.PlacedOnce

/-! What an executor knows of the placements that it has taken. A repeated one is answered from the entry that the first
left under its client order id, and that entry is the event of the first. -/

namespace Fauxchange.Exchange
open Lib

/-- An outcome under which a placement enters the book. -/
def VenueOutcome.isPlaced : VenueOutcome → Bool
  | .added .. | .market .. => true
  | _ => false

/-- The aggressor's fills have prices and a sum that fit the machine type. -/
structure VenueOutcome.Sums (outcome : VenueOutcome) : Prop where
  priced : ∀ fill ∈ outcome.takerFillLegs, fill.1 < 2 ^ 64
  fits : (outcome.takerFillLegs.map Prod.snd).sum ≤ u64Max

/-- The aggressor's legs are those of the placement; prices and their sum fit the machine type. -/
structure PlacedLegs (placement : Placement) (fills : List Fill) : Prop where
  own : ∀ fill ∈ fills, fill.liquidity = .taker → fill.orderId = placement.orderId ∧ fill.account = placement.account
  priced : ∀ fill ∈ fills, fill.price < 2 ^ 64
  fits : takenBy fills ≤ u64Max

theorem VenueOutcome.takerFillLegs_placed {outcome : VenueOutcome} (entered : outcome.isPlaced = true) :
    outcome.takerFillLegs = ((outcomeFills outcome).filter fun fill => fill.liquidity = .taker).map
      fun fill => (fill.price, fill.quantity) := by
  cases outcome with
  | added => rfl
  | market => rfl
  | _ => cases entered

theorem PlacedLegs.sums {placement : Placement} {outcome : VenueOutcome}
    (legs : PlacedLegs placement (outcomeFills outcome)) (entered : outcome.isPlaced = true) : outcome.Sums := by
  have taken := VenueOutcome.takerFillLegs_placed entered
  constructor
  · rw [taken]
    intro fill member
    obtain ⟨leg, listed, rfl⟩ := List.mem_map.1 member
    exact legs.priced leg (List.mem_filter.1 listed).1
  · rw [taken, List.map_map]
    exact legs.fits

section Legs
variable {U : Upstream} {ctx : ExecutionContext} {registry : OrderRegistry} {placement : Placement}

theorem placedLegs_nil : PlacedLegs placement [] := by
  refine ⟨List.forall_mem_nil _, List.forall_mem_nil _, ?_⟩
  decide

theorem buildFills_placed {matched : MatchResult} {schedule : Option FeeSchedule} {captured : CapturedFills}
    (built : buildFills U ctx registry matched placement schedule = .ok captured) :
    PlacedLegs placement captured.fills := by
  have fits : (∀ trade ∈ matched.trades, trade.price < 2 ^ 64) ∧ (matched.trades.map Trade.quantity).sum ≤ u64Max := by
    unfold buildFills at built
    split at built
    · cases built
    next done =>
      obtain ⟨-, priced, total, -⟩ := tradesLegs_fit (Nat.zero_le _) done
      rw [Nat.zero_add] at total
      exact ⟨priced, total⟩
  obtain ⟨pairs, legs, fills⟩ := buildFills_pairs ctx (fun _ _ _ made => tradeLegs_by made) built
  have traded : ∀ pair ∈ pairs, ∃ trade ∈ matched.trades.zipIdx, LegsBy registry placement ctx trade pair := by
    intro pair member
    obtain ⟨index, low, rfl⟩ := List.getElem_of_mem member
    have long : index < matched.trades.zipIdx.length := legs.length_eq ▸ low
    exact ⟨_, List.getElem_mem long, List.Forall₂.get legs long low⟩
  have split : ∀ fill ∈ captured.fills, ∃ pair ∈ pairs, fill = pair.1 ∨ fill = pair.2 := by
    intro fill member
    rw [fills] at member
    obtain ⟨pair, listed, here⟩ := List.mem_flatMap.1 member
    exact ⟨pair, listed, by simpa [bothLegs] using here⟩
  constructor
  · intro fill member taker
    obtain ⟨pair, listed, rfl | rfl⟩ := split fill member
    · obtain ⟨trade, -, both⟩ := traded pair listed
      rw [both.pair.maker] at taker
      cases taker
    · obtain ⟨trade, -, both⟩ := traded pair listed
      exact ⟨both.taker.1, both.taker.2.1⟩
  · intro fill member
    obtain ⟨pair, listed, same⟩ := split fill member
    obtain ⟨trade, made, both⟩ := traded pair listed
    have low := fits.1 trade.1 (List.fst_mem_of_mem_zipIdx made)
    rcases same with rfl | rfl
    · rw [both.pair.price.1]
      exact low
    · rw [both.pair.price.2]
      exact low
  · rw [fills, takenBy_legs legs]
    exact fits.2

theorem slotFills_placed {leaf : U.Leaf} {beforeSeq : Option Nat} {schedule : Option FeeSchedule} {captured : CapturedFills}
    (built : slotFills ctx registry leaf beforeSeq placement schedule = .ok captured) :
    PlacedLegs placement captured.fills := by
  unfold slotFills at built
  split at built
  · exact buildFills_placed built
  · cases built
    exact placedLegs_nil

theorem addCapture_placed {leaf : U.Leaf} {price : Nat} {captured : CapturedFills}
    (built : addCapture ctx registry leaf placement price = .ok captured) : PlacedLegs placement captured.fills := by
  unfold addCapture at built
  dsimp only at built
  split at built
  · exact buildFills_placed built
  · exact slotFills_placed built

theorem marketCapture_placed {leaf : U.Leaf} {captured : CapturedFills}
    (built : marketCapture ctx registry leaf placement = .ok captured) : PlacedLegs placement captured.fills := by
  unfold marketCapture at built
  dsimp only at built
  split at built
  · split at built
    · exact buildFills_placed built
    · cases built
  · exact slotFills_placed built

theorem runAdd_placed (visits : VisitOrder) (leaf : U.Leaf) (price : Nat) :
    PlacedLegs placement (runAdd visits ctx registry leaf placement price).1.fills := by
  cases capture : addCapture ctx registry leaf placement price with
  | error error =>
    rw [runAdd_of_error visits capture]
    exact placedLegs_nil
  | ok captured =>
    rw [(runAdd_of_capture visits registry capture).1]
    exact addCapture_placed capture

theorem executeMarket_placed (visits : VisitOrder) (leaf : U.Leaf) :
    PlacedLegs placement (outcomeFills (executeMarket visits ctx registry leaf placement).1) := by
  by_cases depth : oppositeDepth (U.armTradeCapture leaf) placement.side = .ok 0
  · rw [(executeMarket_of_empty ctx visits depth).2]
    exact placedLegs_nil
  · rw [executeMarket_of_depth ctx visits depth]
    dsimp only
    cases capture : marketCapture ctx registry leaf placement with
    | error error => exact placedLegs_nil
    | ok captured => exact marketCapture_placed capture

/-- The fills of an add are those of its placement. -/
theorem SequencedState.executeAddOrder_placed (visits : VisitOrder) (state : SequencedState U) (orderType : OrderType)
    (limitPrice : Option Nat) :
    PlacedLegs placement (outcomeFills (state.executeAddOrder visits ctx placement orderType limitPrice).1) := by
  unfold SequencedState.executeAddOrder
  split
  · exact placedLegs_nil
  · dsimp only
    split
    · exact placedLegs_nil
    · split
      · exact executeMarket_placed visits _
      · exact placedLegs_nil
      · dsimp only
        rw [outcomeFills_limitOutcome]
        exact runAdd_placed visits _ _

/-- The outcome of an add is not a duplicate, and its fills add up. -/
theorem SequencedState.executeAddOrder_sums (visits : VisitOrder) (state : SequencedState U) (orderType : OrderType)
    (limitPrice : Option Nat) :
    (state.executeAddOrder visits ctx placement orderType limitPrice).1.Sums ∧
      ∀ orderId sequence terminal, (state.executeAddOrder visits ctx placement orderType limitPrice).1 ≠
        .duplicate orderId sequence terminal := by
  have legs := @executeAddOrder_placed U ctx placement visits state orderType limitPrice
  have refused : ∀ kind reason, VenueOutcome.Sums (.rejected kind reason) := by
    intro kind reason
    exact ⟨List.forall_mem_nil _, Nat.zero_le _⟩
  have shape : (state.executeAddOrder visits ctx placement orderType limitPrice).1.isPlaced = true ∨
      ∃ kind reason, (state.executeAddOrder visits ctx placement orderType limitPrice).1 = .rejected kind reason := by
    unfold SequencedState.executeAddOrder
    split
    · exact Or.inr ⟨_, _, rfl⟩
    · dsimp only
      split
      · exact Or.inr ⟨_, _, rfl⟩
      · split
        · refine Or.inl ?_
          dsimp only
          unfold executeMarket
          dsimp only
          split
          · rfl
          · split <;> rfl
        · exact Or.inr ⟨_, _, rfl⟩
        · dsimp only
          unfold limitOutcome
          split
          · exact Or.inl rfl
          · exact Or.inr ⟨_, _, rfl⟩
  rcases shape with entered | ⟨kind, reason, rejected⟩
  · refine ⟨legs.sums entered, fun orderId sequence terminal same => ?_⟩
    rw [same] at entered
    cases entered
  · rw [rejected]
    exact ⟨refused kind reason, fun _ _ _ wrong => (by cases wrong)⟩

end Legs

namespace SequencedState
variable {U : Upstream} (visits : VisitOrder) (state : SequencedState U) (ctx : ExecutionContext) {placed : AddOrder}
  {id : ClientOrderId}

/-- A placement under a new key is executed. -/
theorem execute_first (command : ctx.command = .addOrder placed) (keyed : placed.clientOrderId = some id)
    (new : state.idempotency[(placed.account, id)]? = none) : (state.execute visits ctx).1 =
      (state.executeAddOrder visits ctx placed.placement placed.orderType placed.limitPrice).1 := by
  unfold execute
  simp only [command, addWithIdempotency, keyed, new]

/-- What is answered under a key stays. -/
theorem execute_answered {key : ClientKey} {entry : IdempotencyEntry} (known : state.idempotency[key]? = some entry) :
    (state.execute visits ctx).2.idempotency[key]? = some entry := by
  cases keyed : placementKey ctx.command with
  | none =>
    rw [execute_idempotency_unkeyed _ _ _ keyed]
    exact known
  | some found =>
    cases command : ctx.command with
    | addOrder placed =>
      rw [command] at keyed
      obtain ⟨id, named, rfl⟩ := Option.map_eq_some_iff.1 keyed
      cases other : state.idempotency[(placed.account, id)]? with
      | some entry =>
        rw [execute_known visits state ctx command named other]
        exact known
      | none =>
        have apart : (placed.account, id) ≠ key := by
          rintro rfl
          rw [known] at other
          cases other
        rw [execute_new visits state ctx command named other, Std.ExtTreeMap.getElem?_insert]
        simp only [pairCompare_eq_iff, apart, if_false]
        exact known
    | _ =>
      rw [command] at keyed
      cases keyed

/-- An answer under a key is an earlier one, or that of the placement that is executed. -/
theorem execute_answers {key : ClientKey} {entry : IdempotencyEntry}
    (answered : (state.execute visits ctx).2.idempotency[key]? = some entry) :
    state.idempotency[key]? = some entry ∨
      entry.sequence = ctx.sequence ∧ entry.terminal.Sums ∧ ∃ placed, ctx.command = .addOrder placed := by
  cases keyed : placementKey ctx.command with
  | none =>
    rw [execute_idempotency_unkeyed _ _ _ keyed] at answered
    exact Or.inl answered
  | some found =>
    cases command : ctx.command with
    | addOrder placed =>
      rw [command] at keyed
      obtain ⟨id, named, rfl⟩ := Option.map_eq_some_iff.1 keyed
      cases other : state.idempotency[(placed.account, id)]? with
      | some earlier =>
        rw [execute_known visits state ctx command named other] at answered
        exact Or.inl answered
      | none =>
        rw [execute_new visits state ctx command named other, Std.ExtTreeMap.getElem?_insert] at answered
        split at answered
        · obtain rfl := Option.some.inj answered
          refine Or.inr ⟨rfl, ?_, placed, rfl⟩
          dsimp only
          rw [execute_first visits state ctx command named other]
          exact (executeAddOrder_sums visits state _ _).1
        · exact Or.inl answered
    | _ =>
      rw [command] at keyed
      cases keyed

/-- A placement that enters the book under a client order id is the first one under it. -/
theorem execute_placed_new (command : ctx.command = .addOrder placed) (keyed : placed.clientOrderId = some id)
    (entered : (state.execute visits ctx).1.isPlaced = true) : state.idempotency[(placed.account, id)]? = none := by
  cases known : state.idempotency[(placed.account, id)]? with
  | none => rfl
  | some entry =>
    rw [execute_known visits state ctx command keyed known] at entered
    unfold repeatAnswer at entered
    split at entered
    · cases entered
    · cases entered

theorem execute_placed_legs (command : ctx.command = .addOrder placed) (keyed : placed.clientOrderId = some id)
    (entered : (state.execute visits ctx).1.isPlaced = true) :
    PlacedLegs placed.placement (outcomeFills (state.execute visits ctx).1) := by
  have new := execute_placed_new visits state ctx command keyed entered
  rw [execute_first visits state ctx command keyed new]
  exact executeAddOrder_placed visits state _ _

end SequencedState

/-- A record is written by a placement that has entered the book, or by a replacement. -/
theorem written_by {event : VenueEvent} {account : AccountId} {clOrdId : ClientOrderId} {record : ClOrdIdRecord}
    (written : ((account, clOrdId), some record) ∈ correlationWrites event) :
    (∃ placed, event.command = .addOrder placed ∧ event.outcome.isPlaced = true ∧ placed.account = account ∧
      placed.clientOrderId = some clOrdId ∧
        record = ⟨placed.orderId, placed.symbol, placed.side, placed.quantity, event.underlyingSequence⟩) ∨
    ∃ amended, event.command = .replace amended ∧
      record = ⟨amended.newOrderId, amended.symbol, amended.side, amended.quantity, event.underlyingSequence⟩ := by
  obtain ⟨schema, sequence, venueTs, command, outcome⟩ := event
  have keyed : ∀ {id : Option ClientOrderId} {holder : AccountId} {entry : ClOrdIdRecord},
      ((account, clOrdId), some record) ∈ (id.map fun id => ((holder, id), some entry)).toList →
        id = some clOrdId ∧ holder = account ∧ record = entry := by
    intro id holder entry listed
    obtain ⟨found, rfl, same⟩ := Option.map_eq_some_iff.1 (Option.mem_toList.1 listed)
    obtain ⟨key, value⟩ := Prod.mk.inj same
    obtain ⟨own, named⟩ := Prod.mk.inj key
    exact ⟨congrArg some named, own, (Option.some.inj value).symm⟩
  cases command with
  | addOrder placed =>
    cases outcome with
    | added =>
      obtain ⟨named, own, same⟩ := keyed written
      exact Or.inl ⟨placed, rfl, rfl, own, named, same⟩
    | market =>
      obtain ⟨named, own, same⟩ := keyed written
      exact Or.inl ⟨placed, rfl, rfl, own, named, same⟩
    | _ => cases written
  | replace amended =>
    cases outcome with
    | replace cancelled add =>
      refine Or.inr ⟨amended, rfl, ?_⟩
      rcases List.mem_append.1 written with retired | placed
      · split at retired
        · obtain ⟨original, -, same⟩ := Option.map_eq_some_iff.1 (Option.mem_toList.1 retired)
          cases same
        · cases retired
      · cases add with
        | rejected => cases placed
        | _ => exact (keyed placed).2.2
    | _ => cases written
  | _ => cases outcome <;> cases written

namespace MatchingExecutor
variable {U : Upstream}

/-- The executor answers for each placement of these events that entered the book under a client order id. -/
def Keeps (executor : MatchingExecutor U) (events : List VenueEvent) : Prop :=
  ∀ event ∈ events, ∀ placed id, event.command = .addOrder placed → placed.clientOrderId = some id →
    event.outcome.isPlaced = true →
    executor.state.idempotency[(placed.account, id)]? =
      some ⟨SequencedState.fingerprint placed, placed.orderId, event.underlyingSequence, event.outcome⟩ ∧
    PlacedLegs placed.placement (outcomeFills event.outcome)

/-- Each answer is that of one of these events, and its fills add up. -/
def Sourced (executor : MatchingExecutor U) (events : List VenueEvent) : Prop :=
  ∀ (key : ClientKey) (entry : IdempotencyEntry), executor.state.idempotency[key]? = some entry →
    entry.terminal.Sums ∧ ∃ event ∈ events, event.underlyingSequence = entry.sequence ∧
      ∃ placed, event.command = .addOrder placed

variable (underlying : String) (lineage : LineageId) {executor : MatchingExecutor U} {events : List VenueEvent}

theorem Keeps.derived (keeps : executor.Keeps events) (command : JournalCommand) :
    (deriveEvent underlying lineage executor command).2.Keeps
      (events ++ [(deriveEvent underlying lineage executor command).1]) := by
  intro event member placed id placing keyed entered
  rcases List.mem_append.1 member with old | new
  · obtain ⟨known, legs⟩ := keeps event old placed id placing keyed entered
    exact ⟨SequencedState.execute_answered executor.hashOrder executor.state (command.context underlying lineage) known,
      legs⟩
  · obtain rfl := List.mem_singleton.1 new
    have placing : (command.context underlying lineage).command = .addOrder placed := placing
    have absent := SequencedState.execute_placed_new executor.hashOrder executor.state _ placing keyed entered
    have answered := SequencedState.execute_new executor.hashOrder executor.state _ placing keyed absent
    refine ⟨?_, SequencedState.execute_placed_legs executor.hashOrder executor.state _ placing keyed entered⟩
    change (executor.state.execute executor.hashOrder (command.context underlying lineage)).2.idempotency[_]? = _
    rw [answered, Std.ExtTreeMap.getElem?_insert_self]
    rfl

theorem Sourced.derived (sourced : executor.Sourced events) (command : JournalCommand) :
    (deriveEvent underlying lineage executor command).2.Sourced
      (events ++ [(deriveEvent underlying lineage executor command).1]) := by
  intro key entry answered
  have answered : (executor.state.execute executor.hashOrder (command.context underlying lineage)).2.idempotency[key]? =
      some entry := answered
  rcases SequencedState.execute_answers _ _ _ answered with old | ⟨here, sums, placed, placing⟩
  · obtain ⟨sums, event, member, found⟩ := sourced key entry old
    exact ⟨sums, event, List.mem_append_left _ member, found⟩
  · exact ⟨sums, _, List.mem_append_right _ (List.mem_singleton.2 rfl), here.symm, placed, placing⟩

theorem Keeps.reexecuted (keeps : executor.Keeps events) (commands : List JournalCommand) :
    (reexecute underlying lineage executor commands).2.Keeps
      (events ++ (reexecute underlying lineage executor commands).1) := by
  induction commands generalizing executor events with
  | nil =>
    rw [reexecute, List.append_nil]
    exact keeps
  | cons command rest ih =>
    have later := ih (keeps.derived underlying lineage command)
    rw [List.append_assoc] at later
    exact later

theorem Sourced.reexecuted (sourced : executor.Sourced events) (commands : List JournalCommand) :
    (reexecute underlying lineage executor commands).2.Sourced
      (events ++ (reexecute underlying lineage executor commands).1) := by
  induction commands generalizing executor events with
  | nil =>
    rw [reexecute, List.append_nil]
    exact sourced
  | cons command rest ih =>
    have later := ih (sourced.derived underlying lineage command)
    rw [List.append_assoc] at later
    exact later

end MatchingExecutor

end Fauxchange.Exchange
