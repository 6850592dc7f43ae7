import Fauxchange.Exchange.Commits
import Fauxchange.Exchange.ReferenceBook
import Fauxchange.Exchange.TradeLegs
import Fauxchange.MarketData.Subscription

/-! The client order ids of placements. Every executor deduplicates the placements of its own underlying. -/

namespace Fauxchange.Exchange
open Lib

/-- The key under which a command is deduplicated. -/
def placementKey : VenueCommand → Option ClientKey
  | .addOrder order => order.clientOrderId.map fun clientOrderId => (order.account, clientOrderId)
  | _ => none

namespace SequencedState
variable {U : Upstream} (order : VisitOrder) (state : SequencedState U) (ctx : ExecutionContext)

theorem executeAddOrder_idempotency (placement : Placement) (orderType : OrderType) (limitPrice : Option Nat) :
    (state.executeAddOrder order ctx placement orderType limitPrice).2.idempotency = state.idempotency := by
  unfold executeAddOrder
  split
  · rfl
  · dsimp only
    split
    · rfl
    · split <;> rfl

theorem cancelTargets_idempotency (targets : List (Nat × RestingRecord)) :
    (state.cancelTargets targets).2.idempotency = state.idempotency := by
  induction targets generalizing state with
  | nil => rfl
  | cons target rest ih =>
    simp only [cancelTargets]
    split
    · exact ih state
    · split
      · exact ih _
      · exact ih _

/-- A command without a key leaves the answers as they are. -/
theorem execute_idempotency_unkeyed (unkeyed : placementKey ctx.command = none) :
    (state.execute order ctx).2.idempotency = state.idempotency := by
  unfold execute
  split
  next placed command =>
    rw [command] at unkeyed
    have none : placed.clientOrderId = none := Option.map_eq_none_iff.1 unkeyed
    unfold addWithIdempotency
    rw [none]
    exact executeAddOrder_idempotency order state ctx _ _ _
  · unfold executeCancel
    repeat' split
    all_goals rfl
  · unfold executeReplace
    split
    · rfl
    · dsimp only
      repeat' split
      all_goals rfl
  · unfold executeMassCancel
    split
    · rfl
    · exact cancelTargets_idempotency state _
  · unfold executeSetInstrumentStatus
    split
    · rfl
    · dsimp only
      split <;> rfl
  · rfl
  · unfold executeMarketMakerControl
    split
    · exact cancelTargets_idempotency state _
    · rfl
  · rfl
  · rfl

/-- The answer to a placement under a known key. -/
def repeatAnswer (entry : IdempotencyEntry) (retry : AddOrder) : VenueOutcome :=
  if entry.fingerprint = fingerprint retry then .duplicate entry.orderId entry.sequence entry.terminal
  else .rejected .invalidOrder "client_order_id was reused with a different order"

variable {placed : AddOrder} {id : ClientOrderId}

theorem execute_known (command : ctx.command = .addOrder placed) (keyed : placed.clientOrderId = some id)
    {entry : IdempotencyEntry} (known : state.idempotency[(placed.account, id)]? = some entry) :
    state.execute order ctx = (repeatAnswer entry placed, state) := by
  unfold execute
  simp only [command, addWithIdempotency, keyed, known, repeatAnswer]
  split <;> rfl

/-- A placement under a new key leaves its answer there. -/
theorem execute_new (command : ctx.command = .addOrder placed) (keyed : placed.clientOrderId = some id)
    (new : state.idempotency[(placed.account, id)]? = none) :
    (state.execute order ctx).2.idempotency = state.idempotency.insert (placed.account, id)
      ⟨fingerprint placed, placed.orderId, ctx.sequence, (state.execute order ctx).1⟩ := by
  unfold execute
  simp only [command, addWithIdempotency, keyed, new]
  rw [executeAddOrder_idempotency]

end SequencedState

namespace Executors
variable {U : Upstream} (lineage : LineageId) (executors : Executors U)

/-- What an underlying has answered under a key. -/
def answerAt (underlying : String) (key : ClientKey) : Option IdempotencyEntry :=
  (executors underlying).state.idempotency[key]?

theorem commit_state (first : Commit) :
    ((executors.commit lineage first).2 first.underlying).state =
      ((executors.stateFor first).execute (executors first.underlying).hashOrder
        (first.command.context first.underlying lineage)).2 := by
  rw [commit_here]
  rfl

/-- An underlying answers under the keys of its own commits. -/
theorem answerAt_commit_other {underlying : String} {key : ClientKey} {first : Commit}
    (other : first.underlying = underlying → placementKey first.command.command ≠ some key) :
    (executors.commit lineage first).2.answerAt underlying key = executors.answerAt underlying key := by
  unfold answerAt
  by_cases here : first.underlying = underlying
  · subst here
    rw [commit_state]
    cases keyed : placementKey first.command.command with
    | none => rw [SequencedState.execute_idempotency_unkeyed _ _ _ keyed]; rfl
    | some found =>
      have apart : found ≠ key := fun same => other rfl (same ▸ keyed)
      cases command : first.command.command with
      | addOrder placed =>
        rw [command] at keyed
        obtain ⟨id, named, rfl⟩ := Option.map_eq_some_iff.1 keyed
        cases known : (executors.stateFor first).idempotency[(placed.account, id)]? with
        | some entry =>
          rw [SequencedState.execute_known _ _ _ command named known]
          rfl
        | none =>
          rw [SequencedState.execute_new _ _ _ command named known, Std.ExtTreeMap.getElem?_insert]
          simp only [pairCompare_eq_iff, apart, if_false]
          rfl
      | _ =>
        rw [command] at keyed
        cases keyed
  · rw [executors.commit_of_ne lineage (Ne.symm here)]

/-- The answer to a placement under a new key. -/
theorem answerAt_commit_new {first : Commit} {placed : AddOrder} {id : ClientOrderId}
    (command : first.command.command = .addOrder placed) (keyed : placed.clientOrderId = some id)
    (new : executors.answerAt first.underlying (placed.account, id) = none) :
    (executors.commit lineage first).2.answerAt first.underlying (placed.account, id) =
      some ⟨SequencedState.fingerprint placed, placed.orderId, first.command.sequence,
        (executors.commit lineage first).1.outcome⟩ := by
  have executed := SequencedState.execute_new (executors first.underlying).hashOrder (executors.stateFor first)
    (first.command.context first.underlying lineage) command keyed new
  unfold answerAt
  rw [commit_state, executed, Std.ExtTreeMap.getElem?_insert_self]
  rfl

/-- A placement under a known key changes nothing. -/
theorem commit_known {first : Commit} {placed : AddOrder} {id : ClientOrderId}
    (command : first.command.command = .addOrder placed) (keyed : placed.clientOrderId = some id)
    {entry : IdempotencyEntry} (known : executors.answerAt first.underlying (placed.account, id) = some entry) :
    (executors.commit lineage first).1.outcome = SequencedState.repeatAnswer entry placed ∧
      (executors.commit lineage first).2 = executors := by
  have executed := SequencedState.execute_known (executors first.underlying).hashOrder (executors.stateFor first)
    (first.command.context first.underlying lineage) command keyed known
  refine ⟨congrArg Prod.fst executed, funext fun underlying => ?_⟩
  by_cases here : underlying = first.underlying
  · subst here
    rw [commit_here]
    change ({ executors first.underlying with
      state := ((executors.stateFor first).execute (executors first.underlying).hashOrder
        (first.command.context first.underlying lineage)).2
      mmControl := MatchingExecutor.applyControl (executors first.underlying).mmControl first.command.command } :
        MatchingExecutor U) = _
    rw [executed, command]
    rfl
  · rw [executors.commit_of_ne lineage here]

/-- What has been answered stays. -/
theorem answerAt_commit_known {underlying : String} {key : ClientKey} {entry : IdempotencyEntry} (first : Commit)
    (known : executors.answerAt underlying key = some entry) :
    (executors.commit lineage first).2.answerAt underlying key = some entry := by
  by_cases other : first.underlying = underlying → placementKey first.command.command ≠ some key
  · rw [answerAt_commit_other lineage executors other]
    exact known
  · push Not at other
    obtain ⟨rfl, keyed⟩ := other
    cases command : first.command.command with
    | addOrder placed =>
      rw [command] at keyed
      obtain ⟨id, named, rfl⟩ := Option.map_eq_some_iff.1 keyed
      rw [(commit_known lineage executors command named known).2]
      exact known
    | _ =>
      rw [command] at keyed
      cases keyed

theorem answerAt_commitAll_known {underlying : String} {key : ClientKey} {entry : IdempotencyEntry}
    (commits : List Commit) (known : executors.answerAt underlying key = some entry) :
    (executors.commitAll lineage commits).2.answerAt underlying key = some entry := by
  induction commits generalizing executors with
  | nil => exact known
  | cons first rest ih => exact ih _ (executors.answerAt_commit_known lineage first known)

theorem answerAt_commitAll_other {underlying : String} {key : ClientKey} {commits : List Commit}
    (other : ∀ commit ∈ commits, commit.underlying = underlying → placementKey commit.command.command ≠ some key) :
    (executors.commitAll lineage commits).2.answerAt underlying key = executors.answerAt underlying key := by
  induction commits generalizing executors with
  | nil => rfl
  | cons first rest ih =>
    refine (ih (executors.commit lineage first).2 fun commit member => other commit (by simp [member])).trans ?_
    exact executors.answerAt_commit_other lineage (other first (by simp))

end Executors

end Fauxchange.Exchange

namespace Fauxchange.Venue
open Exchange MarketData

variable {U : Upstream} (lineage : LineageId)

/-- How the venue answers a placement under a client order id that it knows: the original identity and the terminal
outcome, or a refusal when the order is another one, and nothing moves. -/
structure AnsweredAsRepeat (original retry : AddOrder) (answer event : VenueEvent) (before after : Executors U) :
    Prop where
  outcome : event.outcome =
    if SequencedState.fingerprint retry = SequencedState.fingerprint original then
      .duplicate original.orderId answer.underlyingSequence answer.outcome
    else .rejected .invalidOrder "client_order_id was reused with a different order"
  executors : after = before
  stores : ∀ stores : StoreFanOut U, (stores.emit event).2 = stores
  prints : ∀ manager : OrderbookSubscriptionManager, (manager.onCommittedEvent U event).1 = []
  books : ∀ (manager : OrderbookSubscriptionManager) symbol,
    (manager.onCommittedEvent U event).2.instrument symbol = manager.instrument symbol

/-- In a run, every placement under a client order id but the first is answered as a repeat of the first. -/
def PlacedOnce (executors : Executors U) (commits : List Commit) : Prop :=
  ∀ (early middle rest : List Commit) (first later : Commit) (original retry : AddOrder) (id : ClientOrderId),
    commits = early ++ first :: (middle ++ later :: rest) →
    first.command.command = .addOrder original → later.command.command = .addOrder retry →
    original.clientOrderId = some id → retry.clientOrderId = some id → retry.account = original.account →
    (∀ commit ∈ early, placementKey commit.command.command ≠ some (original.account, id)) →
      let answered := (executors.commitAll lineage early).2.commit lineage first
      let between := (answered.2.commitAll lineage middle).2
      AnsweredAsRepeat original retry answered.1 (between.commit lineage later).1 between
        (between.commit lineage later).2

/-- The placements under a client order id are all on one underlying. -/
def OneUnderlying (commits : List Commit) : Prop :=
  ∀ commit ∈ commits, ∀ other ∈ commits, ∀ key : ClientKey, placementKey commit.command.command = some key →
    placementKey other.command.command = some key → commit.underlying = other.underlying

section Silent
variable {event : VenueEvent} {placed : AddOrder} (command : event.command = .addOrder placed)
  (silent : (∃ kind reason, event.outcome = .rejected kind reason) ∨
    ∃ id sequence terminal, event.outcome = .duplicate id sequence terminal)

include silent in
theorem emit_silent (stores : StoreFanOut U) : (stores.emit event).2 = stores := by
  have none : outcomeFills event.outcome = [] := by
    rcases silent with ⟨kind, reason, outcome⟩ | ⟨id, sequence, terminal, outcome⟩ <;> rw [outcome] <;> rfl
  unfold StoreFanOut.emit
  split
  · rfl
  · split
    · rfl
    · rw [none]
      rfl

include command silent in
theorem onCommittedEvent_silent (manager : OrderbookSubscriptionManager) :
    (manager.onCommittedEvent U event).1 = [] ∧
      ∀ symbol, (manager.onCommittedEvent U event).2.instrument symbol = manager.instrument symbol := by
  have none : outcomeFills event.outcome = [] := by
    rcases silent with ⟨kind, reason, outcome⟩ | ⟨id, sequence, terminal, outcome⟩ <;> rw [outcome] <;> rfl
  have applied : (manager.instrument placed.symbol).apply event.command event.outcome =
      ([], manager.instrument placed.symbol) := by
    rcases silent with ⟨kind, reason, outcome⟩ | ⟨id, sequence, terminal, outcome⟩ <;> rw [command, outcome] <;> rfl
  have folded : manager.fold placed.symbol event =
      (Option.none, ⟨manager.instruments.insert placed.symbol (manager.instrument placed.symbol)⟩) := by
    unfold OrderbookSubscriptionManager.fold
    rw [applied]
    rfl
  have named : MarketData.commandSymbol event.command = some placed.symbol := by rw [command]; rfl
  unfold OrderbookSubscriptionManager.onCommittedEvent
  rw [named]
  dsimp only
  rw [folded]
  constructor
  · unfold fillsAndTrades
    rw [none]
    rfl
  · intro symbol
    unfold OrderbookSubscriptionManager.instrument
    dsimp only
    rw [Std.ExtTreeMap.getElem?_insert]
    split
    next same =>
      rw [Std.LawfulEqCmp.compare_eq_iff_eq.1 same]
      rfl
    next => rfl

end Silent

theorem placementKey_addOrder {command : VenueCommand} {placed : AddOrder} {id : ClientOrderId}
    (placing : command = .addOrder placed) (keyed : placed.clientOrderId = some id) :
    placementKey command = some (placed.account, id) := by
  rw [placing, placementKey, keyed]
  rfl

theorem exists_of_placementKey {command : VenueCommand} {key : ClientKey} (keyed : placementKey command = some key) :
    ∃ placed id, command = .addOrder placed ∧ placed.clientOrderId = some id ∧ key = (placed.account, id) := by
  cases command with
  | addOrder placed =>
    obtain ⟨id, named, rfl⟩ := Option.map_eq_some_iff.1 keyed
    exact ⟨placed, id, rfl, named, rfl⟩
  | _ => cases keyed

/-- A list with an element of a kind has a first one. -/
theorem exists_first {α : Type} (holds : α → Prop) {list : List α} {element : α} (member : element ∈ list)
    (here : holds element) :
    ∃ early first late, list = early ++ first :: late ∧ holds first ∧ ∀ other ∈ early, ¬ holds other := by
  classical
  cases found : list.find? (fun element => holds element) with
  | none =>
    have nowhere := List.find?_eq_none.1 found element member
    exact absurd here (by simpa using nowhere)
  | some first =>
    obtain ⟨holding, early, late, split, before⟩ := List.find?_eq_some_iff_append.1 found
    exact ⟨early, first, late, split, by simpa using holding, fun other listed => by simpa using before other listed⟩

section Run
variable {lineage : LineageId} {executors : Executors U}
  (fresh : ∀ underlying, (executors underlying).state.idempotency = ∅)

include fresh in
theorem answerAt_of_unkeyed {underlying : String} {key : ClientKey} {commits : List Commit}
    (unkeyed : ∀ commit ∈ commits, commit.underlying = underlying → placementKey commit.command.command ≠ some key) :
    (executors.commitAll lineage commits).2.answerAt underlying key = none := by
  rw [executors.answerAt_commitAll_other lineage unkeyed, Executors.answerAt, fresh]
  exact Std.ExtTreeMap.getElem?_empty

include fresh in
theorem placedOnce_of_oneUnderlying {commits : List Commit} (single : OneUnderlying commits) :
    PlacedOnce lineage executors commits := by
  intro early middle rest first later original retry id split placed again keyed same account new answered between
  have new' : (executors.commitAll lineage early).2.answerAt first.underlying (original.account, id) = none :=
    answerAt_of_unkeyed fresh fun commit member _ => new commit member
  have known : answered.2.answerAt first.underlying (original.account, id) = _ :=
    Executors.answerAt_commit_new lineage _ placed keyed new'
  have stays : between.answerAt first.underlying (original.account, id) = _ :=
    Executors.answerAt_commitAll_known lineage answered.2 middle known
  have here : first.underlying = later.underlying := by
    refine single first (by simp [split]) later (by simp [split]) (original.account, id)
      (placementKey_addOrder placed keyed) ?_
    rw [← account]
    exact placementKey_addOrder again same
  rw [here, ← account] at stays
  obtain ⟨outcome, unmoved⟩ := between.commit_known lineage again same stays
  have silent : (∃ kind reason, (between.commit lineage later).1.outcome = .rejected kind reason) ∨
      ∃ id sequence terminal, (between.commit lineage later).1.outcome = .duplicate id sequence terminal := by
    rw [outcome]
    unfold SequencedState.repeatAnswer
    split
    · exact Or.inr ⟨_, _, _, rfl⟩
    · exact Or.inl ⟨_, _, rfl⟩
  refine ⟨?_, unmoved, emit_silent silent, fun manager => (onCommittedEvent_silent again silent manager).1,
    fun manager => (onCommittedEvent_silent again silent manager).2⟩
  rw [outcome]
  unfold SequencedState.repeatAnswer
  simp only [eq_comm]
  rfl

include fresh in
theorem oneUnderlying_of_placedOnce {commits : List Commit} (once : PlacedOnce lineage executors commits) :
    OneUnderlying commits := by
  -- the first placement under the key fixes the underlying
  have fixed : ∀ key, ∀ commit ∈ commits, placementKey commit.command.command = some key →
      ∃ underlying, ∀ other ∈ commits, placementKey other.command.command = some key → other.underlying = underlying := by
    intro key commit member keyed
    obtain ⟨early, first, late, split, here, before⟩ :=
      exists_first (fun commit : Commit => placementKey commit.command.command = some key) member keyed
    refine ⟨first.underlying, fun other present also => ?_⟩
    rw [split] at present
    rcases List.mem_append.1 present with listed | listed
    · exact absurd also (before other listed)
    rcases List.mem_cons.1 listed with rfl | listed
    · rfl
    by_contra elsewhere
    obtain ⟨middle, later, rest, cut, ⟨strayed, apart⟩, between⟩ :=
      exists_first (fun commit : Commit => placementKey commit.command.command = some key ∧
        commit.underlying ≠ first.underlying) listed ⟨also, elsewhere⟩
    obtain ⟨original, id, placed, named, rfl⟩ := exists_of_placementKey here
    obtain ⟨retry, same, again, rekeyed, equal⟩ := exists_of_placementKey strayed
    obtain ⟨account, rfl⟩ := Prod.mk.inj equal
    have answered := once early middle rest first later original retry id (by rw [split, cut]) placed again named rekeyed
      account.symm before
    have unmoved := answered.executors
    -- the other underlying does not know the key yet, so it takes it
    have unknown : ((((executors.commitAll lineage early).2.commit lineage first).2.commitAll lineage middle).2).answerAt
        later.underlying (retry.account, id) = none := by
      rw [Executors.answerAt_commitAll_other, Executors.answerAt_commit_other, ← account]
      · exact answerAt_of_unkeyed fresh fun commit member _ => before commit member
      · exact fun same => absurd same.symm apart
      · intro commit member on keyed
        rw [← account] at keyed
        exact between commit member ⟨keyed, on ▸ apart⟩
    have taken := Executors.answerAt_commit_new lineage _ again rekeyed unknown
    rw [unmoved, unknown] at taken
    cases taken
  intro commit member other present key keyed also
  obtain ⟨underlying, all⟩ := fixed key commit member keyed
  rw [all commit member keyed, all other present also]

end Run

theorem placedOnce_iff {executors : Executors U}
    (fresh : ∀ underlying, (executors underlying).state.idempotency = ∅) (commits : List Commit) :
    PlacedOnce lineage executors commits ↔ OneUnderlying commits :=
  ⟨oneUnderlying_of_placedOnce fresh, placedOnce_of_oneUnderlying fresh⟩

/-- A bid under one client order id. -/
def clientBid (underlying : String) (contract : Symbol) (orderId : VenueOrderId) : Commit :=
  ⟨underlying, ⟨0, 1, .addOrder ⟨contract, orderId, "acct-1", 7, some "c-1", .buy, .limit, some 100, 1, .gtc, .none⟩⟩⟩

def pairExecutors : Executors pairUpstream := fun underlying => .new underlying fun _ _ => Equiv.refl _

/-- The id is reused for a contract of another underlying, and the second bid rests as well. -/
theorem client_id_placed_twice :
    ¬ PlacedOnce "run-1" pairExecutors
      [clientBid "BTC" "BTC-20351231-50000-C" "btc-order", clientBid "ETH" "ETH-20351231-3000-C" "eth-order"] := by
  intro once
  have answered := once [] [] [] (clientBid "BTC" "BTC-20351231-50000-C" "btc-order")
    (clientBid "ETH" "ETH-20351231-3000-C" "eth-order") _ _ "c-1" rfl rfl rfl rfl rfl rfl (by simp)
  have outcome := answered.outcome
  revert outcome
  decide

theorem clientBid_placedOnce :
    PlacedOnce "run-1" pairExecutors
        [clientBid "BTC" "BTC-20351231-50000-C" "first", clientBid "BTC" "BTC-20351231-50000-C" "second"] ↔
      OneUnderlying
        [clientBid "BTC" "BTC-20351231-50000-C" "first", clientBid "BTC" "BTC-20351231-50000-C" "second"] :=
  placedOnce_iff "run-1" (fun _ => rfl) _

end Fauxchange.Venue
