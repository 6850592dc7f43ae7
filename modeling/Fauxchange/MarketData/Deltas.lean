import Fauxchange.Exchange.ReferenceBook
import Fauxchange.MarketData.Subscription

/-! The feed of one instrument under any interleaving of folds, sends and snapshots: the deltas carry the sequences
one after another, and applying them to an earlier snapshot gives the later one. -/

namespace Fauxchange.MarketData
open Lib Exchange

namespace Levels

/-- A consumer's step: the level takes the reported quantity, or goes at zero. -/
def applyChange (levels : Levels) (change : PriceLevelChange) : Levels :=
  levels.setLevel change.side
    (if change.quantity = 0 then (levels.level change.side).erase change.price
    else (levels.level change.side).insert change.price change.quantity)

/-- No level is kept at zero. -/
def Open (levels : Levels) : Prop :=
  ∀ (side : BookSide) (price qty : Nat), (levels.level side)[price]? = some qty → 0 < qty

theorem open_empty : Levels.empty.Open := by
  intro side price qty present
  cases side <;> simp [Levels.empty, level] at present

theorem getElem?_applyChange (levels : Levels) (change : PriceLevelChange) (side : BookSide) (price : Nat) :
    ((levels.applyChange change).level side)[price]? =
      if side = change.side ∧ price = change.price then
        (if change.quantity = 0 then none else some change.quantity)
      else (levels.level side)[price]? := by
  unfold applyChange
  by_cases here : side = change.side
  · subst here
    rw [level_setLevel_self]
    by_cases same : price = change.price
    · subst same
      split <;> simp
    · have apart : change.price ≠ price := Ne.symm same
      split
      · simp [Std.ExtTreeMap.getElem?_erase, apart, same]
      · simp [Std.ExtTreeMap.getElem?_insert, apart, same]
  · rw [level_setLevel_of_ne _ here, if_neg (fun both => here both.1)]

/-- The quantities of an open aggregate, reported for some prices, put these prices right. -/
theorem getElem?_applyChanges {target : Levels} (kept : target.Open) (keys : List (Bool × Nat)) (levels : Levels)
    (side : BookSide) (price : Nat) :
    (((keys.map fun key => (⟨.ofIsAsk key.1, key.2, target.qtyAt (.ofIsAsk key.1) key.2⟩ : PriceLevelChange)).foldl
        applyChange levels).level side)[price]? =
      if (side.isAsk, price) ∈ keys then (target.level side)[price]? else (levels.level side)[price]? := by
  induction keys generalizing levels with
  | nil => simp
  | cons key rest ih =>
    rw [List.map_cons, List.foldl_cons, ih]
    by_cases later : (side.isAsk, price) ∈ rest
    · rw [if_pos later, if_pos (List.mem_cons_of_mem _ later)]
    · rw [if_neg later, getElem?_applyChange]
      by_cases now : key = (side.isAsk, price)
      · subst now
        simp only [BookSide.ofIsAsk_isAsk, List.mem_cons_self, if_true, and_self]
        unfold qtyAt
        cases present : (target.level side)[price]? with
        | none => simp
        | some qty =>
          have some' := kept side price qty present
          simp only [Option.getD_some]
          rw [if_neg (by omega)]
      · have unlike : ¬ (side = BookSide.ofIsAsk key.1 ∧ price = key.2) := by
          rintro ⟨rfl, rfl⟩
          refine now (Prod.ext ?_ rfl)
          cases key.1 <;> rfl
        rw [if_neg unlike, if_neg]
        intro member
        rcases List.mem_cons.1 member with same | old
        · exact now same.symm
        · exact later old

end Levels

namespace Applying

/-- What one event does to the levels: outside the touched ones nothing, and none is left at zero. -/
structure Frames (before after : Applying) : Prop where
  sequence : after.state.sequence = before.state.sequence
  grows : ∀ key, key ∈ before.touched → key ∈ after.touched
  outside : ∀ (side : BookSide) (price : Nat), (side.isAsk, price) ∉ after.touched →
    (after.state.levels.level side)[price]? = (before.state.levels.level side)[price]?
  kept : before.state.levels.Open → after.state.levels.Open

theorem Frames.refl (now : Applying) : Frames now now := ⟨rfl, fun _ => id, fun _ _ _ => rfl, id⟩

theorem Frames.trans {first second third : Applying} (one : Frames first second) (two : Frames second third) :
    Frames first third where
  sequence := two.sequence.trans one.sequence
  grows := fun key present => two.grows key (one.grows key present)
  outside := by
    intro side price untouched
    rw [two.outside side price untouched]
    exact one.outside side price fun present => untouched (two.grows _ present)
  kept := two.kept ∘ one.kept

theorem frames_setOrders (now : Applying) (orders : Std.ExtTreeMap VenueOrderId RestingOrder) :
    Frames now (now.setOrders orders) :=
  ⟨rfl, fun _ => id, fun _ _ _ => rfl, id⟩

/-- A write to one level that leaves it open. -/
theorem frames_write (now : Applying) (side : BookSide) (price : Nat) (level : Std.ExtTreeMap Nat Nat)
    (elsewhere : ∀ other, other ≠ price → level[other]? = (now.state.levels.level side)[other]?)
    (kept : now.state.levels.Open → ∀ qty, level[price]? = some qty → 0 < qty) :
    Frames now (now.write side price level) where
  sequence := rfl
  grows := by
    intro key present
    exact Std.ExtTreeMap.mem_insert.2 (Or.inr present)
  outside := by
    intro other at' untouched
    by_cases same : other = side
    · subst same
      have apart : at' ≠ price := by
        rintro rfl
        exact untouched (Std.ExtTreeMap.mem_insert.2 (Or.inl (by simp)))
      simp only [write, Levels.level_setLevel_self]
      exact elsewhere at' apart
    · simp only [write, Levels.level_setLevel_of_ne _ same]
  kept := by
    intro open' other at' qty present
    by_cases same : other = side
    · subst same
      simp only [write, Levels.level_setLevel_self] at present
      by_cases here : at' = price
      · subst here
        exact kept open' qty present
      · rw [elsewhere at' here] at present
        exact open' other at' qty present
    · simp only [write, Levels.level_setLevel_of_ne _ same] at present
      exact open' other at' qty present

theorem frames_restOrder (now : Applying) (id : VenueOrderId) (side : BookSide) (price qty : Nat) :
    Frames now (now.restOrder id side price qty) := by
  unfold restOrder
  split
  · exact .refl now
  next positive =>
    refine (frames_setOrders now _).trans (frames_write _ side price _ ?_ ?_)
    · intro other apart
      simp [setOrders, Std.ExtTreeMap.getElem?_insert, Ne.symm apart]
    · intro open' total present
      rw [Std.ExtTreeMap.getElem?_insert_self] at present
      have same := Option.some.inj present
      unfold u64Max at same
      split at same <;> omega

theorem frames_reduceLevel (now : Applying) (side : BookSide) (price amount : Nat) :
    Frames now (now.reduceLevel side price amount) := by
  unfold reduceLevel
  refine frames_write now side price _ ?_ ?_
  · intro other apart
    split
    · rfl
    · split
      · simp [Std.ExtTreeMap.getElem?_erase, Ne.symm apart]
      · simp [Std.ExtTreeMap.getElem?_insert, Ne.symm apart]
  · intro open' qty present
    split at present
    · exact open' side price qty present
    · split at present
      · simp at present
      next left =>
        rw [Std.ExtTreeMap.getElem?_insert_self] at present
        have same := Option.some.inj present
        omega

theorem frames_reduceOrder (now : Applying) (id : VenueOrderId) (qty : Nat) : Frames now (now.reduceOrder id qty) := by
  unfold reduceOrder
  split
  · exact .refl now
  · exact (frames_setOrders now _).trans (frames_reduceLevel _ _ _ _)

theorem frames_removeOrder (now : Applying) (id : VenueOrderId) : Frames now (now.removeOrder id) := by
  unfold removeOrder
  split
  · exact .refl now
  · exact (frames_setOrders now _).trans (frames_reduceLevel _ _ _ _)

theorem frames_removeOrders (now : Applying) (ids : List VenueOrderId) : Frames now (now.removeOrders ids) := by
  induction ids generalizing now with
  | nil => exact .refl now
  | cons id rest ih => exact (frames_removeOrder now id).trans (ih _)

theorem frames_consumeMakerFills (now : Applying) (fills : List Fill) : Frames now (now.consumeMakerFills fills) := by
  induction fills generalizing now with
  | nil => exact .refl now
  | cons fill rest ih =>
    refine Frames.trans ?_ (ih _)
    dsimp only
    split
    · exact frames_reduceOrder now _ _
    · exact .refl now

theorem frames_consume (now : Applying) (fills : List Fill) (stpCancelled : List CancelledLeg) :
    Frames now (now.consume fills stpCancelled) :=
  (frames_consumeMakerFills now fills).trans (frames_removeOrders _ _)

theorem frames_restAdded (now : Applying) (command : VenueCommand) (qty : Nat) :
    Frames now (now.restAdded command qty) := by
  unfold restAdded
  split
  · split
    · exact frames_restOrder _ _ _ _ _
    · exact .refl now
  · exact .refl now

theorem frames_restReplacement (now : Applying) (command : VenueCommand) (qty : Nat) :
    Frames now (now.restReplacement command qty) := by
  unfold restReplacement
  split
  · split
    · exact frames_restOrder _ _ _ _ _
    · exact .refl now
  · exact .refl now

theorem frames_removeReplaced (now : Applying) (command : VenueCommand) (cancelled : Bool) :
    Frames now (now.removeReplaced command cancelled) := by
  unfold removeReplaced
  split
  · split
    · exact frames_removeOrder _ _
    · exact .refl now
  · exact .refl now

/-- Every outcome touches what it changes. -/
theorem frames_outcome (now : Applying) (command : VenueCommand) (outcome : VenueOutcome) :
    Frames now (now.outcome command outcome) := by
  cases outcome with
  | added fills restingQuantity stpCancelled =>
    refine (frames_consume now fills stpCancelled).trans ?_
    simp only [Applying.outcome]
    split
    · exact frames_restAdded _ _ _
    · exact .refl _
  | market fills unfilled stpCancelled => exact frames_consume now fills stpCancelled
  | cancelled orderId => exact frames_removeOrder now orderId
  | replace cancelled add =>
    refine (frames_removeReplaced now command cancelled).trans ?_
    cases add with
    | filled fills stpCancelled => exact frames_consume _ fills stpCancelled
    | rested fills restingQuantity stpCancelled =>
      refine (frames_consume _ fills stpCancelled).trans ?_
      simp only [Applying.outcome]
      split
      · exact frames_restReplacement _ _ _
      · exact .refl _
    | rejected kind reason => exact .refl _
  | massCancelled affected => exact frames_removeOrders now _
  | controlApplied swept => exact frames_removeOrders now _
  | evicted evicted => exact frames_removeOrders now _
  | instrumentStatusChanged symbol status => exact .refl now
  | rejected kind reason => exact .refl now
  | duplicate orderId sequence terminal => exact .refl now

end Applying

namespace InstrumentState
variable (state : InstrumentState) (command : VenueCommand) (outcome : VenueOutcome)

/-- The changes of an event, applied by a consumer, give the levels after it. -/
theorem apply_changes (kept : state.levels.Open) :
    (state.apply command outcome).1.foldl Levels.applyChange state.levels =
      (state.apply command outcome).2.levels := by
  have frames : Applying.Frames ⟨state, ∅⟩ (state.applying command outcome) :=
    Applying.frames_outcome ⟨state, ∅⟩ command outcome
  refine Levels.ext_level fun side => Std.ExtTreeMap.ext_getElem? fun price => ?_
  simp only [apply, Applying.changes]
  rw [Levels.getElem?_applyChanges (frames.kept kept)]
  split
  · rfl
  next untouched =>
    rw [Std.ExtTreeMap.mem_keys] at untouched
    exact (frames.outside side price untouched).symm

theorem apply_open (kept : state.levels.Open) : (state.apply command outcome).2.levels.Open :=
  (Applying.frames_outcome ⟨state, ∅⟩ command outcome).kept kept

theorem apply_sequence : (state.apply command outcome).2.sequence = state.sequence :=
  (Applying.frames_outcome ⟨state, ∅⟩ command outcome).sequence

end InstrumentState

/-- A delta as it is published: its sequence and its changes. -/
abbrev Delta := Nat × List PriceLevelChange

/-- The delta of one instrument in a message. -/
def WsMessage.delta? (symbol : Symbol) : WsMessage → Option Delta
  | .orderbookDelta other sequence changes => if other = symbol then some (sequence, changes) else none
  | _ => none

def deltasOf (symbol : Symbol) (messages : List WsMessage) : List Delta :=
  messages.filterMap (WsMessage.delta? symbol)

/-- Applying deltas in order. -/
def applyDeltas (levels : Levels) (deltas : List Delta) : Levels :=
  deltas.foldl (fun levels delta => delta.2.foldl Levels.applyChange levels) levels

/-- A consumer that holds a snapshot and applies deltas: the snapshot it would show. -/
def followed (deltas : List Delta) : WsMessage → WsMessage
  | .orderbookSnapshot symbol sequence bids asks =>
    let levels : Levels :=
      ⟨writeAll PriceLevelData.price PriceLevelData.quantity ∅ bids,
        writeAll PriceLevelData.price PriceLevelData.quantity ∅ asks⟩
    (applyDeltas levels deltas).snapshot symbol ((deltas.map Prod.fst).getLast?.getD sequence) none
  | message => message

/-- The market-data service among the actors of several underlyings: what each actor has still to send, and the
broadcast. -/
structure Feed where
  manager : OrderbookSubscriptionManager
  pending : String → List WsMessage
  sent : List WsMessage

/-- One step of an actor: it folds a committed event, or sends the next of its messages. -/
inductive FeedStep where
  | commit (underlying : String) (event : VenueEvent)
  | send (underlying : String)
  deriving DecidableEq

namespace Feed
variable (U : Upstream)

def new : Feed := ⟨.new, fun _ => [], []⟩

/-- An actor turns to the next event once the messages of the last one are sent. -/
def step (feed : Feed) : FeedStep → Feed
  | .commit underlying event =>
    if (feed.pending underlying).isEmpty then
      let folded := feed.manager.onCommittedEvent U event
      { feed with manager := folded.2, pending := Function.update feed.pending underlying folded.1 }
    else feed
  | .send underlying =>
    { feed with
      pending := Function.update feed.pending underlying (feed.pending underlying).tail
      sent := feed.sent ++ (feed.pending underlying).head?.toList }

def run (feed : Feed) (steps : List FeedStep) : Feed := steps.foldl (step U) feed

/-- The deltas of an instrument, sent or about to be sent by its actor. -/
def published (feed : Feed) (owner : String) (symbol : Symbol) : List Delta :=
  deltasOf symbol feed.sent ++ deltasOf symbol (feed.pending owner)

end Feed

/-- Commands reach the actor of their contract's underlying, and those of one instrument are not requotes. -/
structure ClientFeed (U : Upstream) (owner : String) (symbol : Symbol) (steps : List FeedStep) : Prop where
  routed : ∀ underlying event, FeedStep.commit underlying event ∈ steps →
    commandSymbol event.command = some symbol → underlying = owner
  client : ∀ underlying event, FeedStep.commit underlying event ∈ steps →
    commandSymbol event.command = some symbol → isMarketMakerCommand event.command = false

theorem ClientFeed.subset {U : Upstream} {owner : String} {symbol : Symbol} {steps part : List FeedStep}
    (client : ClientFeed U owner symbol steps) (listed : part ⊆ steps) : ClientFeed U owner symbol part :=
  ⟨fun underlying event member => client.routed underlying event (listed member),
    fun underlying event member => client.client underlying event (listed member)⟩

section Messages
variable (U : Upstream) (symbol : Symbol)

theorem deltasOf_append (early late : List WsMessage) :
    deltasOf symbol (early ++ late) = deltasOf symbol early ++ deltasOf symbol late :=
  List.filterMap_append

theorem deltasOf_pairTrades (fills : List Fill) (other : Symbol) (venueTs : Nat) :
    deltasOf symbol (pairTrades fills other venueTs) = [] := by
  refine List.filterMap_eq_nil_iff.2 fun message member => ?_
  obtain ⟨executionId, -, paired⟩ := List.mem_filterMap.1 member
  dsimp only at paired
  split at paired
  · cases paired
    rfl
  · cases paired

theorem deltasOf_fillsAndTrades (event : VenueEvent) (other : Symbol) :
    deltasOf symbol (fillsAndTrades U event other) = [] := by
  unfold fillsAndTrades
  split
  · rfl
  · split
    · rfl
    · rw [deltasOf_append, deltasOf_pairTrades, List.append_nil, deltasOf, List.filterMap_map]
      exact List.filterMap_eq_nil_iff.2 fun fill member => rfl

theorem deltasOf_pricePrint (event : VenueEvent) : deltasOf symbol (pricePrint event) = [] := by
  unfold pricePrint
  split <;> rfl

end Messages

namespace OrderbookSubscriptionManager
variable (manager : OrderbookSubscriptionManager) {symbol : Symbol} (event : VenueEvent)

theorem instrument_insert_self (state : InstrumentState) :
    (⟨manager.instruments.insert symbol state⟩ : OrderbookSubscriptionManager).instrument symbol = state := by
  simp [instrument]

theorem instrument_insert_of_ne {other : Symbol} (apart : other ≠ symbol) (state : InstrumentState) :
    (⟨manager.instruments.insert other state⟩ : OrderbookSubscriptionManager).instrument symbol =
      manager.instrument symbol := by
  simp [instrument, Std.ExtTreeMap.getElem?_insert, apart]

/-- An event of another instrument leaves this one alone. -/
theorem onCommittedEvent_other (U : Upstream) (other : commandSymbol event.command ≠ some symbol) :
    deltasOf symbol (manager.onCommittedEvent U event).1 = [] ∧
      (manager.onCommittedEvent U event).2.instrument symbol = manager.instrument symbol := by
  unfold onCommittedEvent
  split
  · exact ⟨deltasOf_pricePrint symbol event, rfl⟩
  next contract named =>
    have apart : contract ≠ symbol := by
      rintro rfl
      exact other named
    dsimp only
    rw [deltasOf_append, deltasOf_fillsAndTrades, List.append_nil]
    constructor
    · refine List.filterMap_eq_nil_iff.2 fun message member => ?_
      obtain ⟨delta, -, rfl⟩ := List.mem_map.1 member
      exact if_neg apart
    · unfold fold
      dsimp only
      split <;> exact instrument_insert_of_ne manager apart _

/-- An event of a client on an instrument: nothing changes and nothing is published, or the next delta reports the
change. -/
theorem onCommittedEvent_client (U : Upstream) (named : commandSymbol event.command = some symbol)
    (client : isMarketMakerCommand event.command = false) (kept : (manager.instrument symbol).levels.Open)
    (room : (manager.instrument symbol).sequence < u64Max) :
    ∃ deltas : List Delta, deltasOf symbol (manager.onCommittedEvent U event).1 = deltas ∧
      deltas.map Prod.fst = List.range' ((manager.instrument symbol).sequence + 1) deltas.length ∧
        ((manager.onCommittedEvent U event).2.instrument symbol).sequence =
          (manager.instrument symbol).sequence + deltas.length ∧
        ((manager.onCommittedEvent U event).2.instrument symbol).levels =
          applyDeltas (manager.instrument symbol).levels deltas ∧
        ((manager.onCommittedEvent U event).2.instrument symbol).levels.Open ∧ deltas.length ≤ 1 := by
  have after := (manager.instrument symbol).apply_open event.command event.outcome kept
  have changed := (manager.instrument symbol).apply_changes event.command event.outcome kept
  have same := (manager.instrument symbol).apply_sequence event.command event.outcome
  simp only [onCommittedEvent, named, fold, client, Bool.or_false, deltasOf_append, deltasOf_fillsAndTrades,
    List.append_nil]
  split
  next empty =>
    rw [List.isEmpty_iff.1 empty] at changed
    rw [instrument_insert_self]
    exact ⟨[], rfl, rfl, same, changed.symm, after, Nat.zero_le _⟩
  next reported =>
    rw [same, if_pos room, instrument_insert_self]
    refine ⟨[(_, _)], ?_, rfl, rfl, changed.symm, after, Nat.le_refl _⟩
    simp [deltasOf, WsMessage.delta?]

end OrderbookSubscriptionManager

namespace Feed
variable {U : Upstream} {owner : String} {symbol : Symbol}

/-- No level of the instrument is kept at zero, and only its own actor has deltas of it to send. -/
structure Steady (owner : String) (symbol : Symbol) (feed : Feed) : Prop where
  kept : (feed.manager.instrument symbol).levels.Open
  own : ∀ underlying, underlying ≠ owner → deltasOf symbol (feed.pending underlying) = []

theorem steady_new : Steady owner symbol new :=
  ⟨Levels.open_empty, fun _ _ => rfl⟩

/-- What becomes of an instrument between two moments: the deltas published in between carry the next sequences and
make up the difference. -/
structure Advances (owner : String) (symbol : Symbol) (feed later : Feed) (deltas : List Delta) : Prop where
  published : later.published owner symbol = feed.published owner symbol ++ deltas
  sequences : deltas.map Prod.fst = List.range' ((feed.manager.instrument symbol).sequence + 1) deltas.length
  sequence : (later.manager.instrument symbol).sequence =
    (feed.manager.instrument symbol).sequence + deltas.length
  levels : (later.manager.instrument symbol).levels = applyDeltas (feed.manager.instrument symbol).levels deltas
  steady : Steady owner symbol later

theorem Advances.refl {feed : Feed} (steady : Steady owner symbol feed) : Advances owner symbol feed feed [] :=
  ⟨(List.append_nil _).symm, rfl, rfl, rfl, steady⟩

theorem Advances.trans {first second third : Feed} {early late : List Delta}
    (one : Advances owner symbol first second early) (two : Advances owner symbol second third late) :
    Advances owner symbol first third (early ++ late) where
  published := by rw [two.published, one.published, List.append_assoc]
  sequences := by
    rw [List.map_append, one.sequences, two.sequences, one.sequence, List.length_append]
    have place : (first.manager.instrument symbol).sequence + early.length + 1 =
        (first.manager.instrument symbol).sequence + 1 + 1 * early.length := by omega
    rw [place, List.range'_append]
  sequence := by rw [two.sequence, one.sequence, List.length_append, Nat.add_assoc]
  levels := by rw [two.levels, one.levels, applyDeltas, applyDeltas, applyDeltas, List.foldl_append]
  steady := two.steady

/-- A send moves a message from one end of what is published to the other. -/
theorem send_published {feed : Feed} (own : ∀ underlying, underlying ≠ owner → deltasOf symbol (feed.pending underlying) = [])
    (underlying : String) :
    (feed.step U (.send underlying)).published owner symbol = feed.published owner symbol ∧
      ∀ other, other ≠ owner → deltasOf symbol ((feed.step U (.send underlying)).pending other) = [] := by
  have moved : deltasOf symbol (feed.pending underlying).head?.toList ++
      deltasOf symbol (feed.pending underlying).tail = deltasOf symbol (feed.pending underlying) := by
    rw [← deltasOf_append]
    cases feed.pending underlying <;> rfl
  constructor
  · simp only [published, Feed.step, deltasOf_append]
    by_cases same : owner = underlying
    · subst same
      rw [Function.update_self, List.append_assoc, moved]
    · rw [Function.update_of_ne same]
      rw [own underlying (Ne.symm same), List.append_eq_nil_iff] at moved
      rw [moved.1, List.append_nil]
  · intro other apart
    by_cases same : other = underlying
    · subst same
      rw [own other apart, List.append_eq_nil_iff] at moved
      simp only [Feed.step, Function.update_self]
      exact moved.2
    · simp only [Feed.step, Function.update_of_ne same]
      exact own other apart

/-- What an idle actor folds is published after everything before it. -/
theorem fold_published {feed : Feed} (own : ∀ underlying, underlying ≠ owner → deltasOf symbol (feed.pending underlying) = [])
    {underlying : String} {event : VenueEvent} (routed : commandSymbol event.command = some symbol → underlying = owner)
    (idle : feed.pending underlying = []) :
    (feed.step U (.commit underlying event)).published owner symbol =
        feed.published owner symbol ++ deltasOf symbol (feed.manager.onCommittedEvent U event).1 ∧
      (feed.step U (.commit underlying event)).manager = (feed.manager.onCommittedEvent U event).2 ∧
      ∀ other, other ≠ owner → deltasOf symbol ((feed.step U (.commit underlying event)).pending other) = [] := by
  have silent : underlying ≠ owner → deltasOf symbol (feed.manager.onCommittedEvent U event).1 = [] :=
    fun apart => (feed.manager.onCommittedEvent_other event U fun named => apart (routed named)).1
  have empty : (feed.pending underlying).isEmpty = true := by rw [idle]; rfl
  unfold Feed.step
  dsimp only
  rw [if_pos empty]
  refine ⟨?_, rfl, fun other apart => ?_⟩
  · by_cases same : owner = underlying
    · subst same
      simp only [published, Function.update_self, idle]
      rw [show deltasOf symbol [] = [] from rfl, List.append_nil]
    · simp only [published, Function.update_of_ne same]
      rw [silent (Ne.symm same), List.append_nil]
  · dsimp only
    by_cases same : other = underlying
    · subst same
      rw [Function.update_self]
      exact silent apart
    · rw [Function.update_of_ne same]
      exact own other apart

theorem send_advances {feed : Feed} (steady : Steady owner symbol feed) (underlying : String) :
    Advances owner symbol feed (feed.step U (.send underlying)) [] := by
  obtain ⟨published, own⟩ := send_published (U := U) steady.own underlying
  exact ⟨published.trans (List.append_nil _).symm, rfl, rfl, rfl, steady.kept, own⟩

/-- A fold publishes at most the next delta. -/
theorem commit_advances {feed : Feed} (steady : Steady owner symbol feed) {underlying : String} {event : VenueEvent}
    (client : ClientFeed U owner symbol [.commit underlying event])
    (room : (feed.manager.instrument symbol).sequence < u64Max) :
    ∃ deltas, Advances owner symbol feed (feed.step U (.commit underlying event)) deltas ∧ deltas.length ≤ 1 := by
  by_cases idle : feed.pending underlying = []
  · obtain ⟨published, manager, own⟩ := fold_published (U := U) steady.own
      (client.routed underlying event (List.mem_singleton_self _)) idle
    by_cases named : commandSymbol event.command = some symbol
    · obtain ⟨deltas, messages, sequences, sequence, levels, kept, few⟩ := feed.manager.onCommittedEvent_client event U
        named (client.client underlying event (List.mem_singleton_self _) named) steady.kept room
      rw [messages] at published
      rw [← manager] at sequence levels kept
      exact ⟨deltas, ⟨published, sequences, sequence, levels, kept, own⟩, few⟩
    · obtain ⟨messages, instrument⟩ := feed.manager.onCommittedEvent_other event U named
      rw [messages] at published
      rw [← manager] at instrument
      refine ⟨[], ⟨published, rfl, ?_, ?_, ?_, own⟩, Nat.zero_le _⟩
      · rw [instrument]
        rfl
      · rw [instrument]
        rfl
      · rw [instrument]
        exact steady.kept
  · have busy : feed.step U (.commit underlying event) = feed := by
      unfold Feed.step
      exact if_neg fun empty => idle (List.isEmpty_iff.1 empty)
    rw [busy]
    exact ⟨[], .refl steady, Nat.zero_le _⟩

theorem step_advances {feed : Feed} {step : FeedStep} (steady : Steady owner symbol feed)
    (client : ClientFeed U owner symbol [step]) (room : (feed.manager.instrument symbol).sequence < u64Max) :
    ∃ deltas, Advances owner symbol feed (feed.step U step) deltas ∧ deltas.length ≤ 1 := by
  cases step with
  | commit underlying event => exact commit_advances steady client room
  | send underlying => exact ⟨[], send_advances steady underlying, Nat.zero_le _⟩

theorem run_advances {feed : Feed} {steps : List FeedStep} (steady : Steady owner symbol feed)
    (client : ClientFeed U owner symbol steps)
    (room : (feed.manager.instrument symbol).sequence + steps.length ≤ u64Max) :
    ∃ deltas, Advances owner symbol feed (feed.run U steps) deltas ∧ deltas.length ≤ steps.length := by
  induction steps generalizing feed with
  | nil => exact ⟨[], .refl steady, Nat.le_refl _⟩
  | cons step rest ih =>
    have alone : ClientFeed U owner symbol [step] := client.subset (by simp)
    have later : ClientFeed U owner symbol rest := client.subset (List.subset_cons_self _ _)
    rw [List.length_cons] at room
    obtain ⟨early, one, few⟩ := step_advances steady alone (by omega)
    obtain ⟨late, two, bound⟩ := ih one.steady later (by rw [one.sequence]; omega)
    refine ⟨early ++ late, one.trans two, ?_⟩
    rw [List.length_append, List.length_cons]
    omega

end Feed

section Follow
variable {symbol : Symbol}

/-- A full-depth snapshot gives its levels back. -/
theorem writeAll_levelData (level : Std.ExtTreeMap Nat Nat) {entries : List (Nat × Nat)}
    (same : entries.Perm level.toList) :
    writeAll PriceLevelData.price PriceLevelData.quantity ∅ (Levels.levelData entries) = level := by
  refine writeAll_eq ?_ fun price qty => ?_
  · rw [Levels.levelData, List.map_map]
    exact (same.map Prod.fst).nodup_iff.2 (nodup_keys level)
  · rw [← Std.ExtTreeMap.mem_toList_iff_getElem?_eq_some, ← same.mem_iff, Levels.levelData]
    constructor
    · intro member
      exact ⟨⟨price, qty⟩, List.mem_map.2 ⟨_, member, rfl⟩, rfl, rfl⟩
    · rintro ⟨data, listed, rfl, rfl⟩
      obtain ⟨entry, member, rfl⟩ := List.mem_map.1 listed
      exact member

theorem followed_snapshot (state : InstrumentState) (deltas : List Delta) :
    followed deltas (state.snapshot symbol none) =
      (applyDeltas state.levels deltas).snapshot symbol ((deltas.map Prod.fst).getLast?.getD state.sequence) none := by
  have bids := writeAll_levelData state.levels.bids (List.reverse_perm state.levels.bids.toList)
  have asks := writeAll_levelData state.levels.asks (List.Perm.refl state.levels.asks.toList)
  simp only [InstrumentState.snapshot, Levels.snapshot, followed, Levels.truncated, bids, asks]

/-- The deltas of a stretch, cut out of all that are published by their sequences. -/
theorem filter_sequences {before between after : List Delta} {start : Nat}
    (early : before.map Prod.fst = List.range' 1 start)
    (middle : between.map Prod.fst = List.range' (start + 1) between.length)
    (late : after.map Prod.fst = List.range' (start + between.length + 1) after.length) :
    (before ++ between ++ after).filter (fun delta => start < delta.1 ∧ delta.1 ≤ start + between.length) =
      between := by
  have out : before.filter (fun delta => start < delta.1 ∧ delta.1 ≤ start + between.length) = [] := by
    refine List.filter_eq_nil_iff.2 fun delta member => ?_
    have place : delta.1 ∈ before.map Prod.fst := List.mem_map_of_mem member
    rw [early, List.mem_range'_1] at place
    simp only [decide_eq_true_eq]
    omega
  have kept : between.filter (fun delta => start < delta.1 ∧ delta.1 ≤ start + between.length) = between := by
    refine List.filter_eq_self.2 fun delta member => ?_
    have place : delta.1 ∈ between.map Prod.fst := List.mem_map_of_mem member
    rw [middle, List.mem_range'_1] at place
    simp only [decide_eq_true_eq]
    omega
  have past : after.filter (fun delta => start < delta.1 ∧ delta.1 ≤ start + between.length) = [] := by
    refine List.filter_eq_nil_iff.2 fun delta member => ?_
    have place : delta.1 ∈ after.map Prod.fst := List.mem_map_of_mem member
    rw [late, List.mem_range'_1] at place
    simp only [decide_eq_true_eq]
    omega
  rw [List.filter_append, List.filter_append, out, kept, past, List.nil_append, List.append_nil]

end Follow

namespace Feed

/-- The published deltas after an earlier moment up to a later one. -/
def between (symbol : Symbol) (first second last : Feed) : List Delta :=
  (deltasOf symbol last.sent).filter fun delta =>
    (first.manager.instrument symbol).sequence < delta.1 ∧ delta.1 ≤ (second.manager.instrument symbol).sequence

/-- Once the instrument's actor has sent what it folded, a consumer that joined at one moment holds the book of any
later moment; and at any moment the published sequences have no gap and no repeat. -/
structure Bridged (owner : String) (symbol : Symbol) (first second last : Feed) : Prop where
  caughtUp : last.pending owner = [] →
    followed (between symbol first second last) (first.manager.orderbookSnapshot symbol none) =
      second.manager.orderbookSnapshot symbol none
  gapless : (deltasOf symbol last.sent).map Prod.fst = List.range' 1 (deltasOf symbol last.sent).length

variable {U : Upstream} {owner : String} {symbol : Symbol}

theorem Advances.followed {feed later : Feed} {deltas : List Delta} (advances : Advances owner symbol feed later deltas) :
    followed deltas (feed.manager.orderbookSnapshot symbol none) = later.manager.orderbookSnapshot symbol none := by
  have place : (deltas.map Prod.fst).getLast?.getD (feed.manager.instrument symbol).sequence =
      (later.manager.instrument symbol).sequence := by
    rw [advances.sequences, advances.sequence, List.getLast?_range']
    split
    next none => simp [none]
    next some => simp
  rw [OrderbookSubscriptionManager.orderbookSnapshot, followed_snapshot, place, ← advances.levels]
  rfl

/-- Any interleaving of the actors' folds and sends bridges its moments. -/
theorem run_bridged (before between after : List FeedStep)
    (client : ClientFeed U owner symbol (before ++ between ++ after))
    (room : (before ++ between ++ after).length ≤ u64Max) :
    Bridged owner symbol (new.run U before) ((new.run U before).run U between)
      (((new.run U before).run U between).run U after) := by
  simp only [List.length_append] at room
  have start : ((new.manager).instrument symbol).sequence = 0 := rfl
  obtain ⟨early, one, few⟩ := @run_advances U owner symbol new before steady_new
    (client.subset (by simp)) (by omega)
  have first := one.sequence
  obtain ⟨middle, two, some⟩ := @run_advances U owner symbol (new.run U before) between one.steady
    (client.subset (by simp)) (by omega)
  have second := two.sequence
  obtain ⟨late, three, -⟩ := @run_advances U owner symbol ((new.run U before).run U between) after two.steady
    (client.subset (by simp)) (by omega)
  have all := (one.trans two).trans three
  have published := all.published
  rw [show new.published owner symbol = [] from rfl, List.nil_append] at published
  have sequences := all.sequences
  rw [start, Nat.zero_add] at sequences first
  constructor
  · intro idle
    have sent : deltasOf symbol (((new.run U before).run U between).run U after).sent = early ++ middle ++ late := by
      rw [← published, Feed.published, idle]
      exact (List.append_nil _).symm
    have cut : Feed.between symbol (new.run U before) ((new.run U before).run U between)
        (((new.run U before).run U between).run U after) = middle := by
      rw [Feed.between, sent, second]
      refine filter_sequences ?_ two.sequences ?_
      · rw [one.sequences, start, first]
      · rw [three.sequences, second]
    rw [cut]
    exact two.followed
  · -- what is sent is a prefix of what is published
    rw [← published, Feed.published, List.map_append] at sequences
    obtain ⟨count, -, sent, -⟩ := List.range'_eq_append_iff.1 sequences.symm
    have length := congrArg List.length sent
    rw [List.length_map, List.length_range'] at length
    rw [sent, length]

/-- The bid of an account, and its cancel. -/
def joinedSteps : List FeedStep × List FeedStep × List FeedStep :=
  ([.commit "BTC" (.new 0 1 (.addOrder ⟨"BTC-20351231-50000-C", "a", "acct-1", 7, none, .buy, .limit, some 100, 5, .gtc,
      .none⟩) (.added [] 5 []))],
    [.send "BTC", .commit "BTC" (.new 1 2 (.cancelOrder "BTC-20351231-50000-C" "a" "acct-1") (.cancelled "a"))],
    [.send "BTC"])

/-- A consumer joins between the fold of the bid and its broadcast, and again before the broadcast of the cancel. -/
theorem joined_between_fold_and_send :
    Bridged "BTC" "BTC-20351231-50000-C" (new.run referenceUpstream joinedSteps.1)
        ((new.run referenceUpstream joinedSteps.1).run referenceUpstream joinedSteps.2.1)
        (((new.run referenceUpstream joinedSteps.1).run referenceUpstream joinedSteps.2.1).run referenceUpstream
          joinedSteps.2.2) ∧
      (((new.run referenceUpstream joinedSteps.1).run referenceUpstream joinedSteps.2.1).run referenceUpstream
        joinedSteps.2.2).pending "BTC" = [] := by
  refine ⟨run_bridged joinedSteps.1 joinedSteps.2.1 joinedSteps.2.2 ⟨?_, ?_⟩ (by decide), by decide⟩
  · intro underlying event member named
    simp only [joinedSteps, List.cons_append, List.nil_append, List.mem_cons, FeedStep.commit.injEq, reduceCtorEq,
      List.not_mem_nil, or_false, false_or] at member
    rcases member with ⟨rfl, -⟩ | ⟨rfl, -⟩ <;> rfl
  · intro underlying event member named
    simp only [joinedSteps, List.cons_append, List.nil_append, List.mem_cons, FeedStep.commit.injEq, reduceCtorEq,
      List.not_mem_nil, or_false, false_or] at member
    rcases member with ⟨-, rfl⟩ | ⟨-, rfl⟩ <;> rfl

end Feed

end Fauxchange.MarketData
