import Fauxchange.Exchange.OracleCoverage
import Fauxchange.Exchange.TakerLegs
import Fauxchange.Venue.FloorAnswers
import Fauxchange.Venue.OrderIds

/-! The order ids of a floor. An id that the venue mints stands for one underlying: over any turns, no actor has an order
in its registry whose id is minted for another one. So the taker legs that the executions store lists under an order id
and a sequence are those of the one event that has placed the order. -/

namespace Fauxchange.Exchange

/-- A cancel that is not refused has found the order in the registry. -/
theorem SequencedState.executeCancel_names {U : Upstream} {state : SequencedState U} {symbol : Symbol}
    {orderId : VenueOrderId} {account : AccountId}
    (taken : ∀ kind reason, (state.executeCancel symbol orderId account).1 ≠ .rejected kind reason) :
    state.registry.Names orderId := by
  intro absent
  have refused : (state.executeCancel symbol orderId account).1 = .rejected .notFound "order not found" := by
    unfold executeCancel
    split
    · rfl
    · rw [absent]
  exact taken _ _ refused

/-- The legs of a sweep name contracts of the book. -/
theorem SequencedState.cancelTargets_symbols {U : Upstream} {state : SequencedState U}
    {targets : List (Nat × RestingRecord)} :
    ∀ leg ∈ (state.cancelTargets targets).1, underlyingOf U leg.symbol = some state.underlyingBook.underlying := by
  induction targets generalizing state with
  | nil => exact List.forall_mem_nil _
  | cons target rest ih =>
    obtain ⟨engineId, record⟩ := target
    unfold cancelTargets
    split
    · exact ih
    next address leaf resolved =>
      split
      next after cancelled =>
        refine List.forall_mem_cons.2 ⟨?_, ih⟩
        unfold UnderlyingOrderBook.resolveLeafRead at resolved
        unfold underlyingOf massCancelLeg
        split at resolved
        · cases resolved
        next parsed shape =>
          split at resolved
          · cases resolved
          next equal =>
            rw [shape, ← Decidable.not_not.1 equal]
            rfl
      · exact ih

section Runs
variable {U : Upstream} (underlying : String) (lineage : LineageId)

/-- Re-executed commands name what they bring. -/
theorem reexecute_names {commands : List JournalCommand} {executor : MatchingExecutor U} {orderId : VenueOrderId}
    (named : (reexecute underlying lineage executor commands).2.state.registry.Names orderId) :
    executor.state.registry.Names orderId ∨ ∃ command ∈ commands, command.command.placedId = some orderId := by
  induction commands generalizing executor with
  | nil => exact Or.inl named
  | cons command rest ih =>
    rcases ih named with first | ⟨later, member, placed⟩
    · rcases (deriveEvent_registry underlying lineage executor command).names first with before | placed
      · exact Or.inl before
      · exact Or.inr ⟨command, List.mem_cons_self, placed⟩
    · exact Or.inr ⟨later, List.mem_cons_of_mem _ member, placed⟩

end Runs

end Fauxchange.Exchange

namespace Fauxchange.Venue
open Exchange Lib UnderlyingActor

/-- The ids of the market maker's quotes are of another form than the minted ones. -/
theorem quote_ne_mintedId (lineage : LineageId) (sequence : Nat) (underlying : String) (index : Nat) :
    lineage ++ ":MM:" ++ toString sequence ≠ mintedId lineage underlying index := by
  intro same
  have texts := congrArg String.toList same
  simp only [mintedId, String.toList_append, List.append_assoc] at texts
  have tails := List.append_cancel_left texts
  have minted : 'g' ∈ ":MM:".toList ++ (toString sequence).toList := by
    rw [tails]
    simp
  rcases List.mem_append.1 minted with sign | digits
  · revert sign
    decide
  · exact toList_toString_free (by decide) sequence digits

/-- An order id that is minted for no underlying but this one. -/
def HomedAt (lineage : LineageId) (underlying : String) (orderId : VenueOrderId) : Prop :=
  ∀ other index, orderId = mintedId lineage other index → other = underlying

/-- What the producers of a venue bring to an underlying: an order under an id that is minted for it, a quote without a
client order id and under an id of another form, or no order. -/
inductive BroughtTo (lineage : LineageId) (underlying : String) (command : VenueCommand) : Prop where
  | minted (index : Nat) (placed : command.placedId = some (mintedId lineage underlying index))
  | quoted (order : AddOrder) (adds : command = .addOrder order) (unnamed : order.clientOrderId = none)
      (foreign : ∀ other index, order.orderId ≠ mintedId lineage other index)
  | nothing (idle : command.placedId = none)

namespace BroughtTo
variable {lineage : LineageId} {underlying : String} {command : VenueCommand}

theorem homed (brings : BroughtTo lineage underlying command) {orderId : VenueOrderId}
    (placed : command.placedId = some orderId) : HomedAt lineage underlying orderId := by
  intro other index same
  subst same
  cases brings with
  | minted own brought => exact (mintedId_inj (Option.some.inj (brought.symm.trans placed))).1.symm
  | quoted order adds unnamed foreign =>
    subst adds
    exact absurd (Option.some.inj placed) (foreign other index)
  | nothing idle =>
    rw [idle] at placed
    cases placed

/-- An order that has a client order id has a minted id. -/
theorem written {event : VenueEvent} (brings : BroughtTo lineage underlying event.command) {account : AccountId}
    {clOrdId : ClientOrderId} {record : ClOrdIdRecord}
    (written : ((account, clOrdId), some record) ∈ correlationWrites event) :
    ∃ index, record.orderId = mintedId lineage underlying index := by
  have places : event.command.placedId = some record.orderId ∧
      ∀ order, event.command = .addOrder order → order.clientOrderId ≠ none := by
    rcases written_by written with ⟨placed, adds, -, -, named, rfl⟩ | ⟨amended, replaces, rfl⟩
    · rw [adds]
      refine ⟨rfl, fun order same => ?_⟩
      cases same
      rw [named]
      simp
    · rw [replaces]
      exact ⟨rfl, fun order same => by cases same⟩
  cases brings with
  | minted index brought => exact ⟨index, Option.some.inj (places.1.symm.trans brought)⟩
  | quoted order adds unnamed foreign => exact absurd unnamed (places.2 order adds)
  | nothing idle =>
    rw [idle] at places
    cases places.1

end BroughtTo

/-- The commands of the streams are those that the venue's producers bring. -/
def HomedStreams (streams : String → Option Stream) : Prop :=
  ∀ underlying stream, streams underlying = some stream → ∀ command : JournalCommand,
    .command command ∈ stream.records → BroughtTo stream.lineageId underlying command.command

section Turns
variable {U : Upstream} {actor : VenueActor U} {input : Submission}

/-- An actor that has answered has projected its event. -/
theorem handle_answered_projects {receipt : Receipt} (answered : (actor.handle input).1 = .ok receipt) :
    (actor.handle input).2.sealed ≠ some .projectionFailed := by
  have turn := actor.handle_turn input
  generalize actor.handle input = result at turn answered ⊢
  obtain ⟨reply, last⟩ := result
  cases turn with
  | refused => cases answered
  | reused => cases answered
  | eventLost => cases answered
  | projectionFailed => cases answered
  | committed journal last fanOut before ahead stored emitted =>
    intro failed
    have opened := (advance_frame { ({ actor with journal := last, executor :=
      (actor.derived input).2 }.publish (actor.derived input).1) with fanOut := fanOut }).2.2
    have wrong : actor.sealed = some .projectionFailed := opened failed
    rw [before] at wrong
    cases wrong

end Turns

namespace Floor
variable {U : Upstream} {floor : Floor U} {underlying : String} {input : Submission}

theorem turn_lineageId (floor : Floor U) (underlying : String) (input : Submission) :
    (floor.turn underlying input).2.lineageId = floor.lineageId := by
  unfold turn
  split <;> rfl

/-- A turn journals one event or none. -/
theorem Accounted.journals (accounted : floor.Accounted) (underlying : String) (input : Submission) :
    (floor.turn underlying input).2.journaled = floor.journaled ∨ ∃ event, event.command = input.command ∧
      (floor.turn underlying input).2.journaled = floor.journaled ++ [(underlying, event)] := by
  cases held : floor.actors underlying with
  | none =>
    rw [turn_absent held]
    exact Or.inl rfl
  | some actor =>
    rcases accounted.turned held input with idle | committed
    · exact Or.inl idle.journaled
    · exact Or.inr ⟨_, rfl, committed.journaled⟩

/-- The order ids of the journaled commands, and those that the open actors have in their registries, stand for the
underlyings that they are found at. -/
structure Homed (floor : Floor U) : Prop where
  brought : ∀ entry ∈ floor.journaled, BroughtTo floor.lineageId entry.1 entry.2.command
  named : ∀ underlying actor, floor.actors underlying = some actor → actor.sealed = none → ∀ orderId,
    actor.executor.state.registry.Names orderId → HomedAt floor.lineageId underlying orderId

theorem Homed.turn (homed : floor.Homed) (accounted : floor.Accounted)
    (brings : BroughtTo floor.lineageId underlying input.command) : (floor.turn underlying input).2.Homed := by
  have lineage := floor.turn_lineageId underlying input
  cases held : floor.actors underlying with
  | none =>
    rw [turn_absent held]
    exact homed
  | some actor =>
    rcases accounted.turned held input with idle | committed
    · constructor
      · rw [idle.journaled, lineage]
        exact homed.brought
      · rw [lineage]
        intro other last present opened orderId named
        rcases seat_cases idle.actors present with ⟨rfl, rfl⟩ | ⟨-, before⟩
        · obtain ⟨open', same⟩ := idle.opened opened
          rw [same] at named
          exact homed.named other actor held open' orderId named
        · exact homed.named other last before opened orderId named
    · constructor
      · rw [committed.journaled, lineage]
        intro entry member
        rcases List.mem_append.1 member with old | new
        · exact homed.brought entry old
        · obtain rfl := List.mem_singleton.1 new
          exact brings
      · rw [lineage]
        intro other last present opened orderId named
        rcases seat_cases committed.actors present with ⟨rfl, rfl⟩ | ⟨-, before⟩
        · rw [committed.executor] at named
          rcases (deriveEvent_registry other floor.lineageId actor.executor _).names named with before | placed
          · exact homed.named other actor held committed.opened orderId before
          · exact brings.homed placed
        · exact homed.named other last before opened orderId named

theorem homed_boot {config : BootConfig} {streams : String → Option Stream} (homes : HomedStreams streams)
    (booted : Floor.boot U config streams = .ok floor) : floor.Homed := by
  obtain ⟨probed, start⟩ := Floor.booted_from booted
  -- what a recovered underlying has executed is in its stream
  have brought : ∀ entry ∈ recoveredOf probed, ∃ stream : Stream, (entry.1, some (stream, entry.2)) ∈ probed ∧
      reexecute entry.1 floor.lineageId
        (freshExecutor U entry.1 (some config.microstructure) none config.hashOrder)
        (commandRecordsInOrder stream.records) = (entry.2.events, entry.2.executor) ∧
      ∀ command ∈ commandRecordsInOrder stream.records, BroughtTo floor.lineageId entry.1 command.command := by
    intro entry member
    obtain ⟨stream, listed, held, same, done⟩ := start.found entry member
    have executed := reduceIntoExecutor_executor entry.1 stream.lineageId done
    rw [same] at executed
    refine ⟨stream, listed, executed, fun command among => ?_⟩
    obtain ⟨record, durable, shape⟩ := List.mem_filterMap.1 (mem_commandRecordsInOrder.1 among)
    rw [JournalRecord.asCommand?_eq_some] at shape
    subst shape
    rw [← same]
    exact homes entry.1 stream held command durable
  constructor
  · intro entry member
    rw [start.journaled] at member
    obtain ⟨recovered, listed, derived⟩ := mem_recoveredEvents.1 member
    obtain ⟨stream, -, executed, brings⟩ := brought _ listed
    have answered := reexecute_envelopes entry.1 floor.lineageId
      (freshExecutor U entry.1 (some config.microstructure) none config.hashOrder) (commandRecordsInOrder stream.records)
    rw [executed] at answered
    exact brings entry.2.envelope (answered ▸ List.mem_map_of_mem derived)
  · intro underlying actor present opened orderId named
    obtain ⟨found, probe, spawned⟩ := start.hosted underlying actor present
    cases found with
    | none =>
      have fresh : actor = freshActor U config floor.lineageId underlying := spawned
      subst fresh
      exact absurd (Std.ExtTreeMap.getElem?_empty) named
    | some pair =>
      obtain ⟨stream, recovered⟩ := pair
      obtain ⟨other, listed, executed, brings⟩ := brought (underlying, recovered) (recoveredOf_entry.2 ⟨stream, probe⟩)
      obtain ⟨-, -, executor, -⟩ := recoveredActor_spawned spawned
      rw [executor] at named
      have named : (reexecute underlying floor.lineageId
          (freshExecutor U underlying (some config.microstructure) none config.hashOrder)
          (commandRecordsInOrder other.records)).2.state.registry.Names orderId := by
        rw [executed]
        exact named
      rcases reexecute_names underlying floor.lineageId named with before | ⟨command, among, placed⟩
      · exact absurd (Std.ExtTreeMap.getElem?_empty) before
      · exact (brings command among).homed placed

/-- A cancel that an actor has taken was of an order of its underlying. -/
theorem Homed.cancelled (homed : floor.Homed) {symbol : Symbol} {orderId : VenueOrderId} {account : AccountId}
    {receipt : Receipt} (cancels : input.command = .cancelOrder symbol orderId account)
    (answered : (floor.turn underlying input).1 = .ok receipt)
    (taken : ∀ kind reason, receipt.outcome ≠ some (.rejected kind reason)) :
    HomedAt floor.lineageId underlying orderId := by
  obtain ⟨actor, held, opened, same⟩ := turn_answered answered
  have executed : (actor.executor.state.execute actor.executor.hashOrder
      (((floor.lend actor).envelope input).context actor.underlying actor.lineageId)).1 =
        (actor.executor.state.executeCancel symbol orderId account).1 := by
    unfold SequencedState.execute
    rw [show (((floor.lend actor).envelope input).context actor.underlying actor.lineageId).command =
      .cancelOrder symbol orderId account from cancels]
  rw [executed] at same
  have found : ∀ kind reason, (actor.executor.state.executeCancel symbol orderId account).1 ≠ .rejected kind reason := by
    intro kind reason refused
    refine taken kind reason ?_
    rw [same, refused]
    rfl
  exact homed.named underlying actor held opened orderId (SequencedState.executeCancel_names found)

/-- The legs of a sweep that an actor has taken name contracts of its underlying. -/
theorem Answering.swept (answering : floor.Answering) {scope : MassCancelScope} {cancelType : MassCancelType}
    {account : AccountId} {receipt : Receipt} {affected : List CancelledLeg}
    (sweeps : input.command = .massCancel scope cancelType account)
    (answered : (floor.turn underlying input).1 = .ok receipt)
    (swept : receipt.outcome = some (.massCancelled affected)) :
    ∀ leg ∈ affected, underlyingOf U leg.symbol = some underlying := by
  obtain ⟨actor, held, -, same⟩ := turn_answered answered
  rw [same] at swept
  have outcome := Option.some.inj swept
  unfold SequencedState.execute at outcome
  rw [show (((floor.lend actor).envelope input).context actor.underlying actor.lineageId).command =
    .massCancel scope cancelType account from sweeps] at outcome
  dsimp only at outcome
  unfold SequencedState.executeMassCancel at outcome
  rw [← answering.homed underlying actor held]
  split at outcome
  · cases outcome
  · obtain rfl := VenueOutcome.massCancelled.inj outcome
    exact SequencedState.cancelTargets_symbols

/-- The executions store lists the legs of an event. -/
def Lists (floor : Floor U) (event : VenueEvent) : Prop :=
  ∀ leg ∈ storeLegs U event, leg.record ∈ floor.executions.list leg.record.account ⟨none, none⟩

/-- A store that has recorded legs of different keys lists them. -/
theorem mem_list_recorded {store : InMemoryExecutionsStore} {taken : List StoreLeg}
    (distinct : (taken.map fun leg => leg.record.key).Nodup)
    (recorded : store = InMemoryExecutionsStore.new.recordAll (taken.map StoreLeg.record)) {record : ExecutionRecord}
    {account : AccountId} :
    record ∈ store.list account ⟨none, none⟩ ↔ record.account = account ∧ ∃ leg ∈ taken, leg.record = record := by
  have keys : ((taken.map StoreLeg.record).map ExecutionRecord.key).Nodup := by
    rw [List.map_map]
    exact distinct
  rw [recorded, (InMemoryExecutionsStore.list_recordAll_perm keys account).mem_iff, List.mem_filter, List.mem_map,
    decide_eq_true_eq, and_comm]

/-- What the executions store takes in over a turn: it keeps what it had, and it has all legs of an event whose turn is
answered. -/
theorem Accounted.stores (accounted : floor.Accounted) (laws : MatchLaws U) (underlying : String) (input : Submission) :
    ∃ early late : List StoreLeg,
      floor.executions = InMemoryExecutionsStore.new.recordAll (early.map StoreLeg.record) ∧
      (floor.turn underlying input).2.executions =
        InMemoryExecutionsStore.new.recordAll ((early ++ late).map StoreLeg.record) ∧
      ((early ++ late).map fun leg => leg.record.key).Nodup ∧
      ∀ receipt, (floor.turn underlying input).1 = .ok receipt → ∃ event,
        (floor.turn underlying input).2.journaled = floor.journaled ++ [(underlying, event)] ∧
          event.command = input.command ∧
          receipt = .committed event.underlyingSequence input.venueTs event.outcome ∧ storeLegs U event ⊆ late := by
  obtain ⟨early, listed, recorded, -⟩ := accounted.recorded
  have keys := (accounted.turn underlying input).keys laws
  cases held : floor.actors underlying with
  | none =>
    rw [turn_absent held] at keys ⊢
    refine ⟨early, [], recorded, by rw [List.append_nil]; exact recorded, ?_, fun receipt answered => ?_⟩
    · rw [List.append_nil]
      exact keys.sublist (listed.map _)
    · unfold Floor.turn at answered
      rw [held] at answered
      cases answered
  | some actor =>
    have reply : (floor.turn underlying input).1 = ((floor.lend actor).handle input).1 := by rw [turn_hosted held]
    have legs : ∀ fresh, (floor.turn underlying input).2.journaled = floor.journaled ++ fresh →
        (floor.turn underlying input).2.legs = floor.legs ++ fresh.flatMap fun entry => storeLegs U entry.2 := by
      intro fresh journaled
      unfold Floor.legs
      rw [journaled, List.flatMap_append]
    rcases accounted.turned held input with idle | committed
    · rw [legs [] (by rw [idle.journaled, List.append_nil]), List.flatMap_nil, List.append_nil] at keys
      refine ⟨early, [], recorded, ?_, ?_, fun receipt answered => ?_⟩
      · rw [idle.executions, List.append_nil]
        exact recorded
      · rw [List.append_nil]
        exact keys.sublist (listed.map _)
      · rw [reply] at answered
        have commits := (handle_answered answered).1
        have grown : (floor.turn underlying input).2.journaled = floor.journaled ++ [(underlying,
            ((floor.lend actor).derived input).1)] := by
          rw [turn_hosted held, if_pos commits]
        rw [idle.journaled] at grown
        exact absurd (List.self_eq_append_right.1 grown) (List.cons_ne_nil _ _)
    · obtain ⟨late, first, stored, whole⟩ := committed.recorded
      rw [legs _ committed.journaled, List.flatMap_singleton] at keys
      refine ⟨early, late, recorded, ?_, keys.sublist ((listed.append first.sublist).map _), fun receipt answered => ?_⟩
      · rw [stored, recorded, List.map_append, recordAll_append]
      · rw [reply] at answered
        refine ⟨_, committed.journaled, rfl, (handle_answered answered).2.trans ?_, ?_⟩
        · obtain ⟨own, lineage⟩ := accounted.named underlying actor held
          rw [← own, ← lineage]
          rfl
        · rw [whole (handle_answered_projects answered)]
          exact List.Subset.refl _

theorem Accounted.lists (accounted : floor.Accounted) (laws : MatchLaws U) {event : VenueEvent} (lists : floor.Lists event)
    (underlying : String) (input : Submission) : (floor.turn underlying input).2.Lists event := by
  obtain ⟨early, late, before, after, keys, -⟩ := accounted.stores laws underlying input
  intro leg brought
  rw [mem_list_recorded keys after]
  rw [List.map_append] at keys
  obtain ⟨-, other, among, same⟩ := (mem_list_recorded (List.nodup_append.1 keys).1 before).1 (lists leg brought)
  exact ⟨rfl, other, List.mem_append_left _ among, same⟩

/-- An answered turn has journaled its event, and its legs are listed. -/
theorem Accounted.answered (accounted : floor.Accounted) (laws : MatchLaws U) {receipt : Receipt}
    (answered : (floor.turn underlying input).1 = .ok receipt) : ∃ event,
      (floor.turn underlying input).2.journaled = floor.journaled ++ [(underlying, event)] ∧
        event.command = input.command ∧ receipt = .committed event.underlyingSequence input.venueTs event.outcome ∧
          (floor.turn underlying input).2.Lists event := by
  obtain ⟨early, late, -, after, keys, told⟩ := accounted.stores laws underlying input
  obtain ⟨event, journaled, command, same, brought⟩ := told receipt answered
  refine ⟨event, journaled, command, same, fun leg member => ?_⟩
  rw [mem_list_recorded keys after]
  exact ⟨rfl, leg, List.mem_append_right _ (brought member), rfl⟩

/-- The fills of a journaled event: those of the taker are numbered from zero on, the maker's have the same ids, and the
taker's order and account are those that the command places. -/
structure Numbered (lineage : LineageId) (underlying : String) (event : VenueEvent) : Prop where
  takers : (takerFills (outcomeFills event.outcome)).map Fill.executionId =
    (List.range (takerFills (outcomeFills event.outcome)).length).map
      (lineage.executionId underlying event.underlyingSequence)
  below : ∀ fill ∈ outcomeFills event.outcome, ∃ index < (takerFills (outcomeFills event.outcome)).length,
    fill.executionId = lineage.executionId underlying event.underlyingSequence index
  own : ∀ fill ∈ outcomeFills event.outcome, fill.liquidity = .taker →
    event.command.placedId = some fill.orderId ∧ event.command.placingAccount = some fill.account

theorem Accounted.numbered (accounted : floor.Accounted) (laws : MatchLaws U) {event : VenueEvent}
    (member : (underlying, event) ∈ floor.journaled) : Numbered floor.lineageId underlying event := by
  obtain ⟨executor, command, derived⟩ := accounted.derived _ member
  obtain rfl : event = (deriveEvent underlying floor.lineageId executor command).1 := derived
  have captures := SequencedState.execute_captures executor.hashOrder executor.state
    (command.context underlying floor.lineageId) laws.wraps
  obtain ⟨numbers, below⟩ := captures.numbered
  have count := congrArg List.length numbers
  rw [List.length_map, List.length_map, List.length_range] at count
  rw [← count] at numbers below
  exact ⟨numbers, below, SequencedState.execute_takers executor.hashOrder executor.state _⟩

theorem mem_storeLegs {event : VenueEvent} {leg : StoreLeg} (brought : leg ∈ storeLegs U event) :
    ∃ symbol home, ∃ fill ∈ outcomeFills event.outcome, leg = storeLeg event symbol home fill := by
  unfold storeLegs at brought
  split at brought
  · cases brought
  next symbol _ =>
    split at brought
    · cases brought
    next home _ =>
      obtain ⟨fill, filled, same⟩ := List.mem_map.1 brought
      exact ⟨symbol, home, fill, filled, same.symm⟩

/-- An id of a journaled event whose index is above those of its trades is the id of no fill. -/
theorem Accounted.above_fills (accounted : floor.Accounted) (laws : MatchLaws U) {event : VenueEvent}
    (member : (underlying, event) ∈ floor.journaled) {index : Nat}
    (above : (takerFills (outcomeFills event.outcome)).length ≤ index) :
    ∀ fill ∈ floor.fills, fill.executionId ≠ floor.lineageId.executionId underlying event.underlyingSequence index := by
  intro fill filled same
  obtain ⟨entry, journaled, here⟩ := List.mem_flatMap.1 filled
  obtain ⟨place, low, named⟩ := (accounted.numbered laws journaled).below fill here
  obtain ⟨home, sequence, equal⟩ := LineageId.executionId_inj (named.symm.trans same)
  have one : entry = (underlying, event) := List.inj_on_of_nodup_map accounted.once journaled member
    (Prod.ext home sequence)
  subst one
  exact absurd (equal ▸ above) (Nat.not_le.2 low)

/-- What the store lists under a minted order id and the sequence that has placed the order are the taker's legs of that
event. -/
theorem Homed.takerLegs (homed : floor.Homed) (accounted : floor.Accounted) (laws : MatchLaws U) {event : VenueEvent}
    (member : (underlying, event) ∈ floor.journaled) (lists : floor.Lists event) {account : AccountId} {index : Nat}
    (placed : event.command.placedId = some (mintedId floor.lineageId underlying index))
    (placing : event.command.placingAccount = some account) :
    (((floor.executions.list account ⟨none, none⟩).filter fun record =>
      record.orderId = mintedId floor.lineageId underlying index ∧
        record.underlyingSequence = event.underlyingSequence ∧ record.liquidity = .taker).map
          ExecutionRecord.executionId).Perm ((takerFills (outcomeFills event.outcome)).map Fill.executionId) := by
  obtain ⟨taken, sub, recorded, -⟩ := accounted.recorded
  have keys : (taken.map fun leg => leg.record.key).Nodup := (accounted.keys laws).sublist (sub.map _)
  obtain ⟨executor, command, derived⟩ := accounted.derived _ member
  obtain ⟨symbol, home, own⟩ := deriveEvent_legs underlying floor.lineageId executor command
  have apart := (@deriveEvent_legs_keys U laws floor.lineageId underlying executor command).1
  have derived : event = (deriveEvent underlying floor.lineageId executor command).1 := derived
  rw [← derived] at own apart
  have distinct : ((storeLegs U event).map StoreLeg.record).Nodup := by
    refine List.Nodup.of_map ExecutionRecord.key ?_
    rw [List.map_map]
    exact apart
  have takers : (takerFills (outcomeFills event.outcome)).map Fill.executionId =
      ((((storeLegs U event).map StoreLeg.record).filter fun record => record.liquidity = .taker).map
        ExecutionRecord.executionId) := by
    rw [own, List.map_map, List.filter_map, List.map_map]
    rfl
  rw [takers]
  refine List.Perm.map _ ((List.perm_ext_iff_of_nodup ?_ (distinct.filter _)).2 fun record => ?_)
  · have recordKeys : ((taken.map StoreLeg.record).map ExecutionRecord.key).Nodup := by
      rw [List.map_map]
      exact keys
    have listed := InMemoryExecutionsStore.list_recordAll_perm recordKeys account
    rw [← recorded] at listed
    refine List.Nodup.filter _ (listed.nodup_iff.2 (List.Nodup.filter _ ?_))
    exact List.Nodup.of_map ExecutionRecord.key recordKeys
  · rw [List.mem_filter, List.mem_filter, mem_list_recorded keys recorded, decide_eq_true_eq, decide_eq_true_eq, List.mem_map]
    constructor
    · rintro ⟨⟨-, leg, among, rfl⟩, named, sequence, taker⟩
      obtain ⟨entry, journaled, found⟩ := List.mem_flatMap.1 (sub.subset among)
      obtain ⟨_, _, fill, filled, rfl⟩ := mem_storeLegs found
      -- the order of the leg is placed at its event's underlying, and minted for this one
      have places := ((accounted.numbered laws journaled).own fill filled taker).1
      have here : underlying = entry.1 := (homed.brought entry journaled).homed places underlying index named
      have same : entry = (underlying, event) := List.inj_on_of_nodup_map accounted.once journaled member
        (Prod.ext here.symm sequence)
      subst same
      exact ⟨⟨_, found, rfl⟩, taker⟩
    · rintro ⟨⟨leg, found, rfl⟩, taker⟩
      obtain ⟨-, other, among, same⟩ := (mem_list_recorded keys recorded).1 (lists leg found)
      obtain ⟨_, _, fill, filled, rfl⟩ := mem_storeLegs found
      obtain ⟨order, holder⟩ := (accounted.numbered laws member).own fill filled taker
      refine ⟨⟨Option.some.inj (holder.symm.trans placing), other, among, same⟩, ?_, rfl, taker⟩
      exact Option.some.inj (order.symm.trans placed)

end Floor

end Fauxchange.Venue
