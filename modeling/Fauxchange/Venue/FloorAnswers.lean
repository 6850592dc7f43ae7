import Fauxchange.Exchange.Answers
import Fauxchange.Venue.FloorRuns

/-! What a floor knows of its placements. Over any turns, the index record of a client order id is what a journaled event
has written, the executor of the event's underlying answers for the placement, and the executions store has its fills. -/

namespace Fauxchange.Exchange.ClOrdIdIndex
open Lib

theorem resolve_of_write {index : ClOrdIdIndex} {entry : ClientKey × Option ClOrdIdRecord} {key : ClientKey}
    {record : ClOrdIdRecord} (held : (index.write entry).map[key]? = some record) :
    entry = (key, some record) ∨ index.map[key]? = some record := by
  obtain ⟨⟨account, clOrdId⟩, value⟩ := entry
  cases value with
  | none =>
    unfold write retire at held
    dsimp only at held
    have kept : ∀ count : Option Nat, (index.map.erase (account, clOrdId))[key]? = some record →
        index.map[key]? = some record := by
      intro count erased
      rw [Std.ExtTreeMap.getElem?_erase] at erased
      split at erased
      · cases erased
      · exact erased
    split at held
    · split at held
      · exact Or.inr (kept none held)
      · split at held
        · exact Or.inr (kept none held)
        · exact Or.inr (kept none held)
    · exact Or.inr held
  | some written =>
    change (index.record account clOrdId written).2.map[key]? = _ at held
    have inserted : (index.map.insert (account, clOrdId) written)[key]? = some record →
        ((account, clOrdId), some written) = (key, some record) ∨ index.map[key]? = some record := by
      intro found
      rw [Std.ExtTreeMap.getElem?_insert] at found
      split at found
      next same =>
        rw [pairCompare_eq_iff] at same
        exact Or.inl (Prod.ext same found)
      · exact Or.inr found
    unfold ClOrdIdIndex.record at held
    split at held
    · exact inserted held
    · split at held
      · exact Or.inr held
      · dsimp only at held
        split at held
        · exact Or.inr held
        · exact inserted held

/-- A record that an index resolves to was there, or an event has written it. -/
theorem resolve_of_publishAll {index : ClOrdIdIndex} {events : List VenueEvent} {key : ClientKey} {record : ClOrdIdRecord}
    (held : (index.publishAll events).map[key]? = some record) :
    (∃ event ∈ events, (key, some record) ∈ correlationWrites event) ∨ index.map[key]? = some record := by
  have written : ∀ (writes : List (ClientKey × Option ClOrdIdRecord)) (index : ClOrdIdIndex),
      (writes.foldl write index).map[key]? = some record → (key, some record) ∈ writes ∨ index.map[key]? = some record := by
    intro writes
    induction writes with
    | nil => exact fun _ found => Or.inr found
    | cons entry rest ih =>
      intro index found
      rcases ih (index.write entry) found with later | here
      · exact Or.inl (List.mem_cons_of_mem _ later)
      · rcases resolve_of_write here with rfl | before
        · exact Or.inl List.mem_cons_self
        · exact Or.inr before
  rw [publishAll_eq] at held
  rcases written _ index held with listed | before
  · exact Or.inl (List.mem_flatMap.1 listed)
  · exact Or.inr before

end Fauxchange.Exchange.ClOrdIdIndex

namespace Fauxchange.Venue
open Exchange Lib UnderlyingActor

section Turns
variable {U : Upstream} {actor : VenueActor U} {input : Submission}

/-- An actor that is open after a turn has committed the event of the turn, or it is as before. -/
theorem handle_open (opened : (actor.handle input).2.sealed = none) :
    actor.Commits input ∨ actor.sealed = none ∧ (actor.handle input).2.executor = actor.executor := by
  have turn := actor.handle_turn input
  generalize actor.handle input = result at turn opened ⊢
  obtain ⟨reply, last⟩ := result
  cases turn with
  | refused reason closed =>
    rw [closed] at opened
    cases opened
  | reused journal before ahead => exact Or.inr ⟨before, rfl⟩
  | eventLost journal last error before ahead lost => cases opened
  | projectionFailed journal last error fanOut before ahead stored failed => cases opened
  | committed journal last fanOut before ahead stored emitted =>
    exact Or.inl ⟨before, by rw [ahead], by rw [ahead, stored]⟩

/-- An answered turn has committed its event. -/
theorem handle_answered {receipt : Receipt} (answered : (actor.handle input).1 = .ok receipt) :
    actor.Commits input ∧
      receipt = .committed actor.nextSequence input.venueTs (actor.derived input).1.outcome := by
  have turn := actor.handle_turn input
  generalize actor.handle input = result at turn answered
  obtain ⟨reply, last⟩ := result
  cases turn with
  | refused => cases answered
  | reused => cases answered
  | eventLost => cases answered
  | projectionFailed => cases answered
  | committed journal last fanOut before ahead stored emitted =>
    exact ⟨⟨before, by rw [ahead], by rw [ahead, stored]⟩, (Except.ok.inj answered).symm⟩

end Turns

namespace Floor
variable {U : Upstream} {floor : Floor U}

/-- The journaled events of one underlying. -/
def eventsOf (floor : Floor U) (underlying : String) : List VenueEvent :=
  (floor.journaled.filter fun entry => entry.1 = underlying).map Prod.snd

theorem mem_eventsOf {underlying : String} {event : VenueEvent} :
    event ∈ floor.eventsOf underlying ↔ (underlying, event) ∈ floor.journaled := by
  unfold eventsOf
  rw [List.mem_map]
  constructor
  · rintro ⟨⟨other, found⟩, listed, rfl⟩
    obtain ⟨member, same⟩ := List.mem_filter.1 listed
    obtain rfl : other = underlying := of_decide_eq_true same
    exact member
  · intro member
    exact ⟨_, List.mem_filter.2 ⟨member, decide_eq_true rfl⟩, rfl⟩

/-- A turn that journals no event: the shared state is as it was, and an actor that is still open is as it was, too. -/
structure IdleTurn (floor : Floor U) (underlying : String) (actor last : VenueActor U) (after : Floor U) : Prop where
  actors : after.actors = Function.update floor.actors underlying (some last)
  journaled : after.journaled = floor.journaled
  index : after.clordidIndex = floor.clordidIndex
  executions : after.executions = floor.executions
  failed : last.sealed = some .projectionFailed ↔ actor.sealed = some .projectionFailed
  opened : last.sealed = none → actor.sealed = none ∧ last.executor = actor.executor
  executor : last.executor = actor.executor ∨
    ∃ command, last.executor = (deriveEvent underlying floor.lineageId actor.executor command).2

/-- A turn that journals its event. -/
structure CommittedTurn (floor : Floor U) (underlying : String) (actor last : VenueActor U) (command : JournalCommand)
    (after : Floor U) : Prop where
  actors : after.actors = Function.update floor.actors underlying (some last)
  journaled : after.journaled =
    floor.journaled ++ [(underlying, (deriveEvent underlying floor.lineageId actor.executor command).1)]
  index : after.clordidIndex =
    floor.clordidIndex.publishAll [(deriveEvent underlying floor.lineageId actor.executor command).1]
  opened : actor.sealed = none
  executor : last.executor = (deriveEvent underlying floor.lineageId actor.executor command).2
  recorded : ∃ taken, taken <+: storeLegs U (deriveEvent underlying floor.lineageId actor.executor command).1 ∧
    after.executions = floor.executions.recordAll (taken.map StoreLeg.record) ∧
      (last.sealed ≠ some .projectionFailed →
        taken = storeLegs U (deriveEvent underlying floor.lineageId actor.executor command).1)

/-- A turn of a hosted actor is the one or the other. -/
theorem Accounted.turned (accounted : floor.Accounted) {underlying : String} {actor : VenueActor U}
    (held : floor.actors underlying = some actor) (input : Submission) :
    IdleTurn floor underlying actor ((floor.lend actor).handle input).2 (floor.turn underlying input).2 ∨
      CommittedTurn floor underlying actor ((floor.lend actor).handle input).2
        ⟨actor.nextSequence, input.venueTs, input.command⟩ (floor.turn underlying input).2 := by
  obtain ⟨own, lineage⟩ := accounted.named underlying actor held
  have left := handle_leftBy (floor.lend actor) input
  have event : (floor.lend actor).derived input =
      deriveEvent underlying floor.lineageId actor.executor ⟨actor.nextSequence, input.venueTs, input.command⟩ := by
    rw [← own, ← lineage]
    rfl
  rw [turn_hosted held]
  by_cases commits : (floor.lend actor).Commits input
  · obtain ⟨taken, first, recorded, whole⟩ := left.recorded commits
    have published := left.published commits
    rw [event] at first whole published
    refine Or.inr ⟨rfl, ?_, ?_, commits.1, ?_, taken, first, recorded, whole⟩
    · rw [if_pos commits, event]
    · rw [published]
      rfl
    · rw [(commits_executor commits).1, event]
  · obtain ⟨fanOut, index, sealing⟩ := left.idle commits
    refine Or.inl ⟨rfl, ?_, ?_, ?_, ⟨sealing, fun failed => ?_⟩, fun opened => ?_, ?_⟩
    · rw [if_neg commits, List.append_nil]
    · rw [index]
      rfl
    · rw [fanOut]
      rfl
    · rw [left.closed _ failed]
      exact failed
    · exact (handle_open opened).resolve_left commits
    · refine ((floor.lend actor).handle_executor input).imp id fun moved => ?_
      rw [event] at moved
      exact ⟨_, moved.2.2⟩

/-- What a floor knows of its placements. -/
structure Answering (floor : Floor U) : Prop where
  homed : ∀ underlying actor, floor.actors underlying = some actor →
    actor.executor.state.underlyingBook.underlying = underlying
  keeps : ∀ underlying actor, floor.actors underlying = some actor → actor.executor.Keeps (floor.eventsOf underlying)
  sourced : ∀ underlying actor, floor.actors underlying = some actor → actor.sealed = none →
    actor.executor.Sourced (floor.eventsOf underlying)
  indexed : ∀ account clOrdId record, floor.clordidIndex.resolve account clOrdId = some record →
    ∃ entry ∈ floor.journaled, ((account, clOrdId), some record) ∈ correlationWrites entry.2
  placedAt : ∀ entry ∈ floor.journaled, ∀ write ∈ correlationWrites entry.2, ∀ record, write.2 = some record →
    underlyingOf U record.symbol = some entry.1
  stored : ∃ taken : List StoreLeg, taken.Sublist floor.legs ∧
    floor.executions = InMemoryExecutionsStore.new.recordAll (taken.map StoreLeg.record) ∧
      ∀ entry ∈ floor.journaled,
        (∀ actor, floor.actors entry.1 = some actor → actor.sealed ≠ some .projectionFailed) →
        ∀ leg ∈ storeLegs U entry.2, leg ∈ taken

theorem seat_cases {actors after : String → Option (VenueActor U)} {underlying other : String} {last found : VenueActor U}
    (moved : after = Function.update actors underlying (some last)) (present : after other = some found) :
    other = underlying ∧ found = last ∨ other ≠ underlying ∧ actors other = some found := by
  rw [moved] at present
  by_cases here : other = underlying
  · subst here
    rw [Function.update_self] at present
    exact Or.inl ⟨rfl, (Option.some.inj present).symm⟩
  · rw [Function.update_of_ne here] at present
    exact Or.inr ⟨here, present⟩

theorem eventsOf_append {after : Floor U} {underlying other : String} {event : VenueEvent}
    (journaled : after.journaled = floor.journaled ++ [(underlying, event)]) :
    after.eventsOf other = floor.eventsOf other ++ if underlying = other then [event] else [] := by
  unfold eventsOf
  rw [journaled, List.filter_append, List.map_append]
  refine congrArg (List.map Prod.snd (floor.journaled.filter _) ++ ·) ?_
  by_cases here : underlying = other
  · simp [here]
  · simp [here]

section Steps
variable {underlying : String} {actor last : VenueActor U} {after : Floor U} {command : JournalCommand}

theorem Answering.idle (answering : floor.Answering) (held : floor.actors underlying = some actor)
    (turned : IdleTurn floor underlying actor last after) : after.Answering := by
  have events : ∀ other, after.eventsOf other = floor.eventsOf other := by
    intro other
    unfold eventsOf
    rw [turned.journaled]
  have legs : after.legs = floor.legs := by
    unfold Floor.legs
    rw [turned.journaled]
  constructor
  · intro other found present
    rcases seat_cases turned.actors present with ⟨rfl, rfl⟩ | ⟨-, before⟩
    · have home := answering.homed other actor held
      rcases turned.executor with same | ⟨command, moved⟩
      · rw [same]
        exact home
      · rw [moved]
        exact (SequencedState.execute_underlying actor.executor.hashOrder actor.executor.state _).trans home
    · exact answering.homed other found before
  · intro other found present
    rw [events]
    rcases seat_cases turned.actors present with ⟨rfl, rfl⟩ | ⟨-, before⟩
    · have keeps := answering.keeps other actor held
      rcases turned.executor with same | ⟨command, moved⟩
      · rw [same]
        exact keeps
      · -- the event is lost, and the executor answers for it all the same
        rw [moved]
        intro event member
        exact keeps.derived other floor.lineageId command event (List.mem_append_left _ member)
    · exact answering.keeps other found before
  · intro other found present opened
    rw [events]
    rcases seat_cases turned.actors present with ⟨rfl, rfl⟩ | ⟨-, before⟩
    · obtain ⟨open', same⟩ := turned.opened opened
      rw [same]
      exact answering.sourced other actor held open'
    · exact answering.sourced other found before opened
  · intro account clOrdId record resolved
    rw [turned.index] at resolved
    rw [turned.journaled]
    exact answering.indexed account clOrdId record resolved
  · rw [turned.journaled]
    exact answering.placedAt
  · obtain ⟨taken, listed, recorded, whole⟩ := answering.stored
    refine ⟨taken, legs ▸ listed, turned.executions.trans recorded, ?_⟩
    rw [turned.journaled]
    intro entry member projects
    refine whole entry member fun found present failed => ?_
    by_cases here : entry.1 = underlying
    · obtain rfl : found = actor := Option.some.inj (present.symm.trans (here ▸ held))
      refine projects last ?_ (turned.failed.2 failed)
      rw [turned.actors, here, Function.update_self]
    · refine projects found ?_ failed
      rw [turned.actors, Function.update_of_ne here]
      exact present

theorem Answering.committed (answering : floor.Answering) (held : floor.actors underlying = some actor)
    (turned : CommittedTurn floor underlying actor last command after) : after.Answering := by
  have home := answering.homed underlying actor held
  have events := @eventsOf_append U floor after underlying
  constructor
  · intro other found present
    rcases seat_cases turned.actors present with ⟨rfl, rfl⟩ | ⟨-, before⟩
    · rw [turned.executor]
      exact (SequencedState.execute_underlying actor.executor.hashOrder actor.executor.state _).trans home
    · exact answering.homed other found before
  · intro other found present
    rw [events turned.journaled]
    rcases seat_cases turned.actors present with ⟨rfl, rfl⟩ | ⟨apart, before⟩
    · rw [if_pos rfl, turned.executor]
      exact (answering.keeps other actor held).derived other floor.lineageId command
    · rw [if_neg (Ne.symm apart), List.append_nil]
      exact answering.keeps other found before
  · intro other found present opened
    rw [events turned.journaled]
    rcases seat_cases turned.actors present with ⟨rfl, rfl⟩ | ⟨apart, before⟩
    · rw [if_pos rfl, turned.executor]
      exact (answering.sourced other actor held turned.opened).derived other floor.lineageId command
    · rw [if_neg (Ne.symm apart), List.append_nil]
      exact answering.sourced other found before opened
  · intro account clOrdId record resolved
    rw [turned.journaled]
    have resolved : after.clordidIndex.map[(account, clOrdId)]? = some record := resolved
    rw [turned.index] at resolved
    rcases ClOrdIdIndex.resolve_of_publishAll resolved with ⟨event, only, written⟩ | before
    · obtain rfl := List.mem_singleton.1 only
      exact ⟨_, List.mem_append_right _ (List.mem_singleton.2 rfl), written⟩
    · obtain ⟨entry, member, written⟩ := answering.indexed account clOrdId record before
      exact ⟨entry, List.mem_append_left _ member, written⟩
  · rw [turned.journaled]
    intro entry member write written record recorded
    rcases List.mem_append.1 member with old | new
    · exact answering.placedAt entry old write written record recorded
    · obtain rfl := List.mem_singleton.1 new
      rw [← home]
      exact SequencedState.execute_writes_symbol actor.executor.hashOrder actor.executor.state
        (command.context underlying floor.lineageId) written recorded
  · obtain ⟨taken, listed, recorded, whole⟩ := answering.stored
    obtain ⟨first, starts, stored, complete⟩ := turned.recorded
    have legs : after.legs =
        floor.legs ++ storeLegs U (deriveEvent underlying floor.lineageId actor.executor command).1 := by
      unfold Floor.legs
      rw [turned.journaled, List.flatMap_append, List.flatMap_singleton]
    refine ⟨taken ++ first, ?_, ?_, ?_⟩
    · rw [legs]
      exact listed.append starts.sublist
    · rw [stored, recorded, List.map_append, recordAll_append]
    · rw [turned.journaled]
      intro entry member projects leg brought
      rcases List.mem_append.1 member with old | new
      · refine List.mem_append_left _ (whole entry old (fun found present failed => ?_) leg brought)
        by_cases here : entry.1 = underlying
        · obtain rfl : found = actor := Option.some.inj (present.symm.trans (here ▸ held))
          rw [turned.opened] at failed
          cases failed
        · refine projects found ?_ failed
          rw [turned.actors, Function.update_of_ne here]
          exact present
      · obtain rfl := List.mem_singleton.1 new
        have done := complete (projects last (by rw [turned.actors, Function.update_self]))
        exact List.mem_append_right _ (done ▸ brought)

end Steps

theorem Answering.turn (answering : floor.Answering) (accounted : floor.Accounted) (underlying : String)
    (input : Submission) : (floor.turn underlying input).2.Answering := by
  cases held : floor.actors underlying with
  | none =>
    rw [turn_absent held]
    exact answering
  | some actor =>
    rcases accounted.turned held input with idle | committed
    · exact answering.idle held idle
    · exact answering.committed held committed

theorem Answering.run (answering : floor.Answering) (accounted : floor.Accounted) (turns : List (String × Submission)) :
    (floor.run turns).Answering := by
  induction turns generalizing floor with
  | nil => exact answering
  | cons taken rest ih => exact ih (answering.turn accounted taken.1 taken.2) (accounted.turn taken.1 taken.2)

/-- An answered turn is that of a hosted actor, which has executed the command. -/
theorem turn_answered {underlying : String} {input : Submission} {receipt : Receipt}
    (answered : (floor.turn underlying input).1 = .ok receipt) :
    ∃ actor, floor.actors underlying = some actor ∧ actor.sealed = none ∧
      receipt = .committed actor.nextSequence input.venueTs
        (actor.executor.state.execute actor.executor.hashOrder
          (((floor.lend actor).envelope input).context actor.underlying actor.lineageId)).1 := by
  cases held : floor.actors underlying with
  | none =>
    unfold Floor.turn at answered
    rw [held] at answered
    cases answered
  | some actor =>
    rw [turn_hosted held] at answered
    obtain ⟨commits, same⟩ := handle_answered answered
    exact ⟨actor, rfl, commits.1, same⟩

/-- What is journaled stays, and so does a failed projection. -/
theorem Accounted.lasting (accounted : floor.Accounted) (turns : List (String × Submission)) :
    floor.journaled ⊆ (floor.run turns).journaled ∧
      ∀ underlying actor, floor.actors underlying = some actor → actor.sealed = some .projectionFailed →
        ∃ last, (floor.run turns).actors underlying = some last ∧ last.sealed = some .projectionFailed := by
  induction turns generalizing floor with
  | nil => exact ⟨fun _ => id, fun underlying actor present failed => ⟨actor, present, failed⟩⟩
  | cons taken rest ih =>
    obtain ⟨grows, stays⟩ := ih (accounted.turn taken.1 taken.2)
    have step : floor.journaled ⊆ (floor.turn taken.1 taken.2).2.journaled ∧
        ∀ underlying actor, floor.actors underlying = some actor → actor.sealed = some .projectionFailed →
          ∃ last, (floor.turn taken.1 taken.2).2.actors underlying = some last ∧
            last.sealed = some .projectionFailed := by
      cases held : floor.actors taken.1 with
      | none =>
        rw [turn_absent held]
        exact ⟨fun _ => id, fun underlying actor present failed => ⟨actor, present, failed⟩⟩
      | some actor =>
        rcases accounted.turned held taken.2 with idle | committed
        · rw [idle.journaled, idle.actors]
          refine ⟨fun _ => id, fun underlying other present failed => ?_⟩
          by_cases here : underlying = taken.1
          · subst here
            obtain rfl := Option.some.inj (held.symm.trans present)
            exact ⟨_, Function.update_self .., idle.failed.2 failed⟩
          · exact ⟨other, (Function.update_of_ne here ..).trans present, failed⟩
        · rw [committed.journaled, committed.actors]
          refine ⟨List.subset_append_left _ _, fun underlying other present failed => ?_⟩
          by_cases here : underlying = taken.1
          · subst here
            obtain rfl := Option.some.inj (held.symm.trans present)
            rw [committed.opened] at failed
            cases failed
          · exact ⟨other, (Function.update_of_ne here ..).trans present, failed⟩
    refine ⟨fun entry member => grows (step.1 member), fun underlying actor present failed => ?_⟩
    obtain ⟨last, seated, still⟩ := step.2 underlying actor present failed
    exact stays underlying last seated still

/-- The events that a boot journals for an underlying are those recovered for it. -/
theorem recoveredEvents_of {recovered : List (String × Recovered U)} (apart : (recovered.map Prod.fst).Nodup)
    (underlying : String) :
    ((recoveredEvents recovered).filter fun entry => entry.1 = underlying).map Prod.snd =
      ((recovered.find? fun entry => entry.1 = underlying).map fun entry => entry.2.events).getD [] := by
  induction recovered with
  | nil => rfl
  | cons first rest ih =>
    obtain ⟨name, found⟩ := first
    obtain ⟨fresh, distinct⟩ := List.nodup_cons.1 apart
    have own : (recoveredEvents ((name, found) :: rest)) =
        found.events.map (fun event => (name, event)) ++ recoveredEvents rest := rfl
    rw [own, List.filter_append, List.map_append, ih distinct, List.filter_map]
    by_cases here : name = underlying
    · subst here
      have later : rest.find? (fun entry => entry.1 = name) = none := by
        rw [List.find?_eq_none]
        intro entry member same
        have same : entry.1 = name := of_decide_eq_true same
        exact fresh (List.mem_map.2 ⟨entry, member, same⟩)
      have first : ((name, found) :: rest).find? (fun entry => entry.1 = name) = some (name, found) :=
        List.find?_cons_of_pos (decide_eq_true rfl)
      rw [later, first]
      simp [Function.comp_def]
    · rw [List.find?_cons_of_neg (by simpa using here)]
      simp [Function.comp_def, here]

theorem answering_boot {config : BootConfig} {streams : String → Option Stream}
    (booted : Floor.boot U config streams = .ok floor) : floor.Answering := by
  obtain ⟨probed, start⟩ := Floor.booted_from booted
  have names := start.apart.sublist (recoveredOf_names probed)
  have events : ∀ underlying, floor.eventsOf underlying =
      (((recoveredOf probed).find? fun entry => entry.1 = underlying).map fun entry => entry.2.events).getD [] := by
    intro underlying
    unfold eventsOf
    rw [start.journaled]
    exact recoveredEvents_of names underlying
  -- the executor of a hosted underlying has executed the commands of its events, and nothing else
  have executed : ∀ underlying actor, floor.actors underlying = some actor → actor.sealed = none ∧
      ∃ (sink : Option (List MarketMakerControlKnobs)) (commands : List JournalCommand),
        (reexecute underlying floor.lineageId
          (freshExecutor U underlying (some config.microstructure) sink config.hashOrder) commands).1 =
            floor.eventsOf underlying ∧
        (reexecute underlying floor.lineageId
          (freshExecutor U underlying (some config.microstructure) sink config.hashOrder) commands).2.state =
            actor.executor.state := by
    intro underlying actor present
    obtain ⟨found, probe, spawned⟩ := start.hosted underlying actor present
    rw [events]
    cases found with
    | none =>
      have fresh : actor = freshActor U config floor.lineageId underlying := spawned
      subst fresh
      refine ⟨rfl, some [], [], ?_, rfl⟩
      have absent : (recoveredOf probed).find? (fun entry => entry.1 = underlying) = none := by
        rw [List.find?_eq_none]
        intro entry member same
        obtain ⟨stream, listed⟩ := recoveredOf_entry.1 member
        rw [of_decide_eq_true same] at listed
        cases congrArg Prod.snd (List.inj_on_of_nodup_map start.apart probe listed rfl)
      rw [absent]
      rfl
    | some pair =>
      obtain ⟨stream, recovered⟩ := pair
      have member : (underlying, recovered) ∈ recoveredOf probed := recoveredOf_entry.2 ⟨stream, probe⟩
      obtain ⟨other, listed, -, same, done⟩ := start.found _ member
      obtain ⟨-, -, executor, opened, -⟩ := recoveredActor_spawned spawned
      have again := reduceIntoExecutor_executor underlying other.lineageId done
      rw [same] at again
      have here : (recoveredOf probed).find? (fun entry => entry.1 = underlying) = some (underlying, recovered) := by
        have found : ((recoveredOf probed).find? fun entry => entry.1 = underlying).isSome :=
          List.find?_isSome.2 ⟨_, member, decide_eq_true (p := underlying = underlying) rfl⟩
        obtain ⟨entry, first⟩ := Option.isSome_iff_exists.1 found
        have named : entry.1 = underlying := by simpa using List.find?_some first
        rw [first, List.inj_on_of_nodup_map names (List.mem_of_find?_eq_some first) member named]
      refine ⟨opened, none, commandRecordsInOrder other.records, ?_, ?_⟩
      · rw [here, congrArg Prod.fst again]
        rfl
      · rw [congrArg Prod.snd again, executor]
        rfl
  constructor
  · intro underlying actor present
    obtain ⟨-, sink, commands, -, state⟩ := executed underlying actor present
    rw [← state]
    exact reexecute_underlying underlying floor.lineageId _ commands
  · intro underlying actor present
    obtain ⟨-, sink, commands, derived, state⟩ := executed underlying actor present
    have start : (freshExecutor U underlying (some config.microstructure) sink config.hashOrder).Keeps [] :=
      List.forall_mem_nil _
    have keeps := start.reexecuted underlying floor.lineageId commands
    rw [List.nil_append, derived] at keeps
    intro event member placed id placing keyed entered
    rw [← state]
    exact keeps event member placed id placing keyed entered
  · intro underlying actor present _
    obtain ⟨-, sink, commands, derived, state⟩ := executed underlying actor present
    have start : (freshExecutor U underlying (some config.microstructure) sink config.hashOrder).Sourced [] := by
      intro key entry answered
      have answered : (∅ : IdempotencyMap)[key]? = some entry := answered
      rw [Std.ExtTreeMap.getElem?_empty] at answered
      cases answered
    have sourced := start.reexecuted underlying floor.lineageId commands
    rw [List.nil_append, derived] at sourced
    intro key entry answered
    rw [← state] at answered
    exact sourced key entry answered
  · intro account clOrdId record resolved
    have resolved : floor.clordidIndex.map[(account, clOrdId)]? = some record := resolved
    rw [start.index] at resolved
    rcases ClOrdIdIndex.resolve_of_publishAll resolved with ⟨event, listed, written⟩ | before
    · obtain ⟨entry, member, rfl⟩ := List.mem_map.1 listed
      exact ⟨entry, member, written⟩
    · have before : (∅ : PairMap AccountId ClientOrderId ClOrdIdRecord)[(account, clOrdId)]? = some record := before
      rw [Std.ExtTreeMap.getElem?_empty] at before
      cases before
  · intro entry member write written record recorded
    rw [start.journaled] at member
    obtain ⟨recovered, listed, event⟩ := mem_recoveredEvents.1 member
    obtain ⟨stream, -, -, -, done⟩ := start.found _ listed
    have again := reduceIntoExecutor_executor entry.1 stream.lineageId done
    have each := @reexecute_forall U stream.lineageId entry.1
      (fun event => ∀ write ∈ correlationWrites event, ∀ record, write.2 = some record →
        underlyingOf U record.symbol = some entry.1)
      (fun executor command named write written record recorded => named ▸
        SequencedState.execute_writes_symbol executor.hashOrder executor.state
          (command.context entry.1 stream.lineageId) written recorded)
      (freshExecutor U entry.1 (some config.microstructure) none config.hashOrder)
      (commandRecordsInOrder stream.records) rfl
    rw [again] at each
    exact each entry.2 event write written record recorded
  · refine ⟨floor.legs, List.Sublist.refl _, start.executions, fun entry member _ leg brought => ?_⟩
    exact List.mem_flatMap.2 ⟨entry, member, brought⟩

end Floor

end Fauxchange.Venue
