import Fauxchange.Venue.Floor
import Fauxchange.Venue.VenueTime

/-! What a floor keeps over any turns: every journaled event was derived once, by the actor of its underlying, and the
executions store holds legs of these events, all of them as long as no projection has failed. -/

namespace Fauxchange.Venue
open Exchange Lib UnderlyingActor

section Emitting
variable {U : Upstream}

theorem recordAll_append (store : InMemoryExecutionsStore) (early late : List ExecutionRecord) :
    store.recordAll (early ++ late) = (store.recordAll early).recordAll late := List.foldl_append ..

/-- However far the projection of an event comes, the executions store has recorded the first of its legs. -/
theorem projectLegs_prefix (event : VenueEvent) (symbol : Symbol) (underlying : String) (fanOut : StoreFanOut U)
    (fills : List Fill) :
    ∃ taken, taken <+: fills.map (storeLeg event symbol underlying) ∧
      (fanOut.projectLegs event symbol underlying fills).2.executions =
        fanOut.executions.recordAll (taken.map StoreLeg.record) := by
  induction fills generalizing fanOut with
  | nil => exact ⟨[], List.nil_prefix, rfl⟩
  | cons fill rest ih =>
    simp only [StoreFanOut.projectLegs]
    split
    · refine ⟨[storeLeg event symbol underlying fill], ?_, rfl⟩
      rw [List.map_cons]
      exact ⟨_, rfl⟩
    next positions applied =>
      obtain ⟨taken, first, recorded⟩ := ih { fanOut with
        executions := fanOut.executions.record (projectExecution event symbol underlying fill), positions := positions }
      refine ⟨storeLeg event symbol underlying fill :: taken, ?_, recorded⟩
      rw [List.map_cons]
      exact (List.prefix_cons_inj _).2 first

/-- An emission records the first legs of its event, and all of them if it succeeds. -/
theorem emit_prefix (fanOut : StoreFanOut U) (event : VenueEvent) :
    ∃ taken, taken <+: storeLegs U event ∧
      (fanOut.emit event).2.executions = fanOut.executions.recordAll (taken.map StoreLeg.record) ∧
        ((fanOut.emit event).1 = .ok () → taken = storeLegs U event) := by
  by_cases open' : fanOut.sealed = true
  · refine ⟨[], List.nil_prefix, ?_, fun done => ?_⟩
    · unfold StoreFanOut.emit
      rw [if_pos open']
      rfl
    · unfold StoreFanOut.emit at done
      rw [if_pos open'] at done
      cases done
  · have unsealed : fanOut.sealed = false := Bool.eq_false_iff.2 open'
    cases emitted : fanOut.emit event with
    | mk result last =>
      cases result with
      | ok =>
        obtain ⟨positions, -, rfl⟩ := (StoreFanOut.emit_ok event unsealed).1 emitted
        exact ⟨storeLegs U event, List.prefix_rfl, rfl, fun _ => rfl⟩
      | error error =>
        have idle : (.ok (), fanOut) ≠ ((.error error, last) : Except FanOutSealed Unit × StoreFanOut U) :=
          fun wrong => by cases congrArg Prod.fst wrong
        unfold StoreFanOut.emit at emitted
        rw [if_neg open'] at emitted
        split at emitted
        · exact absurd emitted idle
        next symbol named =>
          split at emitted
          · exact absurd emitted idle
          · split at emitted
            · exact absurd emitted idle
            next underlying parsed =>
              have legs : storeLegs U event = (outcomeFills event.outcome).map (storeLeg event symbol underlying) := by
                simp only [storeLegs, named, parsed]
              obtain ⟨taken, first, recorded⟩ := projectLegs_prefix event symbol underlying fanOut
                (outcomeFills event.outcome)
              rw [emitted] at recorded
              rw [legs]
              exact ⟨taken, first, recorded, fun wrong => by cases wrong⟩

end Emitting

section Turns
variable {U : Upstream} {actor : VenueActor U} {input : Submission}

/-- What a turn leaves of the shared state: as it was, or with the one event that the actor has journaled. -/
structure LeftBy (actor : VenueActor U) (input : Submission) (after : VenueActor U) : Prop where
  identity : after.underlying = actor.underlying ∧ after.lineageId = actor.lineageId
  closed : ∀ reason, actor.sealed = some reason → after = actor
  idle : ¬actor.Commits input → after.fanOut = actor.fanOut ∧ after.clordidIndex = actor.clordidIndex ∧
    (after.sealed = some .projectionFailed → actor.sealed = some .projectionFailed)
  published : actor.Commits input → after.clordidIndex = actor.clordidIndex.map fun index =>
    index.publishAll [(actor.derived input).1]
  recorded : actor.Commits input → ∃ taken, taken <+: storeLegs U (actor.derived input).1 ∧
    after.fanOut.executions = actor.fanOut.executions.recordAll (taken.map StoreLeg.record) ∧
      (after.sealed ≠ some .projectionFailed → taken = storeLegs U (actor.derived input).1)

theorem advance_frame (actor : VenueActor U) : actor.advance.lineageId = actor.lineageId ∧
    actor.advance.clordidIndex = actor.clordidIndex ∧
      (actor.advance.sealed = some .projectionFailed → actor.sealed = some .projectionFailed) := by
  unfold advance
  split
  · exact ⟨rfl, rfl, id⟩
  · exact ⟨rfl, rfl, fun wrong => by cases wrong⟩

theorem handle_leftBy (actor : VenueActor U) (input : Submission) : LeftBy actor input (actor.handle input).2 := by
  have turn := actor.handle_turn input
  generalize actor.handle input = result at turn ⊢
  obtain ⟨reply, last⟩ := result
  have opening : ∀ {after : VenueActor U}, actor.sealed = none → ∀ reason, actor.sealed = some reason → after = actor := by
    intro after opened reason closed
    rw [opened] at closed
    cases closed
  have shut : ∀ reason, actor.sealed = some reason → ¬actor.Commits input := by
    rintro reason closed ⟨opened, -⟩
    rw [opened] at closed
    cases closed
  cases turn with
  | refused reason closed =>
    exact ⟨⟨rfl, rfl⟩, fun _ _ => rfl, fun _ => ⟨rfl, rfl, id⟩, fun commits => absurd commits (shut reason closed),
      fun commits => absurd commits (shut reason closed)⟩
  | reused journal opened ahead =>
    have missed : ¬actor.Commits input := by
      rintro ⟨-, committed, -⟩
      rw [ahead] at committed
      cases committed
    exact ⟨⟨rfl, rfl⟩, opening opened, fun _ => ⟨rfl, rfl, id⟩, fun commits => absurd commits missed,
      fun commits => absurd commits missed⟩
  | eventLost journal last error opened ahead lost =>
    have missed : ¬actor.Commits input := by
      rintro ⟨-, -, stored⟩
      rw [ahead, lost] at stored
      cases stored
    exact ⟨⟨rfl, rfl⟩, opening opened, fun _ => ⟨rfl, rfl, fun wrong => by cases wrong⟩,
      fun commits => absurd commits missed, fun commits => absurd commits missed⟩
  | projectionFailed journal last error fanOut opened ahead stored failed =>
    have commits : actor.Commits input := ⟨opened, by rw [ahead], by rw [ahead, stored]⟩
    refine ⟨⟨rfl, rfl⟩, opening opened, fun missed => absurd commits missed, fun _ => rfl, fun _ => ?_⟩
    obtain ⟨taken, first, recorded, -⟩ := emit_prefix actor.fanOut (actor.derived input).1
    have same : (StoreFanOut.emit actor.fanOut (actor.derived input).1).2 = fanOut := congrArg Prod.snd failed
    rw [same] at recorded
    exact ⟨taken, first, recorded, fun unsealed => absurd rfl unsealed⟩
  | committed journal last fanOut opened ahead stored emitted =>
    have commits : actor.Commits input := ⟨opened, by rw [ahead], by rw [ahead, stored]⟩
    obtain ⟨underlying, kept⟩ := advance_underlying { ({ actor with journal := last, executor :=
      (actor.derived input).2 }.publish (actor.derived input).1) with fanOut := fanOut }
    obtain ⟨lineage, index, sealing⟩ := advance_frame { ({ actor with journal := last, executor :=
      (actor.derived input).2 }.publish (actor.derived input).1) with fanOut := fanOut }
    refine ⟨⟨underlying, lineage⟩, opening opened, fun missed => absurd commits missed, fun _ => index, fun _ => ?_⟩
    obtain ⟨taken, first, recorded, whole⟩ := emit_prefix actor.fanOut (actor.derived input).1
    have done : (StoreFanOut.emit actor.fanOut (actor.derived input).1).1 = .ok () := congrArg Prod.fst emitted
    have same : (StoreFanOut.emit actor.fanOut (actor.derived input).1).2 = fanOut := congrArg Prod.snd emitted
    rw [same] at recorded
    exact ⟨taken, first, (congrArg StoreFanOut.executions kept).trans recorded, fun _ => whole done⟩

end Turns

namespace Floor
variable {U : Upstream} {floor : Floor U}

/-- No projection has failed. -/
def Projects (floor : Floor U) : Prop :=
  ∀ underlying actor, floor.actors underlying = some actor → actor.sealed ≠ some .projectionFailed

/-- What a floor keeps. -/
structure Accounted (floor : Floor U) : Prop where
  named : ∀ underlying actor, floor.actors underlying = some actor →
    actor.underlying = underlying ∧ actor.lineageId = floor.lineageId
  derived : ∀ entry ∈ floor.journaled, ∃ (executor : MatchingExecutor U) (command : JournalCommand),
    entry.2 = (deriveEvent entry.1 floor.lineageId executor command).1
  once : (floor.journaled.map fun entry => (entry.1, entry.2.underlyingSequence)).Nodup
  past : ∀ entry ∈ floor.journaled, ∀ actor, floor.actors entry.1 = some actor →
    actor.Past entry.2.underlyingSequence
  recorded : ∃ taken, taken.Sublist floor.legs ∧
    floor.executions = InMemoryExecutionsStore.new.recordAll (taken.map StoreLeg.record) ∧
      (floor.Projects → taken = floor.legs)

/-- A turn of a hosted actor, written out. -/
theorem turn_hosted {underlying : String} {actor : VenueActor U} (held : floor.actors underlying = some actor)
    (input : Submission) :
    floor.turn underlying input = (((floor.lend actor).handle input).1,
      { floor with
        actors := Function.update floor.actors underlying (some ((floor.lend actor).handle input).2)
        executions := ((floor.lend actor).handle input).2.fanOut.executions
        positions := ((floor.lend actor).handle input).2.fanOut.positions
        clordidIndex := ((floor.lend actor).handle input).2.clordidIndex.getD floor.clordidIndex
        journaled := floor.journaled ++
          if (floor.lend actor).Commits input then [(underlying, ((floor.lend actor).derived input).1)] else [] }) := by
  unfold turn
  rw [held]

theorem turn_absent {underlying : String} (absent : floor.actors underlying = none) (input : Submission) :
    (floor.turn underlying input).2 = floor := by
  unfold turn
  rw [absent]

/-- Where no projection has failed after a turn, none had before. -/
theorem projects_of_turn {underlying : String} {input : Submission}
    (projects : (floor.turn underlying input).2.Projects) : floor.Projects := by
  intro other before present failed
  cases held : floor.actors underlying with
  | none =>
    rw [turn_absent held] at projects
    exact projects other before present failed
  | some actor =>
    rw [turn_hosted held] at projects
    by_cases here : other = underlying
    · subst here
      obtain rfl := Option.some.inj (held.symm.trans present)
      have kept := (handle_leftBy (floor.lend actor) input).closed _ failed
      refine projects other _ (Function.update_self ..) ?_
      rw [kept]
      exact failed
    · exact projects other before ((Function.update_of_ne here ..).trans present) failed

theorem Accounted.turn (accounted : floor.Accounted) (underlying : String) (input : Submission) :
    (floor.turn underlying input).2.Accounted := by
  cases held : floor.actors underlying with
  | none =>
    rw [turn_absent held]
    exact accounted
  | some actor =>
    have projects := @projects_of_turn U floor underlying input
    rw [turn_hosted held] at projects ⊢
    obtain ⟨own, lineage⟩ := accounted.named underlying actor held
    have left := handle_leftBy (floor.lend actor) input
    have keeps := ((floor.lend actor).handle_keeps input).2
    have passes : (floor.lend actor).Commits input → ((floor.lend actor).handle input).2.Past actor.nextSequence :=
      fun commits => past_executed (commits_executor commits).2
    have event : ((floor.lend actor).derived input).1 =
        (deriveEvent underlying floor.lineageId actor.executor ((floor.lend actor).envelope input)).1 := by
      rw [← own, ← lineage]
      rfl
    -- the legs of the event, after those that were there
    have brought : ∀ journaled : List (String × VenueEvent), floor.legs ++ journaled.flatMap (fun entry => storeLegs U entry.2) =
        (floor.journaled ++ journaled).flatMap fun entry => storeLegs U entry.2 := by
      intro journaled
      rw [List.flatMap_append]
      rfl
    generalize ((floor.lend actor).handle input).2 = after at *
    have seats : ∀ other last, Function.update floor.actors underlying (some after) other = some last →
        other = underlying ∧ last = after ∨ other ≠ underlying ∧ floor.actors other = some last := by
      intro other last present
      by_cases here : other = underlying
      · subst here
        rw [Function.update_self] at present
        exact Or.inl ⟨rfl, (Option.some.inj present).symm⟩
      · rw [Function.update_of_ne here] at present
        exact Or.inr ⟨here, present⟩
    constructor
    · intro other last present
      rcases seats other last present with ⟨rfl, rfl⟩ | ⟨-, before⟩
      · exact ⟨left.identity.1.trans own, left.identity.2.trans lineage⟩
      · exact accounted.named other last before
    · intro entry member
      rcases List.mem_append.1 member with old | new
      · exact accounted.derived entry old
      · split at new
        · obtain rfl := List.mem_singleton.1 new
          exact ⟨_, _, event⟩
        · cases new
    · dsimp only
      rw [List.map_append]
      refine List.nodup_append.2 ⟨accounted.once, ?_, ?_⟩
      · split
        · exact List.nodup_singleton _
        · exact List.nodup_nil
      · intro early old late new same
        split at new
        next commits =>
          obtain ⟨entry, listed, rfl⟩ := List.mem_map.1 old
          obtain ⟨second, only, rfl⟩ := List.mem_map.1 new
          obtain rfl := List.mem_singleton.1 only
          obtain ⟨here, sequence⟩ := Prod.mk.inj same
          have past := accounted.past entry listed actor (here ▸ held) commits.1
          have taken : entry.2.underlyingSequence = actor.nextSequence := sequence
          omega
        next => cases new
    · intro entry member last present
      rcases seats entry.1 last present with ⟨here, rfl⟩ | ⟨apart, before⟩
      · rcases List.mem_append.1 member with old | new
        · exact keeps _ (accounted.past entry old actor (here ▸ held))
        · split at new
          next commits =>
            obtain rfl := List.mem_singleton.1 new
            exact passes commits
          next => cases new
      · rcases List.mem_append.1 member with old | new
        · exact accounted.past entry old last before
        · split at new
          · exact absurd (congrArg Prod.fst (List.mem_singleton.1 new)) apart
          · cases new
    · obtain ⟨taken, listed, recorded, whole⟩ := accounted.recorded
      by_cases commits : (floor.lend actor).Commits input
      · obtain ⟨first, starts, stored, complete⟩ := left.recorded commits
        refine ⟨taken ++ first, ?_, ?_, fun open' => ?_⟩
        · change List.Sublist _ ((floor.journaled ++ _).flatMap _)
          rw [← brought, if_pos commits, List.flatMap_singleton]
          exact listed.append starts.sublist
        · rw [List.map_append, recordAll_append, ← recorded]
          exact stored
        · rw [whole (projects open'), complete (open' underlying after (Function.update_self ..))]
          refine Eq.trans ?_ (brought _)
          rw [if_pos commits, List.flatMap_singleton]
      · have same : floor.legs = (floor.journaled ++ if (floor.lend actor).Commits input then
            [(underlying, ((floor.lend actor).derived input).1)] else []).flatMap fun entry => storeLegs U entry.2 := by
          rw [if_neg commits, List.append_nil]
          rfl
        refine ⟨taken, ?_, ?_, fun open' => (whole (projects open')).trans same⟩
        · rw [same] at listed
          exact listed
        rw [← recorded]
        exact congrArg StoreFanOut.executions (left.idle commits).1

theorem Accounted.run (accounted : floor.Accounted) (turns : List (String × Submission)) :
    (floor.run turns).Accounted := by
  induction turns generalizing floor with
  | nil => exact accounted
  | cons taken rest ih => exact ih (accounted.turn taken.1 taken.2)

end Floor

section Opening
variable {U : Upstream} {config : BootConfig} {streams : String → Option Stream} {lineage : LineageId}

theorem rebuildShared_ok {stores last : StoreFanOut U} {recovered : List (String × Recovered U)}
    (rebuilt : rebuildShared stores recovered = .ok last) : rebuildAll stores (recovered.map Prod.snd) = .ok last := by
  induction recovered generalizing stores with
  | nil =>
    cases rebuilt
    rfl
  | cons entry rest ih =>
    simp only [rebuildShared] at rebuilt
    simp only [List.map_cons, rebuildAll]
    split at rebuilt
    · cases rebuilt
    next next done =>
      rw [done]
      exact ih rebuilt

/-- The lineage of a boot is that of every recovered stream. -/
theorem resolveLineage_found {probed : List (String × Option (Stream × Recovered U))}
    {resolved : Option (String × LineageId)} (done : resolveLineage U config probed resolved = .ok lineage) :
    (∀ first, resolved = some first → first.2 = lineage) ∧
      ∀ underlying stream recovered, (underlying, some (stream, recovered)) ∈ probed → stream.lineageId = lineage := by
  induction probed generalizing resolved with
  | nil =>
    refine ⟨?_, fun _ _ _ member => (by cases member)⟩
    rintro first rfl
    exact Except.ok.inj done
  | cons entry rest ih =>
    obtain ⟨underlying, found⟩ := entry
    cases found with
    | none =>
      obtain ⟨first, later⟩ := ih done
      refine ⟨first, fun other stream recovered member => ?_⟩
      rcases List.mem_cons.1 member with here | there
      · cases here
      · exact later other stream recovered there
    | some pair =>
      cases resolved with
      | none =>
        obtain ⟨first, later⟩ := ih done
        refine ⟨fun _ wrong => (by cases wrong), fun other stream recovered member => ?_⟩
        rcases List.mem_cons.1 member with here | there
        · cases here
          exact first _ rfl
        · exact later other stream recovered there
      | some known =>
        unfold resolveLineage at done
        split at done
        next same =>
          obtain ⟨first, later⟩ := ih done
          refine ⟨fun _ held => (by cases held; exact first _ rfl), fun other stream recovered member => ?_⟩
          rcases List.mem_cons.1 member with here | there
          · cases here
            exact same.trans (first _ rfl)
          · exact later other stream recovered there
        next => cases done

/-- A spawned actor is fresh where nothing was found, and continues what was found elsewhere. -/
def SpawnedFrom (config : BootConfig) (lineage : LineageId) (underlying : String) (actor : VenueActor U) :
    Option (Stream × Recovered U) → Prop
  | none => actor = freshActor U config lineage underlying
  | some (stream, recovered) => recoveredActor U config lineage underlying stream recovered = .ok actor

theorem spawnAll_spawned {probed : List (String × Option (Stream × Recovered U))}
    {spawned : List (String × VenueActor U × List JournalRecord)} (done : spawnAll U config lineage probed = .ok spawned) :
    ∀ entry ∈ spawned, ∃ found, (entry.1, found) ∈ probed ∧ SpawnedFrom config lineage entry.1 entry.2.1 found := by
  induction probed generalizing spawned with
  | nil =>
    cases done
    exact List.forall_mem_nil _
  | cons first rest ih =>
    obtain ⟨underlying, found⟩ := first
    have wider : ∀ {others : List (String × VenueActor U × List JournalRecord)},
        spawnAll U config lineage rest = .ok others → ∀ entry ∈ others, ∃ other, (entry.1, other) ∈ (underlying, found) :: rest ∧
          SpawnedFrom config lineage entry.1 entry.2.1 other := by
      intro others spawns entry member
      obtain ⟨other, listed, from'⟩ := ih spawns entry member
      exact ⟨other, List.mem_cons_of_mem _ listed, from'⟩
    cases found with
    | none =>
      obtain ⟨others, spawns, same⟩ := except_bind_ok done
      cases same
      exact List.forall_mem_cons.2 ⟨⟨none, List.mem_cons_self, rfl⟩, wider spawns⟩
    | some pair =>
      obtain ⟨actor, spawning, next⟩ := except_bind_ok done
      obtain ⟨others, spawns, same⟩ := except_bind_ok next
      cases same
      exact List.forall_mem_cons.2 ⟨⟨some pair, List.mem_cons_self, spawning⟩, wider spawns⟩

/-- What is found in a stream is what the stream is reduced to, and every underlying is probed once. -/
theorem probeAll_reduced {underlyings : List String} {probed : List (String × Option (Stream × Recovered U))}
    (done : probeAll U config streams underlyings = .ok probed) :
    probed.map Prod.fst = underlyings ∧ ∀ underlying stream recovered,
      (underlying, some (stream, recovered)) ∈ probed → streams underlying = some stream ∧
        reduceIntoExecutor stream.records
          (freshExecutor U underlying (some config.microstructure) none config.hashOrder) underlying stream.lineageId
          (some config.microstructure) none = .ok recovered := by
  induction underlyings generalizing probed with
  | nil =>
    cases done
    exact ⟨rfl, fun _ _ _ member => (by cases member)⟩
  | cons first rest ih =>
    obtain ⟨head, probing, next⟩ := except_bind_ok done
    obtain ⟨later, probes, same⟩ := except_bind_ok next
    cases same
    obtain ⟨names, found⟩ := ih probes
    refine ⟨by rw [List.map_cons, names], fun underlying stream recovered member => ?_⟩
    rcases List.mem_cons.1 member with here | there
    · obtain ⟨rfl, rfl⟩ := Prod.mk.inj here
      refine ⟨(probeAll_found done member).1, probe_reduced probing⟩
    · exact found underlying stream recovered there

theorem recoveredOf_entry {probed : List (String × Option (Stream × Recovered U))} {entry : String × Recovered U} :
    entry ∈ recoveredOf probed ↔ ∃ stream, (entry.1, some (stream, entry.2)) ∈ probed := by
  unfold recoveredOf
  rw [List.mem_filterMap]
  constructor
  · rintro ⟨⟨underlying, found⟩, listed, made⟩
    obtain ⟨⟨stream, recovered⟩, rfl, rfl⟩ := Option.map_eq_some_iff.1 made
    exact ⟨stream, listed⟩
  · rintro ⟨stream, listed⟩
    exact ⟨_, listed, rfl⟩

theorem recoveredOf_names (probed : List (String × Option (Stream × Recovered U))) :
    ((recoveredOf probed).map Prod.fst).Sublist (probed.map Prod.fst) := by
  induction probed with
  | nil => exact List.Sublist.refl _
  | cons entry rest ih =>
    obtain ⟨underlying, found⟩ := entry
    cases found with
    | none => exact ih.cons _
    | some pair => exact ih.cons_cons _

theorem mem_recoveredEvents {recovered : List (String × Recovered U)} {entry : String × VenueEvent} :
    entry ∈ recoveredEvents recovered ↔ ∃ of, (entry.1, of) ∈ recovered ∧ entry.2 ∈ of.events := by
  unfold recoveredEvents
  rw [List.mem_flatMap]
  constructor
  · rintro ⟨⟨underlying, of⟩, listed, member⟩
    obtain ⟨event, here, rfl⟩ := List.mem_map.1 member
    exact ⟨of, listed, here⟩
  · rintro ⟨of, listed, here⟩
    exact ⟨_, listed, List.mem_map.2 ⟨_, here, rfl⟩⟩

/-- The streams hold one record a key. -/
def KeyedStreams (streams : String → Option Stream) : Prop :=
  ∀ underlying stream, streams underlying = some stream → (stream.records.map JournalRecord.key).Nodup

/-- The events of a reduced stream: derived in turn, each at the sequence of its command. -/
theorem reduced_events {underlying : String} {stream : Stream} {recovered : Recovered U}
    (keyed : (stream.records.map JournalRecord.key).Nodup)
    (reduced : reduceIntoExecutor stream.records
      (freshExecutor U underlying (some config.microstructure) none config.hashOrder) underlying stream.lineageId
      (some config.microstructure) none = .ok recovered) :
    (recovered.events.map VenueEvent.underlyingSequence).Nodup ∧
      (∀ event ∈ recovered.events, event.underlyingSequence ≤ recovered.lastSequence.getD 0) ∧
        ∀ event ∈ recovered.events, ∃ (executor : MatchingExecutor U) (command : JournalCommand),
          event = (deriveEvent underlying stream.lineageId executor command).1 := by
  have executed := congrArg Prod.fst (reduceIntoExecutor_executor underlying stream.lineageId reduced)
  have answered := reexecute_envelopes underlying stream.lineageId
    (freshExecutor U underlying (some config.microstructure) none config.hashOrder) (commandRecordsInOrder stream.records)
  rw [executed] at answered
  refine ⟨?_, fun event member => ?_, fun event member => ?_⟩
  · have distinct := commandRecordsInOrder_nodup keyed
    rw [← answered, List.map_map] at distinct
    exact distinct
  · have listed : event.envelope ∈ commandRecordsInOrder stream.records := answered ▸ List.mem_map_of_mem member
    rw [reduceIntoExecutor_last reduced]
    exact le_last_of_mem listed
  · refine @reexecute_forall U stream.lineageId underlying (fun event => ∃ (executor : MatchingExecutor U)
      (command : JournalCommand), event = (deriveEvent underlying stream.lineageId executor command).1)
      (fun executor command _ => ⟨executor, command, rfl⟩)
      (freshExecutor U underlying (some config.microstructure) none config.hashOrder)
      (commandRecordsInOrder stream.records) rfl event ?_
    rw [executed]
    exact member

/-- What a boot has found: each hosted underlying was probed once, each recovered one is what its stream is reduced to,
and each actor is spawned from what was found. -/
structure Floor.BootedFrom (config : BootConfig) (streams : String → Option Stream) (floor : Floor U)
    (probed : List (String × Option (Stream × Recovered U))) : Prop where
  apart : (probed.map Prod.fst).Nodup
  journaled : floor.journaled = recoveredEvents (recoveredOf probed)
  index : floor.clordidIndex =
    (ClOrdIdIndex.withCeilings defaultMaxClOrdIdIndexEntries defaultMaxClOrdIdPerAccount).publishAll
      (floor.journaled.map Prod.snd)
  executions : floor.executions = InMemoryExecutionsStore.new.recordAll (floor.legs.map StoreLeg.record)
  found : ∀ entry ∈ recoveredOf probed, ∃ stream : Stream, (entry.1, some (stream, entry.2)) ∈ probed ∧
    streams entry.1 = some stream ∧ stream.lineageId = floor.lineageId ∧
      reduceIntoExecutor stream.records
        (freshExecutor U entry.1 (some config.microstructure) none config.hashOrder) entry.1 stream.lineageId
        (some config.microstructure) none = .ok entry.2
  hosted : ∀ underlying actor, floor.actors underlying = some actor →
    ∃ found, (underlying, found) ∈ probed ∧ SpawnedFrom config floor.lineageId underlying actor found

theorem Floor.booted_from {floor : Floor U} (booted : Floor.boot U config streams = .ok floor) :
    ∃ probed, floor.BootedFrom config streams probed := by
  obtain ⟨process, started, next⟩ := except_bind_ok booted
  obtain ⟨probed, probing, later⟩ := except_bind_ok next
  obtain ⟨stores, rebuilt, same⟩ := except_bind_ok later
  cases same
  obtain ⟨others, probes, further⟩ := except_bind_ok started
  obtain rfl := Except.ok.inj (probing.symm.trans probes)
  obtain ⟨lineage, resolved, last⟩ := except_bind_ok further
  obtain ⟨spawned, spawning, same⟩ := except_bind_ok last
  cases same
  obtain ⟨names, reduced⟩ := probeAll_reduced probing
  refine ⟨probed, ?_, rfl, rfl, ?_, fun entry member => ?_, fun underlying actor present => ?_⟩
  · rw [names]
    exact List.nodup_dedup _
  · obtain ⟨positions, -, rfl⟩ := (rebuildAll_ok rfl _).1 (rebuildShared_ok rebuilt)
    dsimp only
    unfold Floor.legs recoveredEvents
    rw [List.flatMap_map, List.flatMap_assoc, List.flatMap_assoc]
    simp only [List.flatMap_map]
    rfl
  · obtain ⟨stream, listed⟩ := recoveredOf_entry.1 member
    obtain ⟨held, done⟩ := reduced entry.1 stream entry.2 listed
    exact ⟨stream, listed, held, (resolveLineage_found resolved).2 entry.1 stream entry.2 listed, done⟩
  · obtain ⟨entry, here, rfl⟩ := Option.map_eq_some_iff.1 present
    have named : entry.1 = underlying := by simpa using List.find?_some here
    subst named
    exact spawnAll_spawned spawning entry (List.mem_of_find?_eq_some here)

/-- A recovered actor continues its executor past the last journaled sequence. -/
theorem recoveredActor_spawned {underlying : String} {stream : Stream} {recovered : Recovered U} {actor : VenueActor U}
    (spawned : recoveredActor U config lineage underlying stream recovered = .ok actor) :
    actor.underlying = underlying ∧ actor.lineageId = lineage ∧
      actor.executor = recovered.executor.withMmControlSink ∧ actor.sealed = none ∧
        actor.nextSequence = recovered.lastSequence.getD 0 + 1 := by
  unfold recoveredActor at spawned
  dsimp only at spawned
  split at spawned
  · cases spawned
  next start continued =>
    split at spawned
    · cases spawned
    · cases spawned
      exact ⟨rfl, rfl, rfl, rfl, (checkedNext_eq_some.1 continued).2⟩

/-- Where a floor starts. -/
theorem Floor.accounted_boot {floor : Floor U} (keyed : KeyedStreams streams)
    (booted : Floor.boot U config streams = .ok floor) : floor.Accounted := by
  obtain ⟨probed, start⟩ := Floor.booted_from booted
  have found : ∀ entry ∈ recoveredOf probed, ∃ stream : Stream, (entry.1, some (stream, entry.2)) ∈ probed ∧
      stream.lineageId = floor.lineageId ∧ (entry.2.events.map VenueEvent.underlyingSequence).Nodup ∧
        (∀ event ∈ entry.2.events, event.underlyingSequence ≤ entry.2.lastSequence.getD 0) ∧
          ∀ event ∈ entry.2.events, ∃ (executor : MatchingExecutor U) (command : JournalCommand),
            event = (deriveEvent entry.1 stream.lineageId executor command).1 := by
    intro entry member
    obtain ⟨stream, listed, held, same, done⟩ := start.found entry member
    exact ⟨stream, listed, same, reduced_events (keyed entry.1 stream held) done⟩
  constructor
  · intro underlying actor present
    obtain ⟨found, -, spawned⟩ := start.hosted underlying actor present
    cases found with
    | none =>
      have fresh : actor = freshActor U config floor.lineageId underlying := spawned
      rw [fresh]
      exact ⟨rfl, rfl⟩
    | some pair =>
      obtain ⟨own, lineage, -⟩ := recoveredActor_spawned spawned
      exact ⟨own, lineage⟩
  · intro entry member
    rw [start.journaled] at member
    obtain ⟨recovered, listed, event⟩ := mem_recoveredEvents.1 member
    obtain ⟨stream, -, same, -, -, derived⟩ := found _ listed
    rw [← same]
    exact derived entry.2 event
  · rw [start.journaled]
    unfold recoveredEvents
    rw [List.map_flatMap]
    have names := start.apart.sublist (recoveredOf_names probed)
    refine List.nodup_flatMap.2 ⟨fun entry member => ?_, ?_⟩
    · obtain ⟨stream, -, -, distinct, -⟩ := found entry member
      rw [List.map_map]
      exact List.Nodup.of_map Prod.snd (by rw [List.map_map]; exact distinct)
    · refine (List.pairwise_map.1 names).imp ?_
      intro entry other unlike pair here there
      obtain ⟨tagged, first, rfl⟩ := List.mem_map.1 here
      obtain ⟨second, last, same⟩ := List.mem_map.1 there
      obtain ⟨event, -, rfl⟩ := List.mem_map.1 first
      obtain ⟨event', -, rfl⟩ := List.mem_map.1 last
      exact unlike (congrArg Prod.fst same).symm
  · intro entry member actor present
    rw [start.journaled] at member
    obtain ⟨recovered, listed, event⟩ := mem_recoveredEvents.1 member
    obtain ⟨stream, sought, -, -, reached, -⟩ := found _ listed
    obtain ⟨own, probe, spawned⟩ := start.hosted entry.1 actor present
    obtain rfl : own = some (stream, recovered) :=
      congrArg Prod.snd (List.inj_on_of_nodup_map start.apart probe sought rfl)
    obtain ⟨-, -, -, -, next⟩ := recoveredActor_spawned spawned
    have low : entry.2.underlyingSequence ≤ recovered.lastSequence.getD 0 := reached entry.2 event
    intro _
    omega
  · exact ⟨floor.legs, List.Sublist.refl _, start.executions, fun _ => rfl⟩

end Opening

section Legs
variable {U : Upstream} {floor : Floor U}

/-- Every fill of a derived event is one leg. -/
theorem deriveEvent_legs (underlying : String) (lineage : LineageId) (executor : MatchingExecutor U)
    (command : JournalCommand) :
    ∃ symbol home, storeLegs U (deriveEvent underlying lineage executor command).1 =
      (outcomeFills (deriveEvent underlying lineage executor command).1.outcome).map
        (storeLeg (deriveEvent underlying lineage executor command).1 symbol home) := by
  by_cases filled : outcomeFills (deriveEvent underlying lineage executor command).1.outcome = []
  · refine ⟨"", "", ?_⟩
    unfold storeLegs
    rw [filled]
    split
    · rfl
    · split <;> rfl
  · obtain ⟨symbol, named, home⟩ := SequencedState.execute_fills_symbol executor.hashOrder executor.state
      (command.context underlying lineage) filled
    refine ⟨symbol, executor.state.underlyingBook.underlying, ?_⟩
    have named : commandSymbol (deriveEvent underlying lineage executor command).1.command = some symbol := named
    unfold storeLegs
    rw [named]
    dsimp only
    rw [home]

/-- What the fills of an event and its legs have in common. -/
structure Share where
  account : AccountId
  orderId : VenueOrderId
  executionId : ExecutionId
  liquidity : LiquidityFlag
  quantity : Nat
  deriving DecidableEq

def fillShare (fill : Fill) : Share :=
  ⟨fill.account, fill.orderId, fill.executionId, fill.liquidity, fill.quantity⟩

def recordShare (record : ExecutionRecord) : Share :=
  ⟨record.account, record.orderId, record.executionId, record.liquidity, record.quantity⟩

/-- The fills of the journaled events. -/
def Floor.fills (floor : Floor U) : List Fill := floor.journaled.flatMap fun entry => outcomeFills entry.2.outcome

namespace Floor.Accounted

theorem shares (accounted : floor.Accounted) :
    floor.fills.map fillShare = floor.legs.map fun leg => recordShare leg.record := by
  unfold fills legs
  rw [List.map_flatMap, List.map_flatMap]
  refine List.flatMap_congr fun entry member => ?_
  obtain ⟨executor, command, event⟩ := accounted.derived entry member
  obtain ⟨symbol, home, brought⟩ := deriveEvent_legs entry.1 floor.lineageId executor command
  rw [event, brought, List.map_map]
  rfl

/-- No two legs have one key. -/
theorem keys (accounted : floor.Accounted) (laws : MatchLaws U) :
    (floor.legs.map fun leg => leg.record.key).Nodup := by
  unfold legs
  rw [List.map_flatMap]
  refine List.nodup_flatMap.2 ⟨fun entry member => ?_, ?_⟩
  · obtain ⟨executor, command, event⟩ := accounted.derived entry member
    rw [event]
    exact (deriveEvent_legs_keys laws executor command).1
  · refine (List.pairwise_map.1 accounted.once).imp_of_mem ?_
    intro entry other listed present apart key here there
    obtain ⟨executor, command, event⟩ := accounted.derived entry listed
    obtain ⟨other', command', event'⟩ := accounted.derived other present
    obtain ⟨leg, brought, rfl⟩ := List.mem_map.1 here
    obtain ⟨second, found, same⟩ := List.mem_map.1 there
    rw [event] at brought
    rw [event'] at found
    obtain ⟨index, named⟩ := (deriveEvent_legs_keys laws executor command).2 leg brought
    obtain ⟨place, called⟩ := (deriveEvent_legs_keys laws other' command').2 second found
    have ids : second.record.executionId = leg.record.executionId := congrArg Prod.fst same
    rw [named, called] at ids
    obtain ⟨underlying, sequence, -⟩ := LineageId.executionId_inj ids
    refine apart (Prod.ext underlying.symm ?_)
    rw [event, event']
    exact sequence.symm

end Floor.Accounted

end Legs

end Fauxchange.Venue
