import Fauxchange.Exchange.DurableTurns
import Fauxchange.Exchange.LeafIds
import Fauxchange.Exchange.RestoredIds
import Fauxchange.Exchange.StoreRebuild
import Fauxchange.Venue.Lifetime

/-! The turn in which an actor runs a sweep, and the turns after it. What the actor has committed is what its reply
says, the legs in its event are the orders that rested and were asked for, and none of these rests again. -/

namespace Fauxchange.Exchange
open Lib UnderlyingOrderBook

/-- A state whose leaves and records name used ids only. -/
structure Dated {U : Upstream} (laws : LeafLaws U) (state : SequencedState U) (used : Nat → Prop) : Prop where
  standing : ∀ address, Standing (laws.orders (state.underlyingBook.leafAt address))
  listed : ∀ address, ∀ id ∈ idsOf (laws.orders (state.underlyingBook.leafAt address)), used id
  recorded : ∀ (id : Nat) (record : RestingRecord), state.registry.resting[id]? = some record → used id

namespace Dated
variable {U : Upstream} {laws : LeafLaws U} {state : SequencedState U} {used wider : Nat → Prop}

theorem mono (dated : Dated laws state used) (implied : ∀ id, used id → wider id) : Dated laws state wider where
  standing := dated.standing
  listed := fun address id listed => implied id (dated.listed address id listed)
  recorded := fun id record present => implied id (dated.recorded id record present)

theorem fresh (underlying : String) (config : BookConfig) :
    Dated laws (.fromBook ⟨underlying, config, ∅⟩) used := by
  have empty : ∀ address, laws.orders (UnderlyingOrderBook.leafAt ⟨underlying, config, ∅⟩ address) = [] :=
    fun _ => laws.new_orders config
  constructor
  · intro address
    change Standing (laws.orders (UnderlyingOrderBook.leafAt ⟨underlying, config, ∅⟩ address))
    rw [empty]
    exact ⟨List.nodup_nil, List.forall_mem_nil _⟩
  · intro address id listed
    change id ∈ idsOf (laws.orders (UnderlyingOrderBook.leafAt ⟨underlying, config, ∅⟩ address)) at listed
    rw [empty] at listed
    cases listed
  · intro id record present
    simp [SequencedState.fromBook, OrderRegistry.new] at present

/-- A command uses its own sequence. -/
theorem execute (dated : Dated laws state used) {ctx : ExecutionContext} (unused : ¬used ctx.sequence)
    (visits : VisitOrder) :
    Dated laws (state.execute visits ctx).2 (fun id => used id ∨ id = ctx.sequence) := by
  have sound : LeavesSound laws ctx.sequence state.underlyingBook :=
    ⟨dated.standing, fun address listed => unused (dated.listed address _ listed)⟩
  have leaves := SequencedState.execute_leaves visits sound
  constructor
  · exact fun address => (leaves address).standing
  · exact fun address id listed => ((leaves address).joined id listed).imp_left (dated.listed address id)
  · intro id record present
    exact ((SequencedState.execute_registry visits state ctx).resting present).imp_left (dated.recorded id record)

/-- Commands at different sequences, none of them used. -/
theorem reexecute {executor : MatchingExecutor U} (dated : Dated laws executor.state used) (underlying : String)
    (lineage : LineageId) {commands : List JournalCommand}
    (distinct : (commands.map JournalCommand.sequence).Nodup) (unused : ∀ command ∈ commands, ¬used command.sequence) :
    Dated laws (Exchange.reexecute underlying lineage executor commands).2.state
      (fun id => used id ∨ id ∈ commands.map JournalCommand.sequence) := by
  induction commands generalizing executor used with
  | nil => exact dated.mono fun _ => Or.inl
  | cons command rest ih =>
    obtain ⟨apart, others⟩ := List.nodup_cons.1 distinct
    have first : Dated laws (deriveEvent underlying lineage executor command).2.state
        (fun id => used id ∨ id = command.sequence) :=
      @execute _ _ _ _ dated (command.context underlying lineage) (unused command (by simp)) executor.hashOrder
    have free : ∀ other ∈ rest, ¬(used other.sequence ∨ other.sequence = command.sequence) := by
      rintro other member (old | same)
      · exact unused other (List.mem_cons_of_mem _ member) old
      · have listed : other.sequence ∈ rest.map JournalCommand.sequence := List.mem_map_of_mem member
        exact apart (same ▸ listed)
    refine (ih first others free).mono fun id reached => ?_
    rw [List.map_cons, List.mem_cons]
    exact or_assoc.1 reached

end Dated

namespace UnderlyingActor
variable {U : Upstream} {laws : LeafLaws U} {actor : VenueActor U} {input : Submission} {sweep : Sweep}

/-- The actor commits: its command is written ahead, and the event that answers it is appended. -/
def Commits (actor : VenueActor U) (input : Submission) : Prop :=
  actor.sealed = none ∧ (actor.ahead input).1 = .committed ∧
    (VenueJournal.append (actor.ahead input).2 (.event (actor.derived input).1)).1 = .ok ()

instance Commits.decidable : Decidable (actor.Commits input) := by
  unfold Commits
  infer_instance

/-- An actor between its turns. -/
structure Orderly (laws : LeafLaws U) (actor : VenueActor U) : Prop where
  hosted : actor.executor.state.underlyingBook.underlying = actor.underlying
  stores : actor.sealed = none → actor.fanOut.sealed = false
  dated : Dated laws actor.executor.state actor.Past

/-- An order rests at the actor. -/
def Rests (laws : LeafLaws U) (actor : VenueActor U) (id : Nat) (record : RestingRecord) : Prop :=
  Exchange.Rests (addressOf? U actor.underlying) (laws.viewOf actor.executor.state) id record

theorem advance_underlying (actor : VenueActor U) : actor.advance.underlying = actor.underlying ∧
    actor.advance.fanOut = actor.fanOut := by
  unfold advance
  split <;> exact ⟨rfl, rfl⟩

/-- A turn goes on with its actor's underlying, and only an actor that is sealed has a sealed fan-out. -/
theorem handle_frame (stores : actor.sealed = none → actor.fanOut.sealed = false) (input : Submission) :
    (actor.handle input).2.underlying = actor.underlying ∧
      ((actor.handle input).2.sealed = none → (actor.handle input).2.fanOut.sealed = false) := by
  have turn := actor.handle_turn input
  generalize actor.handle input = result at turn ⊢
  obtain ⟨reply, last⟩ := result
  cases turn with
  | refused reason closed => exact ⟨rfl, stores⟩
  | reused journal opened ahead => exact ⟨rfl, stores⟩
  | eventLost => exact ⟨rfl, fun wrong => (by cases wrong)⟩
  | projectionFailed => exact ⟨rfl, fun wrong => (by cases wrong)⟩
  | committed journal last fanOut opened ahead stored emitted =>
    have taken := (StoreFanOut.emit_ok (actor.derived input).1 (stores opened)).1 emitted
    obtain ⟨underlying, kept⟩ := advance_underlying { ({ actor with journal := last, executor :=
      (actor.derived input).2 }.publish (actor.derived input).1) with fanOut := fanOut }
    have sealed : fanOut.sealed = false := taken.sealed.trans (stores opened)
    exact ⟨underlying, fun _ => (congrArg StoreFanOut.sealed kept).trans sealed⟩

theorem past_executed (executes : actor.Executes input) : (actor.handle input).2.Past actor.nextSequence :=
  (actor.handle_nextSequence input).2 executes

theorem Orderly.handle (orderly : actor.Orderly laws) (input : Submission) : (actor.handle input).2.Orderly laws := by
  obtain ⟨underlying, stores⟩ := handle_frame orderly.stores input
  have keeps := (actor.handle_keeps input).2
  rcases actor.handle_executor input with same | ⟨opened, committed, executed⟩
  · exact ⟨by rw [same, underlying, orderly.hosted], stores, same ▸ orderly.dated.mono keeps⟩
  · have reached := past_executed ⟨opened, committed⟩
    refine ⟨?_, stores, ?_⟩
    · rw [executed, underlying, ← orderly.hosted]
      exact SequencedState.execute_underlying ..
    · have unused : ¬actor.Past actor.nextSequence := fun past => Nat.lt_irrefl _ (past opened)
      have next := @Dated.execute _ _ _ _ orderly.dated
        ((actor.envelope input).context actor.underlying actor.lineageId) unused actor.executor.hashOrder
      rw [executed]
      refine next.mono fun id used => ?_
      rcases used with old | rfl
      · exact keeps id old
      · exact reached

theorem Orderly.run (orderly : actor.Orderly laws) (inputs : List Submission) : (actor.run inputs).2.Orderly laws := by
  induction inputs generalizing actor with
  | nil => exact orderly
  | cons input rest ih =>
    rw [run_cons]
    exact ih (orderly.handle input)

/-- What a committed turn is answered with. -/
def committedReceipt (actor : VenueActor U) (input : Submission) : Receipt :=
  Receipt.committed actor.nextSequence input.venueTs (actor.derived input).1.outcome

/-- The reply to a command that fills nothing tells whether the actor has committed. -/
theorem Orderly.reply (orderly : actor.Orderly laws) (silent : commandSymbol input.command = none) :
    (actor.Commits input → (actor.handle input).1 = .ok (actor.committedReceipt input)) ∧
      (¬actor.Commits input → ∃ error, (actor.handle input).1 = .error error) := by
  have turn := actor.handle_turn input
  generalize actor.handle input = result at turn ⊢
  obtain ⟨reply, last⟩ := result
  unfold Commits
  cases turn with
  | refused reason closed =>
    refine ⟨fun ⟨opened, _⟩ => ?_, fun _ => ⟨_, rfl⟩⟩
    rw [opened] at closed
    cases closed
  | reused journal opened ahead =>
    refine ⟨fun ⟨_, committed, _⟩ => ?_, fun _ => ⟨_, rfl⟩⟩
    rw [ahead] at committed
    cases committed
  | eventLost journal last error opened ahead lost =>
    refine ⟨fun ⟨_, _, stored⟩ => ?_, fun _ => ⟨_, rfl⟩⟩
    rw [ahead, lost] at stored
    cases stored
  | projectionFailed journal last error fanOut opened ahead stored failed =>
    have emitted : StoreFanOut.emit actor.fanOut (actor.derived input).1 = (.ok (), actor.fanOut) := by
      have named : commandSymbol (actor.derived input).1.command = none := silent
      unfold StoreFanOut.emit
      rw [orderly.stores opened, named]
      rfl
    cases failed.symm.trans emitted
  | committed journal last fanOut opened ahead stored emitted =>
    exact ⟨fun _ => rfl, fun missed => absurd ⟨opened, by rw [ahead], by rw [ahead, stored]⟩ missed⟩

/-- The event of a committed turn is durable after it. -/
theorem event_durable (commits : actor.Commits input) :
    .event (actor.derived input).1 ∈ (actor.handle input).2.journal.records := by
  obtain ⟨opened, committed, stored⟩ := commits
  have durable : .event (actor.derived input).1 ∈
      (FaultJournal.append (actor.ahead input).2 (.event (actor.derived input).1)).2.records :=
    LateLog.mem_settle_of_mem JournalRecord.key (FaultJournal.attempt_ok stored)
  have turn := actor.handle_turn input
  generalize actor.handle input = result at turn ⊢
  obtain ⟨reply, last⟩ := result
  cases turn with
  | refused reason closed =>
    rw [opened] at closed
    cases closed
  | reused journal opened ahead =>
    rw [ahead] at committed
    cases committed
  | eventLost journal last error opened ahead lost =>
    rw [ahead, lost] at stored
    cases stored
  | projectionFailed journal last error fanOut opened ahead kept failed =>
    rw [ahead] at durable
    have same : (FaultJournal.append journal (.event (actor.derived input).1)).2 = last := congrArg Prod.snd kept
    have held : .event (actor.derived input).1 ∈ last.records := same ▸ durable
    exact held
  | committed journal last fanOut opened ahead kept emitted =>
    rw [ahead] at durable
    have same : (FaultJournal.append journal (.event (actor.derived input).1)).2 = last := congrArg Prod.snd kept
    have held : .event (actor.derived input).1 ∈ last.records := same ▸ durable
    exact mem_advance held

theorem commits_executor (commits : actor.Commits input) : (actor.handle input).2.executor = (actor.derived input).2 ∧
    actor.Executes input := by
  obtain ⟨opened, committed, stored⟩ := commits
  refine ⟨?_, opened, committed⟩
  have turn := actor.handle_turn input
  generalize actor.handle input = result at turn ⊢
  obtain ⟨reply, last⟩ := result
  cases turn with
  | refused reason closed =>
    rw [opened] at closed
    cases closed
  | reused journal opened ahead =>
    rw [ahead] at committed
    cases committed
  | eventLost journal last error opened ahead lost => rfl
  | projectionFailed journal last error fanOut opened ahead stored failed => rfl
  | committed journal last fanOut opened ahead stored emitted => exact advance_executor _

/-- A committed sweep: its legs are those of the orders that rested and that it asks for, and exactly these are gone. -/
structure Took (laws : LeafLaws U) (sweep : Sweep) (actor after : VenueActor U) (legs : List CancelledLeg)
    (taken : List (Nat × RestingRecord)) : Prop where
  once : (taken.map Prod.fst).Nodup
  asked : ∀ id record, (id, record) ∈ taken ↔ actor.Rests laws id record ∧ sweep.Matches U record
  reported : legs = taken.map fun target => massCancelLeg target.2
  left : ∀ id record, after.Rests laws id record ↔ actor.Rests laws id record ∧ id ∉ taken.map Prod.fst

theorem Orderly.sweeps (orderly : actor.Orderly laws) (cancels : CancelsResting laws) (commits : actor.Commits input)
    (asks : sweepOf input.command = some sweep) :
    ∃ taken, Took laws sweep actor (actor.handle input).2 (sweptLegs (actor.derived input).1.outcome) taken := by
  obtain ⟨executed, -⟩ := commits_executor commits
  have underlying := (handle_frame orderly.stores input).1
  have home : actor.executor.state.home = addressOf? U actor.underlying := congrArg (addressOf? U) orderly.hosted
  obtain ⟨after, legs⟩ := @execute_sweeping U actor.executor.state sweep
    ((actor.envelope input).context actor.underlying actor.lineageId) asks actor.executor.hashOrder
  obtain ⟨taken, once, asked, told, loses⟩ :=
    @sweeping_loses U laws actor.executor.state cancels sweep actor.executor.hashOrder actor.nextSequence
  rw [home] at asked loses
  refine ⟨taken, once, asked, legs.trans told, fun id record => ?_⟩
  have state : (actor.handle input).2.executor.state =
      (actor.executor.state.sweeping actor.executor.hashOrder actor.nextSequence sweep).2 := by
    rw [executed]
    exact after
  unfold UnderlyingActor.Rests
  rw [underlying, state]
  exact loses id record

section Later
variable (orderly : actor.Orderly laws)

include orderly in
/-- What rests after a turn under an id that no later command can take rested before it. -/
theorem Orderly.rested {id : Nat} {record : RestingRecord} (past : actor.Past id)
    (rests : (actor.handle input).2.Rests laws id record) : actor.Rests laws id record := by
  have underlying := (handle_frame orderly.stores input).1
  unfold UnderlyingActor.Rests at rests ⊢
  rw [underlying] at rests
  rcases actor.handle_executor input with same | ⟨opened, committed, executed⟩
  · rw [same] at rests
    exact rests
  · rw [executed] at rests
    obtain ⟨recorded, address, lives, listed⟩ := rests
    have early : id ≠ actor.nextSequence := Nat.ne_of_lt (past opened)
    have sound : LeavesSound laws actor.nextSequence actor.executor.state.underlyingBook := by
      refine ⟨orderly.dated.standing, fun address present => ?_⟩
      exact Nat.lt_irrefl _ (orderly.dated.listed address _ present opened)
    have leaves := @SequencedState.execute_leaves U laws actor.executor.state
      ((actor.envelope input).context actor.underlying actor.lineageId) actor.executor.hashOrder sound
    refine ⟨?_, address, lives, ((leaves address).joined id listed).resolve_right early⟩
    exact ((SequencedState.execute_registry actor.executor.hashOrder actor.executor.state
      ((actor.envelope input).context actor.underlying actor.lineageId)).resting recorded).resolve_right early

include orderly in
theorem Orderly.rested_run {inputs : List Submission} {id : Nat} {record : RestingRecord} (past : actor.Past id)
    (rests : (actor.run inputs).2.Rests laws id record) : actor.Rests laws id record := by
  induction inputs generalizing actor with
  | nil => exact rests
  | cons input rest ih =>
    rw [run_cons] at rests
    exact orderly.rested past (ih (orderly.handle input) ((actor.handle_keeps input).2 id past) rests)

end Later

theorem run_underlying (orderly : actor.Orderly laws) (inputs : List Submission) :
    (actor.run inputs).2.underlying = actor.underlying := by
  induction inputs generalizing actor with
  | nil => rfl
  | cons input rest ih =>
    rw [run_cons]
    exact (ih (orderly.handle input)).trans (handle_frame orderly.stores input).1

theorem run_keeps (inputs : List Submission) : (∀ record ∈ actor.journal.records,
      record ∈ (actor.run inputs).2.journal.records) ∧ ∀ id, actor.Past id → (actor.run inputs).2.Past id := by
  induction inputs generalizing actor with
  | nil => exact ⟨fun _ => id, fun _ => id⟩
  | cons input rest ih =>
    rw [run_cons]
    obtain ⟨durable, past⟩ := actor.handle_keeps input
    obtain ⟨kept, beyond⟩ := @ih (actor.handle input).2
    exact ⟨fun record old => kept record (durable record old), fun id reached => beyond id (past id reached)⟩

/-- The actors of a venue: booted fresh, or recovered from a durable stream that holds one record a key, and after any
turns. -/
inductive Running : VenueActor U → Prop where
  | fresh (config : Venue.BootConfig) (lineage : LineageId) (underlying : String) :
      Running (Venue.freshActor U config lineage underlying)
  | recovered {config : Venue.BootConfig} {lineage : LineageId} {underlying : String} {stream : Venue.Stream}
      {recovered : Recovered U} {actor : VenueActor U} (keyed : (stream.records.map JournalRecord.key).Nodup)
      (probed : Venue.probe U config (some stream) underlying = .ok (some (stream, recovered)))
      (spawned : Venue.recoveredActor U config lineage underlying stream recovered = .ok actor) : Running actor
  | handled {actor : VenueActor U} (running : Running actor) (input : Submission) : Running (actor.handle input).2

/-- A stream of one record a key has one command a sequence. -/
theorem commandRecordsInOrder_nodup {records : List JournalRecord} (keyed : (records.map JournalRecord.key).Nodup) :
    ((commandRecordsInOrder records).map JournalCommand.sequence).Nodup := by
  have listed : ((records.filterMap JournalRecord.asCommand?).map fun command =>
      (command.sequence, RecordKind.command)).Sublist (records.map JournalRecord.key) := by
    induction records with
    | nil => exact .slnil
    | cons record rest ih =>
      have later := ih (List.nodup_cons.1 keyed).2
      cases record with
      | command command => exact later.cons_cons _
      | event event => exact later.cons _
      | epoch marker => exact later.cons _
  have distinct := keyed.sublist listed
  have sequences : ((records.filterMap JournalRecord.asCommand?).map JournalCommand.sequence).Nodup := by
    refine List.Nodup.of_map (fun sequence => (sequence, RecordKind.command)) ?_
    rw [List.map_map]
    exact distinct
  exact (((List.perm_insertionSort _ _).map JournalCommand.sequence).nodup_iff).2 sequences

theorem le_last_of_mem {records : List JournalRecord} {command : JournalCommand}
    (listed : command ∈ commandRecordsInOrder records) :
    command.sequence ≤ ((records.map JournalRecord.sequence).max?).getD 0 := by
  obtain ⟨record, durable, shape⟩ := List.mem_filterMap.1 ((List.perm_insertionSort _ _).mem_iff.1 listed)
  rw [JournalRecord.asCommand?_eq_some] at shape
  have present : command.sequence ∈ records.map JournalRecord.sequence := by
    refine List.mem_map.2 ⟨record, durable, ?_⟩
    rw [shape]
    rfl
  cases found : (records.map JournalRecord.sequence).max? with
  | none =>
    rw [List.max?_eq_none_iff.1 found] at present
    cases present
  | some last => exact (List.max?_eq_some_iff.1 found).2 _ present

theorem orderly_fresh (config : Venue.BootConfig) (lineage : LineageId) (underlying : String) :
    (Venue.freshActor U config lineage underlying).Orderly laws :=
  ⟨rfl, fun _ => rfl, .fresh underlying _⟩

/-- What a probe has found is what the stream is reduced to. -/
theorem probe_reduced {config : Venue.BootConfig} {underlying : String} {stream : Option Venue.Stream}
    {found : Venue.Stream} {recovered : Recovered U}
    (probed : Venue.probe U config stream underlying = .ok (some (found, recovered))) :
    reduceIntoExecutor found.records
      (freshExecutor U underlying (some config.microstructure) none config.hashOrder) underlying found.lineageId
      (some config.microstructure) none = .ok recovered := by
  unfold Venue.probe at probed
  split at probed
  · cases probed
  · split at probed
    · cases probed
    next reduced =>
      obtain ⟨last, -, same⟩ := Option.map_eq_some_iff.1 (Except.ok.inj probed)
      obtain ⟨rfl, rfl⟩ := Prod.mk.inj same
      exact reduced

theorem reduceIntoExecutor_last {records : List JournalRecord} {executor : MatchingExecutor U} {underlying : String}
    {lineage : LineageId} {microstructure : Option Microstructure.MicrostructureConfig} {index : Option ClOrdIdIndex}
    {recovered : Recovered U}
    (reduced : reduceIntoExecutor records executor underlying lineage microstructure index = .ok recovered) :
    recovered.lastSequence = (records.map JournalRecord.sequence).max? := by
  unfold reduceIntoExecutor at reduced
  split at reduced
  · cases reduced
  · cases reduced
    rfl

/-- A recovered actor continues past every sequence of its stream. -/
theorem orderly_recovered {config : Venue.BootConfig} {lineage : LineageId} {underlying : String}
    {stream : Venue.Stream} {recovered : Recovered U} (keyed : (stream.records.map JournalRecord.key).Nodup)
    (probed : Venue.probe U config (some stream) underlying = .ok (some (stream, recovered)))
    (spawned : Venue.recoveredActor U config lineage underlying stream recovered = .ok actor) : actor.Orderly laws := by
  have reduced := probe_reduced probed
  have rebuilt := congrArg Prod.snd (reduceIntoExecutor_executor underlying stream.lineageId reduced)
  have last := reduceIntoExecutor_last reduced
  have booted : Dated laws (freshExecutor U underlying (some config.microstructure) none config.hashOrder).state
      (fun _ => False) := .fresh underlying _
  have dated := booted.reexecute underlying stream.lineageId (commandRecordsInOrder_nodup keyed) fun _ _ => id
  have hosted := reexecute_underlying underlying stream.lineageId
    (freshExecutor U underlying (some config.microstructure) none config.hashOrder)
    (commandRecordsInOrder stream.records)
  rw [rebuilt] at dated hosted
  unfold Venue.recoveredActor at spawned
  dsimp only at spawned
  split at spawned
  · cases spawned
  next start continued =>
    split at spawned
    · cases spawned
    next stores projected =>
      obtain rfl := Except.ok.inj spawned
      have taken := (@StoreFanOut.emitAll_ok U { StoreFanOut.new U with sealed := false } stores recovered.events
        rfl).1 projected
      refine ⟨hosted, fun _ => taken.sealed, dated.mono fun id used _ => ?_⟩
      obtain ⟨command, listed, rfl⟩ := List.mem_map.1 (used.resolve_left not_false)
      have reached := le_last_of_mem listed
      rw [last] at continued
      have next := (checkedNext_eq_some.1 continued).2
      dsimp only
      omega

theorem Running.orderly (running : Running actor) : actor.Orderly laws := by
  induction running with
  | fresh config lineage underlying => exact orderly_fresh config lineage underlying
  | recovered keyed probed spawned => exact orderly_recovered keyed probed spawned
  | handled _ input ih => exact ih.handle input

end UnderlyingActor

end Fauxchange.Exchange
