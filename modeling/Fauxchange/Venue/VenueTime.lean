import Fauxchange.Exchange.ReferenceBook
import Fauxchange.Lib.Effects
import Fauxchange.Venue.Lifetime

/-! The venue times of a journal over whole lifetimes. A process never takes its clock back, so the journal of an
underlying goes back in time only behind a boot: where a turn is taken before the clock has reached what was
recovered. -/

namespace Fauxchange.Exchange
open Lib

def JournalRecord.venueTs : JournalRecord → Nat
  | .command stamped => stamped.venueTs
  | .event stored => stored.venueTs
  | .epoch marker => marker.venueTs

/-- The order of a journal: by sequence, and a command before its event. -/
def JournalRecord.Before (early late : JournalRecord) : Prop :=
  early.sequence < late.sequence ∨ early.sequence = late.sequence ∧ early.kind = .command ∧ late.kind = .event

instance (early late : JournalRecord) : Decidable (early.Before late) := inferInstanceAs (Decidable (_ ∨ _))

/-- The venue times do not decrease in sequence order. -/
def Chronological (records : List JournalRecord) : Prop :=
  ∀ early ∈ records, ∀ late ∈ records, early.Before late → early.venueTs ≤ late.venueTs

instance (records : List JournalRecord) : Decidable (Chronological records) := inferInstanceAs (Decidable (∀ _ ∈ _, _))

theorem Chronological.subset {records fewer : List JournalRecord} (chronological : Chronological records)
    (subset : ∀ record ∈ fewer, record ∈ records) : Chronological fewer :=
  fun early first late second => chronological early (subset early first) late (subset late second)

/-- A record that comes behind all the others, and is stamped no earlier than they are. -/
theorem Chronological.insert {records more : List JournalRecord} {record : JournalRecord}
    (chronological : Chronological records) (only : ∀ other ∈ more, other ∈ records ∨ other = record)
    (last : ∀ other ∈ records, ¬ record.Before other) (late : ∀ other ∈ records, other.venueTs ≤ record.venueTs) :
    Chronological more := by
  intro early first late' second before
  rcases only early first with old | rfl
  · rcases only late' second with older | rfl
    · exact chronological early old late' older before
    · exact late early old
  · rcases only late' second with older | rfl
    · exact absurd before (last late' older)
    · exact le_rfl

namespace FaultJournal
variable {journal : FaultJournal} {record other : JournalRecord}

/-- What is durable, or may become so. -/
def held (log : LateLog JournalRecord) : List JournalRecord := log.records ++ log.inFlight

theorem held_settle {log : LateLog JournalRecord} (positions : List Nat)
    (member : record ∈ held (LateLog.settle JournalRecord.key log positions)) : record ∈ held log := by
  refine LateLog.settle_induction JournalRecord.key (P := fun later => ∀ record ∈ held later, record ∈ held log) ?_ log
    positions (fun _ same => same) record member
  intro later position kept record landed
  rcases List.mem_append.1 landed with durable | flying
  · rcases LateLog.mem_land JournalRecord.key durable with old | late
    · exact kept record (List.mem_append_left _ old)
    · exact kept record (List.mem_append_right _ (List.mem_of_getElem? (Option.mem_toList.1 late)))
  · exact kept record (List.mem_append_right _ (LateLog.land_inFlight_subset JournalRecord.key later position flying))

theorem held_attempt {log : LateLog JournalRecord} {fault : AppendFault}
    (member : other ∈ held (attempt log record fault).2) : other ∈ held log ∨ other = record := by
  have written : other ∈ held { log with records := (appendContract log.records record).2 } →
      other ∈ held log ∨ other = record := by
    intro landed
    rw [appendContract_records] at landed
    rcases List.mem_append.1 landed with durable | flying
    · exact (LateLog.mem_write JournalRecord.key durable).imp_left fun old => List.mem_append_left _ old
    · exact Or.inl (List.mem_append_right _ flying)
  match fault with
  | .none => exact written member
  | .appendFailed _ => exact Or.inl member
  | .resourceLimit .. => exact Or.inl member
  | .ambiguous _ true => exact written member
  | .ambiguous _ false =>
    rcases List.mem_append.1 member with durable | flying
    · exact Or.inl (List.mem_append_left _ durable)
    · rcases List.mem_append.1 flying with old | new
      · exact Or.inl (List.mem_append_right _ old)
      · exact Or.inr (List.mem_singleton.1 new)

/-- An append brings its own record only. -/
theorem held_append (member : other ∈ held (journal.append record).2.log) : other ∈ held journal.log ∨ other = record := by
  have landed := held_settle _ member
  rcases held_attempt landed with old | same
  · exact Or.inl (held_settle _ old)
  · exact Or.inr same

end FaultJournal

end Fauxchange.Exchange

namespace Fauxchange.Venue
open Exchange Lib Simulation Microstructure FaultJournal UnderlyingActor

variable {U : Upstream}

/-- The journal of an actor at a venue time: nothing stands behind the next sequence, and what was not recovered is
stamped by now. -/
structure Timely (now : Nat) (recovered : List JournalRecord) (actor : VenueActor U) : Prop where
  chronological : Chronological (held actor.journal.log)
  reached : ∀ record ∈ held actor.journal.log, record.sequence ≤ actor.nextSequence
  answered : actor.sealed = none → ∀ record ∈ held actor.journal.log, record.kind = .event →
    record.sequence < actor.nextSequence
  stamped : ∀ record ∈ held actor.journal.log, record ∈ recovered ∨ record.venueTs ≤ now

section Turns
variable {now : Nat} {recovered : List JournalRecord} {actor : VenueActor U} {command : VenueCommand}

theorem Timely.later {later : Nat} (timely : Timely now recovered actor) (passed : now ≤ later) :
    Timely later recovered actor :=
  { timely with stamped := fun record member => (timely.stamped record member).imp_right fun early => early.trans passed }

/-- The counter moves on behind a complete pair, or the actor is sealed. -/
theorem Timely.advance (chronological : Chronological (held actor.journal.log))
    (reached : ∀ record ∈ held actor.journal.log, record.sequence ≤ actor.nextSequence)
    (stamped : ∀ record ∈ held actor.journal.log, record ∈ recovered ∨ record.venueTs ≤ now) :
    Timely now recovered actor.advance := by
  unfold UnderlyingActor.advance
  split
  next next advanced =>
    have past : next = actor.nextSequence + 1 := (checkedNext_eq_some.1 advanced).2
    refine ⟨chronological, ?_, ?_, stamped⟩
    · intro record member
      have low := reached record member
      change record.sequence ≤ next
      omega
    · intro _ record member _
      have low := reached record member
      change record.sequence < next
      omega
  next => exact ⟨chronological, reached, (fun wrong => by cases wrong), stamped⟩

/-- The write-ahead command comes behind everything that the journal holds. -/
theorem Timely.commands (timely : Timely now recovered actor) (opened : actor.sealed = none)
    (caughtUp : ∀ record ∈ recovered, record.venueTs ≤ now) {journal : FaultJournal}
    (appended : (actor.journal.append (actor.commandRecord ⟨now, command⟩)).2 = journal) :
    Chronological (held journal.log) ∧ (∀ record ∈ held journal.log, record.sequence ≤ actor.nextSequence) ∧
      (∀ record ∈ held journal.log, record.kind = .event → record.sequence < actor.nextSequence) ∧
      ∀ record ∈ held journal.log, record.venueTs ≤ now := by
  have only : ∀ record ∈ held journal.log,
      record ∈ held actor.journal.log ∨ record = actor.commandRecord ⟨now, command⟩ := by
    intro record member
    rw [← appended] at member
    exact held_append member
  have early : ∀ record ∈ held actor.journal.log, record.venueTs ≤ now := by
    intro record member
    rcases timely.stamped record member with old | stamped
    · exact caughtUp record old
    · exact stamped
  refine ⟨timely.chronological.insert only ?_ early, ?_, ?_, ?_⟩
  · rintro other member (ahead | ⟨same, -, event⟩)
    · exact absurd (timely.reached other member) (Nat.not_le.2 ahead)
    · have behind := timely.answered opened other member event
      have here : actor.nextSequence = other.sequence := same
      omega
  · intro record member
    rcases only record member with old | rfl
    · exact timely.reached record old
    · exact le_rfl
  · intro record member event
    rcases only record member with old | rfl
    · exact timely.answered opened record old event
    · cases event
  · intro record member
    rcases only record member with old | rfl
    · exact early record old
    · exact le_rfl

/-- A turn that is taken once the clock has reached what was recovered. -/
theorem Timely.handle (timely : Timely now recovered actor) (caughtUp : ∀ record ∈ recovered, record.venueTs ≤ now) :
    Timely now recovered (actor.handle ⟨now, command⟩).2 := by
  generalize result : actor.handle ⟨now, command⟩ = reply
  have turn := actor.handle_turn ⟨now, command⟩
  rw [result] at turn
  obtain ⟨reply, last⟩ := reply
  -- the event of a turn that has written its command
  have answers : ∀ {journal ended : FaultJournal} {answer : Except JournalError Unit}, actor.sealed = none →
      actor.ahead ⟨now, command⟩ = (.committed, journal) →
      VenueJournal.append journal (.event (actor.derived ⟨now, command⟩).1) = (answer, ended) →
      Chronological (held ended.log) ∧ (∀ record ∈ held ended.log, record.sequence ≤ actor.nextSequence) ∧
        ∀ record ∈ held ended.log, record ∈ recovered ∨ record.venueTs ≤ now := by
    intro journal ended answer opened ahead stored
    obtain ⟨chronological, reached, answered, stamped⟩ := timely.commands opened caughtUp (ahead_journal ahead)
    have appended : (journal.append (.event (actor.derived ⟨now, command⟩).1)).2 = ended := congrArg Prod.snd stored
    have only : ∀ record ∈ held ended.log,
        record ∈ held journal.log ∨ record = .event (actor.derived ⟨now, command⟩).1 := by
      intro record member
      rw [← appended] at member
      exact held_append member
    refine ⟨chronological.insert only ?_ stamped, ?_, ?_⟩
    · rintro other member (ahead | ⟨same, wrong, -⟩)
      · exact absurd (reached other member) (Nat.not_le.2 ahead)
      · cases wrong
    · intro record member
      rcases only record member with old | rfl
      · exact reached record old
      · exact le_rfl
    · intro record member
      rcases only record member with old | rfl
      · exact Or.inr (stamped record old)
      · exact Or.inr le_rfl
  cases turn with
  | refused reason closed => exact timely
  | reused journal opened ahead =>
    obtain ⟨chronological, reached, answered, stamped⟩ := timely.commands opened caughtUp (ahead_journal ahead)
    exact ⟨chronological, reached, fun _ => answered, fun record member => Or.inr (stamped record member)⟩
  | eventLost journal ended error opened ahead lost =>
    obtain ⟨chronological, reached, stamped⟩ := answers opened ahead lost
    exact ⟨chronological, reached, (fun wrong => by cases wrong), stamped⟩
  | projectionFailed journal ended error fanOut opened ahead stored failed =>
    obtain ⟨chronological, reached, stamped⟩ := answers opened ahead stored
    exact ⟨chronological, reached, (fun wrong => by cases wrong), stamped⟩
  | committed journal ended fanOut opened ahead stored emitted =>
    obtain ⟨chronological, reached, stamped⟩ := answers opened ahead stored
    apply Timely.advance
    · exact chronological
    · exact reached
    · exact stamped

end Turns

section Boots
variable {config : BootConfig} {streams : String → Option Stream} {underlying : String} {lineage : LineageId}

/-- What a probe finds is the stream itself, recovered up to its last sequence. -/
theorem probe_found {stream : Option Stream} {found : Stream} {recovered : Recovered U}
    (probed : probe U config stream underlying = .ok (some (found, recovered))) :
    stream = some found ∧ recovered.lastSequence = (found.records.map JournalRecord.sequence).max? := by
  unfold probe at probed
  split at probed
  next => cases probed
  next stream =>
    split at probed
    next => cases probed
    next reduced =>
      obtain ⟨last, reached, same⟩ := Option.map_eq_some_iff.1 (Except.ok.inj probed)
      cases same
      refine ⟨rfl, ?_⟩
      unfold reduceIntoExecutor at reduced
      split at reduced
      next => cases reduced
      next => exact (congrArg Recovered.lastSequence (Except.ok.inj reduced)).symm

theorem probeAll_found {found : Stream} {recovered : Recovered U} {underlyings : List String}
    {probed : List (String × Option (Stream × Recovered U))} (done : probeAll U config streams underlyings = .ok probed)
    (member : (underlying, some (found, recovered)) ∈ probed) :
    streams underlying = some found ∧ recovered.lastSequence = (found.records.map JournalRecord.sequence).max? := by
  induction underlyings generalizing probed with
  | nil =>
    cases done
    cases member
  | cons first rest ih =>
    obtain ⟨head, probing, next⟩ := except_bind_ok done
    obtain ⟨later, probes, same⟩ := except_bind_ok next
    cases same
    rcases List.mem_cons.1 member with here | there
    · cases here
      obtain ⟨present, last⟩ := probe_found probing
      split at present
      · exact ⟨present, last⟩
      · cases present
    · exact ih probes there

/-- A recovered actor starts behind what it was recovered from. -/
theorem recoveredActor_timely {stream : Stream} {recovered : Recovered U} {actor : VenueActor U} (now : Nat)
    (chronological : Chronological stream.records)
    (last : recovered.lastSequence = (stream.records.map JournalRecord.sequence).max?)
    (spawned : recoveredActor U config lineage underlying stream recovered = .ok actor) :
    Timely now stream.records actor := by
  unfold recoveredActor at spawned
  dsimp only at spawned
  split at spawned
  next => cases spawned
  next start advanced =>
    split at spawned
    next => cases spawned
    next stores rebuilt =>
      cases spawned
      have past : start = recovered.lastSequence.getD 0 + 1 := (checkedNext_eq_some.1 advanced).2
      have behind : ∀ record ∈ stream.records, record.sequence < start := by
        intro record member
        have listed : record.sequence ∈ stream.records.map JournalRecord.sequence := List.mem_map_of_mem member
        cases top : (stream.records.map JournalRecord.sequence).max? with
        | none =>
          rw [List.max?_eq_none_iff.1 top] at listed
          cases listed
        | some greatest =>
          have low := (List.max?_eq_some_iff.1 top).2 _ listed
          rw [past, last, top, Option.getD_some]
          omega
      have held_only : ∀ record ∈ held ⟨stream.records, []⟩, record ∈ stream.records := by
        intro record member
        simpa [held] using member
      refine ⟨chronological.subset held_only, ?_, ?_, ?_⟩
      · exact fun record member => (behind record (held_only record member)).le
      · exact fun _ record member _ => behind record (held_only record member)
      · exact fun record member => Or.inl (held_only record member)

theorem freshActor_timely (now : Nat) : Timely now [] (freshActor U config lineage underlying) := by
  have empty : ∀ record ∈ held (freshActor U config lineage underlying).journal.log, False := by
    intro record member
    cases member
  refine ⟨?_, ?_, ?_, ?_⟩
  · exact fun early first => (empty early first).elim
  · exact fun record member => (empty record member).elim
  · exact fun _ record member => (empty record member).elim
  · exact fun record member => (empty record member).elim

theorem spawnAll_timely {probed : List (String × Option (Stream × Recovered U))}
    {spawned : List (String × VenueActor U × List JournalRecord)} (now : Nat)
    (sound : ∀ underlying found recovered, (underlying, some (found, recovered)) ∈ probed →
      Chronological found.records ∧ recovered.lastSequence = (found.records.map JournalRecord.sequence).max?)
    (done : spawnAll U config lineage probed = .ok spawned) :
    ∀ entry ∈ spawned, Timely now entry.2.2 entry.2.1 := by
  induction probed generalizing spawned with
  | nil =>
    cases done
    exact List.forall_mem_nil _
  | cons first rest ih =>
    have later : ∀ underlying found recovered, (underlying, some (found, recovered)) ∈ rest →
        Chronological found.records ∧ recovered.lastSequence = (found.records.map JournalRecord.sequence).max? :=
      fun underlying found recovered member => sound underlying found recovered (List.mem_cons_of_mem _ member)
    obtain ⟨underlying, found⟩ := first
    cases found with
    | none =>
      obtain ⟨others, spawns, same⟩ := except_bind_ok done
      cases same
      exact List.forall_mem_cons.2 ⟨freshActor_timely now, ih later spawns⟩
    | some pair =>
      obtain ⟨actor, spawning, next⟩ := except_bind_ok done
      obtain ⟨others, spawns, same⟩ := except_bind_ok next
      cases same
      obtain ⟨chronological, last⟩ := sound underlying pair.1 pair.2 List.mem_cons_self
      exact List.forall_mem_cons.2 ⟨recoveredActor_timely now chronological last spawning, ih later spawns⟩

end Boots

/-- Every actor is timely, by the clock of its process. -/
def Process.Timely (process : Process U) : Prop :=
  ∀ underlying actor, process.actors underlying = some actor →
    Venue.Timely process.clock.nowMs (process.recoveredFrom underlying) actor

/-- The durable streams are in order, and a running process is timely. -/
structure Lifetime.Timely (venue : Lifetime U) : Prop where
  streams : ∀ underlying stream, venue.streams underlying = some stream → Chronological stream.records
  process : ∀ process, venue.process = some process → process.Timely

theorem boot_timely {config : BootConfig} {streams : String → Option Stream} {process : Process U}
    (sound : ∀ underlying stream, streams underlying = some stream → Chronological stream.records)
    (booted : boot U config streams = .ok process) : process.Timely := by
  obtain ⟨probed, probing, next⟩ := except_bind_ok booted
  obtain ⟨lineage, resolved, last⟩ := except_bind_ok next
  obtain ⟨spawned, spawning, same⟩ := except_bind_ok last
  cases same
  intro underlying actor present
  have timely := spawnAll_timely (SimClock.new config.clock).nowMs (fun other found recovered member => by
    obtain ⟨stored, reached⟩ := probeAll_found probing member
    exact ⟨sound other found stored, reached⟩) spawning
  obtain ⟨entry, found, rfl⟩ := Option.map_eq_some_iff.1 present
  have member := List.mem_of_find?_eq_some found
  dsimp only
  rw [found]
  exact timely entry member

/-- A turn finds the clock at or past everything that its journal was recovered from. -/
def CaughtUp (venue : Lifetime U) : LifetimeAction → Prop
  | .turn underlying _ => ∀ process ∈ venue.process,
      ∀ record ∈ process.recoveredFrom underlying, record.venueTs ≤ process.clock.nowMs
  | _ => True

instance (venue : Lifetime U) : (action : LifetimeAction) → Decidable (CaughtUp venue action)
  | .turn underlying _ => inferInstanceAs (Decidable (∀ process ∈ venue.process,
      ∀ record ∈ process.recoveredFrom underlying, record.venueTs ≤ process.clock.nowMs))
  | .boot _ | .drive _ | .access .. | .crash _ => .isTrue trivial

section Runs
variable {venue next : Lifetime U} {action : LifetimeAction} {process : Process U}

theorem Process.Timely.later {after : Process U} (timely : process.Timely) (actors : after.actors = process.actors)
    (recovered : after.recoveredFrom = process.recoveredFrom) (passed : process.clock.nowMs ≤ after.clock.nowMs) :
    after.Timely := by
  intro underlying actor present
  rw [actors] at present
  rw [recovered]
  exact (timely underlying actor present).later passed

theorem Process.Timely.turn {underlying : String} {command : VenueCommand} (timely : process.Timely)
    (caughtUp : ∀ record ∈ process.recoveredFrom underlying, record.venueTs ≤ process.clock.nowMs) :
    (process.turn underlying command).Timely := by
  unfold Process.turn
  cases hosted : process.actors underlying with
  | none => exact timely
  | some actor =>
    intro other after present
    change Function.update process.actors underlying _ other = some after at present
    by_cases here : other = underlying
    · subst here
      rw [Function.update_self] at present
      cases present
      exact (timely other actor hosted).handle caughtUp
    · rw [Function.update_of_ne here] at present
      exact timely other after present

theorem Process.access_frame (position : Nat) (spurious : Bool) :
    (process.access position spurious).actors = process.actors ∧
      (process.access position spurious).recoveredFrom = process.recoveredFrom ∧
      process.clock.nowMs ≤ (process.access position spurious).clock.nowMs := by
  unfold Process.access
  split
  next => exact ⟨rfl, rfl, le_rfl⟩
  next advance _ => exact ⟨rfl, rfl, SimClock.now_le_access advance spurious⟩

/-- The step lemma: whatever happens, a turn apart that the clock is not ready for. -/
theorem Lifetime.Timely.step (timely : venue.Timely) (caughtUp : CaughtUp venue action)
    (taken : venue.step action = some next) : next.Timely := by
  unfold Lifetime.step at taken
  cases action with
  | boot config =>
    dsimp only at taken
    split at taken
    next => cases taken
    next =>
      split at taken
      next =>
        cases taken
        exact timely
      next process booted =>
        cases taken
        refine ⟨timely.streams, fun other same => ?_⟩
        cases same
        exact boot_timely timely.streams booted
  | drive drive =>
    obtain ⟨process, running, rfl⟩ := Option.map_eq_some_iff.1 taken
    refine ⟨timely.streams, fun other same => ?_⟩
    cases same
    exact @Process.Timely.later _ process (process.drive drive) (timely.process process running) rfl rfl
      (SimClock.target_now drive).ge
  | access position spurious =>
    obtain ⟨process, running, rfl⟩ := Option.map_eq_some_iff.1 taken
    refine ⟨timely.streams, fun other same => ?_⟩
    cases same
    obtain ⟨actors, recovered, passed⟩ := process.access_frame position spurious
    exact (timely.process process running).later actors recovered passed
  | turn underlying command =>
    obtain ⟨process, running, rfl⟩ := Option.map_eq_some_iff.1 taken
    refine ⟨timely.streams, fun other same => ?_⟩
    cases same
    exact (timely.process process running).turn (caughtUp process running)
  | crash landed =>
    obtain ⟨process, running, rfl⟩ := Option.map_eq_some_iff.1 taken
    refine ⟨?_, fun other wrong => by cases wrong⟩
    intro underlying stream present
    unfold Lifetime.crashed at present
    dsimp only at present
    split at present
    next actor hosted =>
      split at present
      · cases present
        have whole := (timely.process process running underlying actor hosted).chronological
        exact whole.subset fun record durable => held_settle _ (List.mem_append_left _ durable)
      · exact timely.streams underlying stream present
    next => exact timely.streams underlying stream present

theorem Lifetime.Timely.records (timely : venue.Timely) (underlying : String) : Chronological (venue.records underlying) := by
  unfold Lifetime.records
  split
  next actor hosted =>
    obtain ⟨process, running, present⟩ := Option.bind_eq_some_iff.1 hosted
    exact (timely.process process running underlying actor present).chronological.subset
      fun record durable => List.mem_append_left _ durable
  next =>
    cases stored : venue.streams underlying with
    | none => exact fun early wrong => by cases wrong
    | some stream => exact timely.streams underlying stream stored

theorem Lifetime.timely_new : (Lifetime.new U).Timely :=
  ⟨fun _ _ wrong => (by cases wrong), fun _ wrong => (by cases wrong)⟩

/-- In every lifetime, with any boots, clock modes and drives, turns, journal faults and crashes: as long as every turn
finds the clock at or past the venue times that its underlying was recovered from, the venue times of each journal
do not decrease in sequence order. -/
theorem venueTs_chronological (actions : List LifetimeAction)
    (caughtUp : Throughout Lifetime.step CaughtUp (.new U) actions)
    (run : runFrom Lifetime.step (.new U) actions = some venue) (underlying : String) :
    Chronological (venue.records underlying) := by
  have timely : venue.Timely :=
    runFrom_invariant (fun _ _ _ timely caughtUp taken => Lifetime.Timely.step timely caughtUp taken) Lifetime.timely_new
      caughtUp run
  exact timely.records underlying

end Runs

/-- A stepped venue of one underlying. -/
def steppedVenue (startMs : Nat) : BootConfig where
  clock := ⟨.stepped 1000, startMs⟩
  underlyings := ["BTC"]
  lineageId := "run-1"
  microstructure := .default
  database := true
  hashOrder := fun _ _ => Equiv.refl _
  scripts := fun _ => []

/-- One step of the clock is journaled, then the venue crashes, boots and journals again. -/
def steppedLifetime (startMs : Nat) : List LifetimeAction :=
  [.boot (steppedVenue 0), .drive .step, .access 0 false, .access 0 false, .turn "BTC" (.clock 1000),
    .crash fun _ => [], .boot (steppedVenue startMs), .turn "BTC" (.clock startMs)]

/-- A clock that boots where it was configured stamps behind the journal. -/
theorem steppedLifetime_regresses : ∃ venue,
    runFrom Lifetime.step (.new referenceUpstream) (steppedLifetime 0) = some venue ∧
      ¬ Chronological (venue.records "BTC") := by
  have regresses : (runFrom Lifetime.step (.new referenceUpstream) (steppedLifetime 0)).map (fun venue =>
      decide (Chronological (venue.records "BTC"))) = some false := by decide +kernel
  obtain ⟨venue, run, same⟩ := Option.map_eq_some_iff.1 regresses
  exact ⟨venue, run, of_decide_eq_false same⟩

theorem steppedLifetime_chronological : ∃ venue,
    runFrom Lifetime.step (.new referenceUpstream) (steppedLifetime 1000) = some venue ∧
      (venue.records "BTC").map JournalRecord.venueTs = [1000, 1000, 1000, 1000] ∧
      Chronological (venue.records "BTC") := by
  have stamps : (runFrom Lifetime.step (.new referenceUpstream) (steppedLifetime 1000)).map (fun venue =>
      (venue.records "BTC").map JournalRecord.venueTs) = some [1000, 1000, 1000, 1000] := by decide +kernel
  obtain ⟨venue, run, same⟩ := Option.map_eq_some_iff.1 stamps
  exact ⟨venue, run, same, venueTs_chronological (steppedLifetime 1000) (by decide +kernel) run "BTC"⟩

end Fauxchange.Venue
