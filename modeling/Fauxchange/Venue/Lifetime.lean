import Fauxchange.Exchange.RestoreAtomic
import Fauxchange.Exchange.StoreRebuild
import Fauxchange.Lib.GuardedRuns
import Fauxchange.Simulation.Clock

/-! The lifetime of a venue: processes that boot on the durable streams, stamp the turns of their actors from one
clock, and crash. A boot recovers every stream, and its clock starts where the configuration says. -/

namespace Fauxchange.Venue
open Exchange Lib Simulation Microstructure

/-- What a process is started with, and the faults that await the journal of each underlying in it. -/
structure BootConfig where
  clock : VenueClockConfig
  underlyings : List String
  lineageId : LineageId
  microstructure : MicrostructureConfig
  database : Bool
  hashOrder : VisitOrder
  scripts : String → List AppendTurn

/-- A durable stream: the lineage of its header, and its records. -/
structure Stream where
  lineageId : LineageId
  records : List JournalRecord

def Stream.empty (lineageId : LineageId) : Stream := ⟨lineageId, []⟩

inductive AppStateError where
  | recovery (underlying : String) (source : JournalError)
  | recoveryLineageConflict (firstUnderlying : String) (firstLineage : LineageId) (underlying : String)
      (lineage : LineageId)
  | recoverySequenceExhausted (underlying : String) (sequence : Nat)
  | recoveryProjectionFailed (underlying projection detail : String)
  deriving DecidableEq

/-- A running process: the clock with the advances under way, the actors, and the records that each of them was
recovered from. -/
structure Process (U : Upstream) where
  database : Bool
  lineageId : LineageId
  clock : SimClock
  advances : List Advance
  actors : String → Option (VenueActor U)
  recoveredFrom : String → List JournalRecord

/-- The durable streams and the process over them, if one is running. -/
structure Lifetime (U : Upstream) where
  streams : String → Option Stream
  process : Option (Process U)

section Booting
variable (U : Upstream) (config : BootConfig)

/-- The probe of one stream: nothing where it is absent or empty, or what it is recovered to. -/
def probe (stream : Option Stream) (underlying : String) : Except AppStateError (Option (Stream × Recovered U)) :=
  match stream with
  | none => .ok none
  | some stream =>
    match reduceIntoExecutor stream.records
        (freshExecutor U underlying (some config.microstructure) none config.hashOrder) underlying stream.lineageId
        (some config.microstructure) none with
    | .error source => .error (.recovery underlying source)
    | .ok recovered => .ok (recovered.lastSequence.map fun _ => (stream, recovered))

/-- Pass 1 over the hosted underlyings. An in-memory venue has nothing to recover. -/
def probeAll (streams : String → Option Stream) :
    List String → Except AppStateError (List (String × Option (Stream × Recovered U)))
  | [] => .ok []
  | underlying :: rest => do
    let found ← probe U config (if config.database then streams underlying else none) underlying
    let later ← probeAll streams rest
    .ok ((underlying, found) :: later)

/-- The lineage that every recovered stream agrees on, or the configured one. -/
def resolveLineage : List (String × Option (Stream × Recovered U)) → Option (String × LineageId) →
    Except AppStateError LineageId
  | [], resolved => .ok ((resolved.map Prod.snd).getD config.lineageId)
  | (_, none) :: rest, resolved => resolveLineage rest resolved
  | (underlying, some (stream, _)) :: rest, none => resolveLineage rest (some (underlying, stream.lineageId))
  | (underlying, some (stream, _)) :: rest, some (first, lineage) =>
    if stream.lineageId = lineage then resolveLineage rest (some (first, lineage))
    else .error (.recoveryLineageConflict first lineage underlying stream.lineageId)

/-- The actor of a fresh underlying. -/
def freshActor (lineage : LineageId) (underlying : String) : VenueActor U where
  underlying := underlying
  lineageId := lineage
  journal := ⟨⟨[], []⟩, config.scripts underlying⟩
  executor := freshExecutor U underlying (some config.microstructure) (some []) config.hashOrder
  fanOut := .new U
  nextSequence := 0
  epoch := 0
  sealed := none
  clordidIndex := none

/-- The actor of a recovered underlying continues past the last journaled sequence, over the rebuilt stores. -/
def recoveredActor (lineage : LineageId) (underlying : String) (stream : Stream) (recovered : Recovered U) :
    Except AppStateError (VenueActor U) :=
  let last := recovered.lastSequence.getD 0
  match checkedNext last with
  | none => .error (.recoverySequenceExhausted underlying last)
  | some start =>
    match rebuildStoresFromEvents (.new U) recovered.events with
    | .error failed => .error (.recoveryProjectionFailed underlying failed.projection failed.detail)
    | .ok stores => .ok
      { underlying := underlying
        lineageId := lineage
        journal := ⟨⟨stream.records, []⟩, config.scripts underlying⟩
        executor := recovered.executor.withMmControlSink
        fanOut := stores
        nextSequence := start
        epoch := 0
        sealed := none
        clordidIndex := recovered.clordidIndex }

/-- Pass 2: the actors, with the records that they are recovered from. -/
def spawnAll (lineage : LineageId) : List (String × Option (Stream × Recovered U)) →
    Except AppStateError (List (String × VenueActor U × List JournalRecord))
  | [] => .ok []
  | (underlying, none) :: rest => do
    let later ← spawnAll lineage rest
    .ok ((underlying, freshActor U config lineage underlying, []) :: later)
  | (underlying, some (stream, recovered)) :: rest => do
    let actor ← recoveredActor U config lineage underlying stream recovered
    let later ← spawnAll lineage rest
    .ok ((underlying, actor, stream.records) :: later)

/-- `AppState::new`: a duplicate underlying is skipped. -/
def boot (streams : String → Option Stream) : Except AppStateError (Process U) := do
  let probed ← probeAll U config streams config.underlyings.dedup
  let lineage ← resolveLineage U config probed none
  let spawned ← spawnAll U config lineage probed
  .ok
    { database := config.database
      lineageId := lineage
      clock := .new config.clock
      advances := []
      actors := fun underlying => (spawned.find? fun entry => entry.1 = underlying).map fun entry => entry.2.1
      recoveredFrom := fun underlying =>
        ((spawned.find? fun entry => entry.1 = underlying).map fun entry => entry.2.2).getD [] }

end Booting

/-- What happens to a venue. A turn reads the clock at its start, and a crash lets some of the writes in flight
land. -/
inductive LifetimeAction where
  | boot (config : BootConfig)
  | drive (drive : ClockDrive)
  | access (position : Nat) (spurious : Bool)
  | turn (underlying : String) (command : VenueCommand)
  | crash (landed : String → List Nat)

namespace Process
variable {U : Upstream} (process : Process U)

/-- A drive of the clock begins. -/
def drive (drive : ClockDrive) : Process U :=
  let (target, clock) := process.clock.target drive
  { process with
    clock := clock
    advances := process.advances ++ (target.map fun targetMs => ⟨targetMs, none⟩).toList }

/-- One advance under way takes its next access. -/
def access (position : Nat) (spurious : Bool) : Process U :=
  match process.advances[position]? with
  | none => process
  | some advance =>
    let (left, clock) := process.clock.access advance spurious
    { process with
      clock := clock
      advances := match left with
        | none => process.advances.eraseIdx position
        | some advance => process.advances.set position advance }

/-- One sequenced turn of an actor. -/
def turn (underlying : String) (command : VenueCommand) : Process U :=
  match process.actors underlying with
  | none => process
  | some actor =>
    { process with
      actors := Function.update process.actors underlying
        (some (actor.handle ⟨process.clock.nowMs, command⟩).2) }

/-- The stream that an actor leaves behind. -/
def leftBy (actor : VenueActor U) (landed : List Nat) : Stream :=
  ⟨process.lineageId, (LateLog.settle JournalRecord.key actor.journal.log landed).records⟩

end Process

namespace Lifetime
variable {U : Upstream} (venue : Lifetime U)

def new (U : Upstream) : Lifetime U := ⟨fun _ => none, none⟩

/-- The journal of an underlying. -/
def records (underlying : String) : List JournalRecord :=
  match venue.process.bind fun process => process.actors underlying with
  | some actor => actor.journal.records
  | none => ((venue.streams underlying).map Stream.records).getD []

/-- Only the durable streams outlive a process. -/
def crashed (process : Process U) (landed : String → List Nat) : Lifetime U where
  streams underlying :=
    match process.actors underlying with
    | some actor => if process.database then some (process.leftBy actor (landed underlying)) else venue.streams underlying
    | none => venue.streams underlying
  process := none

/-- A boot takes place while nothing runs, and one that fails starts nothing. -/
def step : LifetimeAction → Option (Lifetime U)
  | .boot config =>
    match venue.process with
    | some _ => none
    | none =>
      match Venue.boot U config venue.streams with
      | .error _ => some venue
      | .ok process => some { venue with process := some process }
  | .drive drive => venue.process.map fun process => { venue with process := some (process.drive drive) }
  | .access position spurious =>
    venue.process.map fun process => { venue with process := some (process.access position spurious) }
  | .turn underlying command =>
    venue.process.map fun process => { venue with process := some (process.turn underlying command) }
  | .crash landed => venue.process.map fun process => venue.crashed process landed

end Lifetime

end Fauxchange.Venue
