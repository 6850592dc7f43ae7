import Fauxchange.Exchange.StoreRebuild
import Fauxchange.MarketMaker.Recovered
import Fauxchange.Microstructure.Fingerprint

/-! The replay driver: the journal streams of a scenario bundle, re-executed one after the other into fresh books and
projected into shared stores, behind the gates on the versions and on the microstructure of the bundle. -/

namespace Fauxchange.Simulation
open Lib Exchange Microstructure

structure JournalHeader where
  schemaVersion : String
  lineageId : LineageId
  deriving DecidableEq, Repr

inductive ReplayError where
  | journalCorruption (underlying : String) (sequence : Nat)
  | schemaRefused (found : String)
  | versionMismatch (kind expected found : String)
  | bundleDecode (detail : String)
  | backend (operation : String)
  | resourceLimit (limit : String) (found ceiling : Nat)
  | configRejected (detail : String)
  | priceOutOfBand (detail : String)
  deriving DecidableEq, Repr

/-- `{kind:?}` -/
def recordKindDebug : RecordKind → String
  | .command => "Command"
  | .event => "Event"
  | .epoch => "Epoch"

def ReplayError.fromJournal (underlying : String) : JournalError → ReplayError
  | .corruption diverged sequence => .journalCorruption diverged sequence
  | .schemaTooNew found => .schemaRefused found
  | .backend operation => .backend operation
  | .conflict sequence kind =>
    .bundleDecode ("conflicting record at underlying " ++ underlying ++ " sequence " ++ toString sequence ++ " kind " ++
      recordKindDebug kind)
  | .appendFailed detail | .ambiguous detail => .bundleDecode ("underlying " ++ underlying ++ ": " ++ detail)
  | .resourceLimit limit found ceiling => .resourceLimit limit found ceiling
  | .configRejected detail => .configRejected ("underlying " ++ underlying ++ ": " ++ detail)
  | .priceOutOfBand detail => .priceOutOfBand ("underlying " ++ underlying ++ ": " ++ detail)

structure JournalStream where
  underlying : String
  header : JournalHeader
  records : List JournalRecord

namespace JournalStream
variable (stream : JournalStream)

def appendRecord (serializedLen : JournalRecord → Nat) (journal : List JournalRecord) (record : JournalRecord) :
    Except ReplayError (List JournalRecord) :=
  match checkRecordSize serializedLen record with
  | .error error => .error (.fromJournal stream.underlying error)
  | .ok () =>
    match appendContract journal record with
    | (.ok (), next) => .ok next
    | (.error error, _) => .error (.fromJournal stream.underlying error)

def buildJournal (serializedLen : JournalRecord → Nat) : Except ReplayError (List JournalRecord) :=
  stream.records.foldlM (stream.appendRecord serializedLen) []

end JournalStream

structure DependencyVersions where
  fauxchange : String
  envelopeSchema : String
  deriving DecidableEq, Repr

def DependencyVersions.current : DependencyVersions := ⟨"0.4.0", venueEnvelopeSchema⟩

/-- Exactly three numeric parts, of which the first two count; the suffix of the last part is dropped. -/
def parseMajorMinor (version : String) : Option (Nat × Nat) :=
  let core := (version.toList.takeWhile (· ≠ '+')).takeWhile (· ≠ '-')
  match core.splitOn '.' with
  | [major, minor, patch] => do
    let major ← MarketMaker.parseU64 major
    let minor ← MarketMaker.parseU64 minor
    let _ ← MarketMaker.parseU64 patch
    some (major, minor)
  | _ => none

def fauxchangeVersionsCompatible (running recorded : String) : Bool :=
  match parseMajorMinor running, parseMajorMinor recorded with
  | some (runMajor, runMinor), some (recMajor, recMinor) =>
    if runMajor ≠ recMajor then false else if runMajor = 0 then runMinor = recMinor else recMinor ≤ runMinor
  | _, _ => false

def DependencyVersions.firstIncompatibility (recorded : DependencyVersions) : Option (String × String × String) :=
  let current := DependencyVersions.current
  if recorded.envelopeSchema ≠ current.envelopeSchema then
    some ("envelope_schema", current.envelopeSchema, recorded.envelopeSchema)
  else if !fauxchangeVersionsCompatible current.fauxchange recorded.fauxchange then
    some ("fauxchange", current.fauxchange, recorded.fauxchange)
  else none

structure RunManifest where
  microstructureFingerprint : String
  versions : DependencyVersions

structure ScenarioBundle where
  schema : String
  manifest : RunManifest
  microstructure : ResolvedMicrostructure
  streams : List JournalStream

def scenarioBundleSchema : String := "scenario-bundle.v1"

structure UnderlyingReplay (U : Upstream) where
  underlying : String
  events : List VenueEvent
  lastSequence : Option Nat
  executor : MatchingExecutor U

/-- What a replay returns. The mark prices are live-only and stay outside. -/
structure ReplayReport (U : Upstream) where
  perUnderlying : List (UnderlyingReplay U)
  executions : InMemoryExecutionsStore
  positions : InMemoryPositionsStore

section Driver
variable (U : Upstream) (hashOrder : VisitOrder) (serializedLen : JournalRecord → Nat)

/-- The recovery core on a journal in memory. -/
def recover (header : JournalHeader) (records : List JournalRecord) (underlying : String)
    (microstructure : Option MicrostructureConfig) : Except JournalError (Recovered U) :=
  if header.schemaVersion ≠ venueEnvelopeSchema then .error (.schemaTooNew header.schemaVersion)
  else
    reduceIntoExecutor (readFrom records 0) (freshExecutor U underlying microstructure none hashOrder) underlying
      header.lineageId microstructure none

variable {U} in
/-- The events of a stream into the stores, up to the first that seals. -/
def projectEvents (underlying : String) (stores : StoreFanOut U) : List VenueEvent → Except ReplayError (StoreFanOut U)
  | [] => .ok stores
  | event :: rest =>
    match stores.emit event with
    | (.ok (), next) => projectEvents underlying next rest
    | (.error _, _) => .error (.journalCorruption underlying event.underlyingSequence)

/-- A stream on its own: its journal, re-executed. -/
def recoverStream (microstructure : Option MicrostructureConfig) (stream : JournalStream) :
    Except ReplayError (Recovered U) := do
  let journal ← stream.buildJournal serializedLen
  (recover U hashOrder stream.header journal stream.underlying microstructure).mapError
    (.fromJournal stream.underlying)

/-- The streams in turn, each with a fan-out of its own over the shared stores. -/
def replayAll (microstructure : Option MicrostructureConfig) (stores : StoreFanOut U) :
    List JournalStream → Except ReplayError (List (UnderlyingReplay U) × StoreFanOut U)
  | [] => .ok ([], stores)
  | stream :: rest => do
    let recovered ← recoverStream U hashOrder serializedLen microstructure stream
    let next ← projectEvents stream.underlying { stores with sealed := false } recovered.events
    let (replays, last) ← replayAll microstructure next rest
    .ok (⟨stream.underlying, recovered.events, recovered.lastSequence, recovered.executor⟩ :: replays, last)

def replayStreamsInner (streams : List JournalStream) (microstructure : Option MicrostructureConfig) :
    Except ReplayError (ReplayReport U) := do
  let (replays, stores) ← replayAll U hashOrder serializedLen microstructure (.new U)
    (sortByKey JournalStream.underlying streams)
  .ok ⟨replays, stores.executions, stores.positions⟩

def replayStreams (streams : List JournalStream) : Except ReplayError (ReplayReport U) :=
  replayStreamsInner U hashOrder serializedLen streams none

def replayStreamsWithMicrostructure (streams : List JournalStream) (microstructure : MicrostructureConfig) :
    Except ReplayError (ReplayReport U) :=
  replayStreamsInner U hashOrder serializedLen streams (some microstructure)

end Driver

section Gates
variable (maxGuaranteedExactNotional : FeeSchedule → Nat) (display : MicrostructureConfigError → String)

def verifyBundleVersions (bundle : ScenarioBundle) : Except ReplayError Unit :=
  if bundle.schema ≠ scenarioBundleSchema then
    .error (.versionMismatch "bundle_schema" scenarioBundleSchema bundle.schema)
  else
    match bundle.manifest.versions.firstIncompatibility with
    | some (field, expected, found) => .error (.versionMismatch field expected found)
    | none => .ok ()

/-- The carried configuration passes its checks, and its fingerprint is the recorded one. -/
def verifyBundleMicrostructure (bundle : ScenarioBundle) : Except ReplayError Unit :=
  match bundle.microstructure.validate maxGuaranteedExactNotional with
  | .error error => .error (.configRejected (display error))
  | .ok () =>
    let carried := bundle.microstructure.fingerprint
    let recorded := bundle.manifest.microstructureFingerprint
    if carried ≠ recorded then .error (.versionMismatch "microstructure_fingerprint" recorded carried) else .ok ()

def replayBundle (U : Upstream) (hashOrder : VisitOrder) (serializedLen : JournalRecord → Nat)
    (bundle : ScenarioBundle) : Except ReplayError (ReplayReport U) := do
  verifyBundleVersions bundle
  verifyBundleMicrostructure maxGuaranteedExactNotional display bundle
  replayStreamsWithMicrostructure U hashOrder serializedLen bundle.streams bundle.microstructure.config

end Gates

end Fauxchange.Simulation
