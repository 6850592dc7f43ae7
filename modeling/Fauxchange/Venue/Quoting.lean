import Fauxchange.Exchange.Commits
import Fauxchange.Exchange.Recovery
import Fauxchange.Lib.GuardedRuns
import Fauxchange.MarketMaker.Recovered

/-! The venue with its market maker: the committed commands of all underlyings, the engine that the controls and the
price steps reach, the requote under way, and the queue of its commands. A boot rebuilds the engine from the journals. -/

namespace Fauxchange.Venue
open Lib Exchange Microstructure MarketMaker

/-- What a venue with a market maker is configured with. -/
structure QuotingSite where
  lineageId : LineageId
  underlyings : List String
  microstructure : MicrostructureConfig
  sinkCapacity : Nat
  quoter : Quoter

/-- The forwarder of the price steps: it has one step sequenced at a time, and drives the maker with it. -/
inductive StepDrive where
  | idle
  | sequenced (nowMs : Nat) (underlying : String) (price : Nat)
  | checked (underlying : String)
  | quoting (spot : Nat) (config : MarketMakerConfig) (instruments : List QuotableInstrument) (outgoing : List MakerCommand)

/-- The commits of all underlyings in their common order are the durable part: those that the process was recovered
from, and those that it has made. The rest is the process. -/
structure QuotingVenue (U : Upstream) where
  recovered : List Commit
  since : List Commit
  executors : Executors U
  engine : MarketMakerEngine
  drive : StepDrive
  drivenTo : Option Nat
  sink : List MakerCommand
  submitted : Option Delivery

/-- What happens: commits of any commands but the maker's and the steps', the price steps with the requotes they drive,
the forwarding of the maker's commands, and boots. -/
inductive QuotingAction where
  | commit (commit : Commit)
  | register (symbol : Symbol) (iv : Option Rat) (persona : Option String)
  | step (sequence venueTs nowMs : Nat) (underlying : String) (price : Nat) (bid ask : Option Nat)
  | drive
  | requote
  | quote
  | enqueue
  | forward
  | accepted (sequence venueTs : Nat)
  | refused
  | boot (hashOrder : VisitOrder)

namespace QuotingSite
variable (U : Upstream) (site : QuotingSite)

/-- The producers' view of the venue. -/
def producers : VenueState := ⟨site.microstructure, site.underlyings, []⟩

/-- The hosted underlyings in sorted order. -/
def tickers : List String := site.underlyings.dedup.insertionSort (· ≤ ·)

/-- The journaled commands, one ticker after the other. -/
def inTickerOrder (commits : List Commit) : List JournalCommand :=
  site.tickers.flatMap fun ticker => commandsOn ticker commits

variable (hashOrder : VisitOrder) (commits : List Commit)

/-- The recovery of one underlying: its events and its executor. -/
def recoverInto (underlying : String) : List VenueEvent × MatchingExecutor U :=
  reexecute underlying site.lineageId (freshExecutor U underlying (some site.microstructure) none hashOrder)
    (commandsOn underlying commits)

/-- The underlyings with a journal. -/
def journaledTickers : List String := site.tickers.filter fun ticker => ¬ (commandsOn ticker commits).isEmpty

/-- The engine that a boot builds: the reference prices first, then one producer after the other. -/
def rebuiltEngine : MarketMakerEngine :=
  let events := fun ticker => (site.recoverInto U hashOrder commits ticker).1
  let seeded := (site.journaledTickers commits).foldl (fun engine ticker =>
    match lastRecoveredReferencePrice (events ticker) ticker with
    | none => engine
    | some price => engine.seedReferencePrice ticker price) (.new site.lineageId)
  (site.journaledTickers commits).foldl (fun engine ticker =>
    engine.reconcile (recoveredProducerState (events ticker) ticker)) seeded

/-- The process that a boot starts. -/
def booted : QuotingVenue U where
  recovered := commits
  since := []
  executors := fun underlying => (site.recoverInto U hashOrder commits underlying).2.withMmControlSink
  engine := site.rebuiltEngine U hashOrder commits
  drive := .idle
  drivenTo := none
  sink := []
  submitted := none

end QuotingSite

/-- An order of the maker. Its owner is reserved: no account of a client has it. -/
def placesForMaker : VenueCommand → Bool
  | .addOrder order => order.owner = marketMakerOwner
  | _ => false

/-- What a committed command does to the configuration of the maker. -/
def applyCommitted (config : MarketMakerConfig) (command : JournalCommand) : MarketMakerConfig :=
  match controlOf command.command with
  | none => config
  | some knobs => config.applySequencedControl knobs

namespace QuotingVenue
variable {U : Upstream} (site : QuotingSite) (venue : QuotingVenue U)

/-- The journals of all underlyings. -/
def commits : List Commit := venue.recovered ++ venue.since

/-- A sequence that its underlying has not used yet. -/
def Unused (commit : Commit) : Prop :=
  ∀ command ∈ commandsOn commit.underlying venue.commits, command.sequence < commit.command.sequence

instance (commit : Commit) : Decidable (venue.Unused commit) :=
  inferInstanceAs (Decidable (∀ command ∈ commandsOn commit.underlying venue.commits, _))

/-- A command is committed on its underlying; a control reaches the one engine. -/
def committed (commit : Commit) : QuotingVenue U :=
  { venue with
    since := venue.since ++ [commit]
    executors := (venue.executors.commit site.lineageId commit).2
    engine := { venue.engine with config := applyCommitted venue.engine.config commit.command } }

/-- The price is recorded with the instant, and an enabled maker goes on to requote. -/
def driven (nowMs : Nat) (underlying : String) (price : Nat) : QuotingVenue U :=
  { venue with
    engine := (venue.engine.setVenueNowMs nowMs).seedReferencePrice underlying price
    drivenTo := some nowMs
    drive := if venue.engine.config.enabled then .checked underlying else .idle }

/-- The contracts, the price and the configuration are read once for the whole requote. -/
def requoted (underlying : String) : QuotingVenue U :=
  { venue with
    drive := match venue.engine.prices underlying with
      | none => .idle
      | some spot => .quoting spot venue.engine.config (venue.engine.instruments underlying) [] }

/-- The next contract is quoted, or passed over where it has no price. -/
def quoted (spot : Nat) (config : MarketMakerConfig) (instrument : QuotableInstrument)
    (instruments : List QuotableInstrument) : QuotingVenue U :=
  match site.quoter instrument spot config venue.engine.venueNowMs with
  | none => { venue with drive := .quoting spot config instruments [] }
  | some params =>
    let (outgoing, engine) := venue.engine.updateQuote instrument params
    { venue with engine := engine, drive := .quoting spot config instruments outgoing }

/-- A full queue drops the command. -/
def enqueued (maker : MakerCommand) : List MakerCommand :=
  if venue.sink.length < max site.sinkCapacity 1 then venue.sink ++ [maker] else venue.sink

def step : QuotingAction → Option (QuotingVenue U)
  | .commit commit =>
    if commit.underlying ∈ site.underlyings ∧ venue.Unused commit ∧ placesForMaker commit.command.command = false then
      some (venue.committed site commit)
    else none
  | .register symbol iv persona => some { venue with engine := venue.engine.registerResolved U symbol iv persona }
  | .step sequence venueTs nowMs underlying price bid ask =>
    match venue.drive, site.producers.applyStep nowMs underlying price bid ask with
    | .idle, some delivery =>
      let commit : Commit := ⟨delivery.underlying, sequence, venueTs, delivery.command⟩
      if venue.Unused commit then some { venue.committed site commit with drive := .sequenced nowMs underlying price }
      else none
    | _, _ => none
  | .drive =>
    match venue.drive with
    | .sequenced nowMs underlying price => some (venue.driven nowMs underlying price)
    | _ => none
  | .requote =>
    match venue.drive with
    | .checked underlying => some (venue.requoted underlying)
    | _ => none
  | .quote =>
    match venue.drive with
    | .quoting _ _ [] [] => some { venue with drive := .idle }
    | .quoting spot config (instrument :: instruments) [] => some (venue.quoted site spot config instrument instruments)
    | _ => none
  | .enqueue =>
    match venue.drive with
    | .quoting spot config instruments (maker :: outgoing) =>
      some { venue with drive := .quoting spot config instruments outgoing, sink := venue.enqueued site maker }
    | _ => none
  | .forward =>
    match venue.submitted, venue.sink with
    | none, maker :: rest => some { venue with submitted := site.producers.forward U maker.command, sink := rest }
    | _, _ => none
  | .accepted sequence venueTs =>
    match venue.submitted with
    | some delivery =>
      let commit : Commit := ⟨delivery.underlying, sequence, venueTs, delivery.command⟩
      if venue.Unused commit then some { venue.committed site commit with submitted := none } else none
    | none => none
  | .refused => venue.submitted.map fun _ => { venue with submitted := none }
  | .boot hashOrder => some (site.booted U hashOrder venue.commits)

/-- What a step does where it can be taken. -/
inductive Taken : QuotingAction → QuotingVenue U → Prop where
  | commit {commit : Commit} (hosted : commit.underlying ∈ site.underlyings) (unused : venue.Unused commit)
      (client : placesForMaker commit.command.command = false) : Taken (.commit commit) (venue.committed site commit)
  | register {symbol : Symbol} {iv : Option Rat} {persona : Option String} :
      Taken (.register symbol iv persona) { venue with engine := venue.engine.registerResolved U symbol iv persona }
  | step {sequence venueTs nowMs price : Nat} {underlying : String} {bid ask : Option Nat} {delivery : Delivery}
      (idle : venue.drive = .idle) (stepped : site.producers.applyStep nowMs underlying price bid ask = some delivery)
      (unused : venue.Unused ⟨delivery.underlying, sequence, venueTs, delivery.command⟩) :
      Taken (.step sequence venueTs nowMs underlying price bid ask)
        { venue.committed site ⟨delivery.underlying, sequence, venueTs, delivery.command⟩ with
          drive := .sequenced nowMs underlying price }
  | drive {nowMs price : Nat} {underlying : String} (sequenced : venue.drive = .sequenced nowMs underlying price) :
      Taken .drive (venue.driven nowMs underlying price)
  | requote {underlying : String} (checked : venue.drive = .checked underlying) : Taken .requote (venue.requoted underlying)
  | done {spot : Nat} {config : MarketMakerConfig} (quoting : venue.drive = .quoting spot config [] []) :
      Taken .quote { venue with drive := .idle }
  | quote {spot : Nat} {config : MarketMakerConfig} {instrument : QuotableInstrument} {instruments : List QuotableInstrument}
      (quoting : venue.drive = .quoting spot config (instrument :: instruments) []) :
      Taken .quote (venue.quoted site spot config instrument instruments)
  | enqueue {spot : Nat} {config : MarketMakerConfig} {instruments : List QuotableInstrument} {maker : MakerCommand}
      {outgoing : List MakerCommand} (quoting : venue.drive = .quoting spot config instruments (maker :: outgoing)) :
      Taken .enqueue { venue with drive := .quoting spot config instruments outgoing, sink := venue.enqueued site maker }
  | forward {maker : MakerCommand} {rest : List MakerCommand} (free : venue.submitted = none) (waiting : venue.sink = maker :: rest) :
      Taken .forward { venue with submitted := site.producers.forward U maker.command, sink := rest }
  | accepted {sequence venueTs : Nat} {delivery : Delivery} (waiting : venue.submitted = some delivery)
      (unused : venue.Unused ⟨delivery.underlying, sequence, venueTs, delivery.command⟩) :
      Taken (.accepted sequence venueTs)
        { venue.committed site ⟨delivery.underlying, sequence, venueTs, delivery.command⟩ with submitted := none }
  | refused {delivery : Delivery} (waiting : venue.submitted = some delivery) : Taken .refused { venue with submitted := none }
  | boot {hashOrder : VisitOrder} : Taken (.boot hashOrder) (site.booted U hashOrder venue.commits)

variable {site venue} {next : QuotingVenue U} {action : QuotingAction}

theorem step_taken (taken : venue.step site action = some next) : venue.Taken site action next := by
  unfold step at taken
  cases action with
  | commit commit =>
    dsimp only at taken
    split at taken
    next possible =>
      cases taken
      exact .commit possible.1 possible.2.1 possible.2.2
    next => cases taken
  | register symbol iv persona =>
    cases taken
    exact .register
  | step sequence venueTs nowMs underlying price bid ask =>
    dsimp only at taken
    split at taken
    next delivery idle stepped =>
      split at taken
      next unused =>
        cases taken
        exact .step idle stepped unused
      next => cases taken
    next => cases taken
  | drive =>
    dsimp only at taken
    split at taken
    next sequenced =>
      cases taken
      exact .drive sequenced
    next => cases taken
  | requote =>
    dsimp only at taken
    split at taken
    next checked =>
      cases taken
      exact .requote checked
    next => cases taken
  | quote =>
    dsimp only at taken
    split at taken
    next quoting =>
      cases taken
      exact .done quoting
    next quoting =>
      cases taken
      exact .quote quoting
    next => cases taken
  | enqueue =>
    dsimp only at taken
    split at taken
    next quoting =>
      cases taken
      exact .enqueue quoting
    next => cases taken
  | forward =>
    dsimp only at taken
    split at taken
    next free waiting =>
      cases taken
      exact .forward free waiting
    next => cases taken
  | accepted sequence venueTs =>
    dsimp only at taken
    split at taken
    next waiting =>
      split at taken
      next unused =>
        cases taken
        exact .accepted waiting unused
      next => cases taken
    next => cases taken
  | refused =>
    obtain ⟨delivery, waiting, rfl⟩ := Option.map_eq_some_iff.1 taken
    exact .refused waiting
  | boot hashOrder =>
    cases taken
    exact .boot

end QuotingVenue

end Fauxchange.Venue
