import Fauxchange.Exchange.Commits
import Fauxchange.Exchange.Lifecycle
import Fauxchange.Lib.GuardedRuns
import Fauxchange.Simulation.Expiry
import Fauxchange.Venue.Producers

/-! The expiry roll of a venue: one expiration after the other, each by its sequenced commands, while other commands are
committed between them. A roll reads the symbol index once, and the phase of an expiration is remembered when all its
commands are answered. -/

namespace Fauxchange.Venue
open Lib Exchange Microstructure Simulation

/-- What a venue with expiry rolls is configured with, and the expiry that the upstream grammar reads off a symbol. -/
structure RollSite where
  lineageId : LineageId
  microstructure : MicrostructureConfig
  underlyings : List String
  expirationOf : ParsedSymbol → ExpirationDate

structure ExpirationKey where
  underlying : String
  expirationMs : Int
  deriving DecidableEq, Repr

namespace ExpirationKey

instance : LE ExpirationKey := ⟨fun early late =>
  early.underlying < late.underlying ∨ early.underlying = late.underlying ∧ early.expirationMs ≤ late.expirationMs⟩

instance (early late : ExpirationKey) : Decidable (early ≤ late) := inferInstanceAs (Decidable (_ ∨ _ ∧ _))

def expiration (key : ExpirationKey) : ExpirationDate := .dateTime key.expirationMs

end ExpirationKey

/-- The contracts of an expiration that a roll has found. -/
structure ExpirationGroup where
  key : ExpirationKey
  symbols : List Symbol
  deriving DecidableEq, Repr

/-- The commands of one expiration that are left to issue, and how many have been committed. -/
structure Transition where
  group : ExpirationGroup
  target : ExpiryPhase
  commands : List VenueCommand
  committed : Nat

/-- What an actor has answered to a command: it is committed, or it is refused. -/
structure Answer where
  underlying : String
  refusal : Option VenueError

/-- The answer to a command that went to several actors: one commit is enough. -/
def answerOf (answers : List Answer) : Option VenueError :=
  if ∃ answer ∈ answers, answer.refusal = none then none
  else some ((answers.findSome? Answer.refusal).getD .journalUnavailable)

inductive RollStage where
  | choosing
  | issuing (transition : Transition)
  | awaiting (transition : Transition) (waiting : List Delivery) (answers : List Answer)

structure ExpiryRollReport where
  settling : Nat
  expired : Nat
  commandsIssued : Nat
  deriving DecidableEq, Repr

/-- An expiration that was not advanced; the reason stands for its redacted text. -/
structure ExpiryRollFailure where
  underlying : String
  expirationMs : Int
  attemptedPhase : ExpiryPhase
  reason : VenueError
  deriving DecidableEq, Repr

/-- A call of `run_expiry_roll` under way. -/
structure Roll where
  schedule : ExpirySchedule
  nowMs : Int
  groups : List ExpirationGroup
  stage : RollStage
  report : ExpiryRollReport
  failures : List ExpiryRollFailure

namespace ExpiryRollReport

def issued (report : ExpiryRollReport) (committed : Nat) : ExpiryRollReport :=
  { report with commandsIssued := report.commandsIssued + committed }

def advanced (report : ExpiryRollReport) : ExpiryPhase → ExpiryRollReport
  | .settling => { report with settling := report.settling + 1 }
  | .expired => { report with expired := report.expired + 1 }
  | .preExpiry => report

end ExpiryRollReport

namespace Roll
variable (roll : Roll)

/-- The first rejection stops the expiration. -/
def rejected (transition : Transition) (error : VenueError) : Roll :=
  { roll with
    stage := .choosing
    report := roll.report.issued transition.committed
    failures := roll.failures ++
      [⟨transition.group.key.underlying, transition.group.key.expirationMs, transition.target, error⟩] }

/-- The next expiration: it is passed over where it has no phase, or its phase is reached already. -/
def choose (phases : ExpirationKey → ExpiryPhase) : Option Roll :=
  match roll.stage, roll.groups with
  | .choosing, group :: rest =>
    match roll.schedule.phaseAt group.key.expiration roll.nowMs with
    | none => some { roll with groups := rest }
    | some target =>
      if target ≤ phases group.key then some { roll with groups := rest }
      else
        let commands := transitionCommands group.key.expiration group.symbols (phases group.key) target
        some { roll with groups := rest, stage := .issuing ⟨group, target, commands, 0⟩ }
  | _, _ => none

/-- The next command goes to the actors that it concerns. -/
def issue (U : Upstream) (producers : VenueState) : Option Roll :=
  match roll.stage with
  | .issuing ⟨group, target, command :: rest, committed⟩ =>
    match producers.submit U command with
    | .error error => some (roll.rejected ⟨group, target, rest, committed⟩ error)
    | .ok deliveries => some { roll with stage := .awaiting ⟨group, target, rest, committed⟩ deliveries [] }
  | _ => none

/-- The delivery that an actor is to answer. -/
def delivery : Option Delivery :=
  match roll.stage with
  | .awaiting _ (delivery :: _) _ => some delivery
  | _ => none

/-- The answer of the actor whose turn it is. -/
def answered (refusal : Option VenueError) : Roll :=
  match roll.stage with
  | .awaiting transition (delivery :: waiting) answers =>
    { roll with stage := .awaiting transition waiting (answers ++ [⟨delivery.underlying, refusal⟩]) }
  | _ => roll

/-- The command is answered by all its actors. -/
def proceed : Option Roll :=
  match roll.stage with
  | .awaiting transition [] answers =>
    match answerOf answers with
    | some error => some (roll.rejected transition error)
    | none => some { roll with stage := .issuing { transition with committed := transition.committed + 1 } }
  | _ => none

/-- An expiration with no command left is advanced. -/
def conclude : Option (Transition × Roll) :=
  match roll.stage with
  | .issuing ⟨group, target, [], committed⟩ =>
    let report := (roll.report.issued committed).advanced target
    some (⟨group, target, [], committed⟩, { roll with stage := .choosing, report := report })
  | _ => none

/-- The roll has nothing left to do, and returns `Ok`. -/
def ReturnsOk : Prop :=
  match roll.stage with
  | .choosing => roll.groups = [] ∧ roll.failures = []
  | _ => False

instance : Decidable roll.ReturnsOk := by
  unfold ReturnsOk
  split <;> infer_instance

end Roll

/-- The executors with the commands committed on them, the phases that rolls have recorded, and the rolls under way. -/
structure RollVenue (U : Upstream) where
  commits : List Commit
  executors : Executors U
  phases : ExpirationKey → ExpiryPhase
  rolls : List Roll

/-- Commits of any commands, and the rolls: each step of one is taken at its position among those under way. -/
inductive RollAction where
  | commit (commit : Commit)
  | begin (schedule : ExpirySchedule) (nowMs : Int)
  | choose (position : Nat)
  | issue (position : Nat)
  | accepted (position sequence venueTs : Nat)
  | refused (position : Nat) (error : VenueError)
  | proceed (position : Nat)
  | conclude (position : Nat)
  | finish (position : Nat)

namespace RollSite
variable (U : Upstream) (site : RollSite)

/-- The venue as its gateway sees it: the hosted underlyings in sorted order. -/
def producers : VenueState := ⟨site.microstructure, site.underlyings.dedup.insertionSort (· ≤ ·), []⟩

/-- The expiration that a contract is grouped under, none where it expires relatively. -/
def keyOf (parsed : ParsedSymbol) : Option ExpirationKey :=
  match site.expirationOf parsed with
  | .days _ => none
  | .dateTime expirationMs => some ⟨parsed.underlying, expirationMs⟩

/-- A contract by its expiration; one that does not parse is passed over. -/
def listing (raw : String) : Option (ExpirationKey × Symbol) :=
  match U.parse raw with
  | .error _ => none
  | .ok parsed => (site.keyOf parsed).map fun key => (key, U.toSymbol parsed)

end RollSite

/-- The symbols of a command are canonical, as their type guarantees it. -/
def TypedCommand (U : Upstream) (command : VenueCommand) : Prop :=
  ∀ symbol ∈ vivifies command, ∀ parsed ∈ (U.parse symbol).toOption, U.toSymbol parsed = symbol

instance (U : Upstream) (command : VenueCommand) : Decidable (TypedCommand U command) :=
  inferInstanceAs (Decidable (∀ symbol, symbol ∈ vivifies command → ∀ parsed, parsed ∈ (U.parse symbol).toOption → _))

namespace RollVenue
variable {U : Upstream} (site : RollSite) (venue : RollVenue U)

def new (hashOrder : VisitOrder) : RollVenue U where
  commits := []
  executors := fun underlying => freshExecutor U underlying (some site.microstructure) none hashOrder
  phases := fun _ => .preExpiry
  rolls := []

/-- The shared index of the contracts whose leaves exist. -/
def symbolIndex : List String :=
  site.underlyings.dedup.flatMap fun underlying =>
    (venue.executors underlying).state.underlyingBook.strikes.toList.flatMap fun entry =>
      [OptionStyle.call, .put].map fun style => U.toSymbol ⟨underlying, entry.1.1, entry.1.2, style⟩

/-- The contracts that exist, by their expirations: both in sorted order. -/
def groups : List ExpirationGroup :=
  let listed := (venue.symbolIndex site).filterMap (site.listing U)
  ((listed.map Prod.fst).dedup.insertionSort (· ≤ ·)).map fun key =>
    ⟨key, ((listed.filter fun entry => entry.1 = key).map Prod.snd).insertionSort (· ≤ ·)⟩

/-- A sequence that its underlying has not used yet. -/
def Unused (commit : Commit) : Prop :=
  ∀ command ∈ commandsOn commit.underlying venue.commits, command.sequence < commit.command.sequence

instance (commit : Commit) : Decidable (venue.Unused commit) :=
  inferInstanceAs (Decidable (∀ command ∈ commandsOn commit.underlying venue.commits, _))

def committed (commit : Commit) : RollVenue U :=
  { venue with
    commits := venue.commits ++ [commit]
    executors := (venue.executors.commit site.lineageId commit).2 }

def withRoll (position : Nat) (roll : Roll) : RollVenue U := { venue with rolls := venue.rolls.set position roll }

/-- The commit that answers a delivery. -/
def commitOf (delivery : Delivery) (sequence venueTs : Nat) : Commit :=
  ⟨delivery.underlying, sequence, venueTs, delivery.command⟩

def step : RollAction → Option (RollVenue U)
  | .commit commit =>
    if commit.underlying ∈ site.underlyings ∧ venue.Unused commit ∧ TypedCommand U commit.command.command then
      some (venue.committed site commit)
    else none
  | .begin schedule nowMs =>
    some { venue with
      rolls := venue.rolls ++ [⟨schedule, nowMs, venue.groups site, .choosing, ⟨0, 0, 0⟩, []⟩] }
  | .choose position =>
    venue.rolls[position]?.bind fun roll => (roll.choose venue.phases).map (venue.withRoll position)
  | .issue position =>
    venue.rolls[position]?.bind fun roll => (roll.issue U site.producers).map (venue.withRoll position)
  | .accepted position sequence venueTs =>
    venue.rolls[position]?.bind fun roll => roll.delivery.bind fun delivery =>
      let commit := commitOf delivery sequence venueTs
      if venue.Unused commit then some ((venue.committed site commit).withRoll position (roll.answered none)) else none
  | .refused position error =>
    venue.rolls[position]?.bind fun roll => roll.delivery.map fun _ =>
      venue.withRoll position (roll.answered (some error))
  | .proceed position =>
    venue.rolls[position]?.bind fun roll => roll.proceed.map (venue.withRoll position)
  | .conclude position =>
    venue.rolls[position]?.bind fun roll => roll.conclude.map fun (transition, roll) =>
      { venue.withRoll position roll with
        phases := Function.update venue.phases transition.group.key transition.target }
  | .finish position => some { venue with rolls := venue.rolls.eraseIdx position }

end RollVenue

end Fauxchange.Venue
