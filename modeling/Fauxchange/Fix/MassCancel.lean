import Fauxchange.Exchange.SweepTurns
import Fauxchange.Fix.Router
import Fauxchange.Lib.GuardedRuns
import Fauxchange.Venue.Producers

/-! The client mass cancel over the venue: one sweep is handed to the actor of each targeted underlying in turn, and
every actor commits or refuses on its own, under its own sequence, while the others go on with their commands. -/

namespace Fauxchange.Fix
open Exchange Lib Venue Microstructure UnderlyingActor

def sweptLegsOf (receipt : Receipt) : List SweptLeg :=
  match receipt.outcome with
  | some (.massCancelled affected) => affected.map fun leg => ⟨leg, receipt.underlyingSequence⟩
  | _ => []

/-- The loop of a venue-global sweep: the tickers that it has still to visit, and what it has accumulated. -/
structure SweepLoop where
  total : Nat
  waiting : List String
  aggregated : List SweptLeg
  firstError : Option VenueError
  okCount : Nat
  deriving DecidableEq

namespace SweepLoop

def take (loop : SweepLoop) : Except VenueError Receipt → SweepLoop
  | .ok receipt => { loop with
      waiting := loop.waiting.tail
      okCount := loop.okCount + 1
      aggregated := loop.aggregated ++ sweptLegsOf receipt }
  | .error error => { loop with
      waiting := loop.waiting.tail
      firstError := loop.firstError <|> some error }

def finish (loop : SweepLoop) : Except VenueError MassCancelDelivery :=
  if loop.okCount = 0 then .error (loop.firstError.getD .journalUnavailable)
  else .ok ⟨loop.aggregated, ⟨loop.okCount, loop.total⟩⟩

end SweepLoop

/-- How far the call has come: one actor is to be asked, or one after the other, or the reply is there. -/
inductive Course where
  | book (ticker : String)
  | fan (loop : SweepLoop)
  | replied (reply : Except VenueError MassCancelDelivery)
  deriving DecidableEq

namespace Course

def start (U : Upstream) (config : MicrostructureConfig) (tickers : List String)
    (command : VenueCommand) : Course :=
  match command with
  | .massCancel .. =>
    if isVenueGlobal command then
      if tickers.isEmpty then .replied (.error (.notFound "no hosted underlyings for a venue-global mass cancel"))
      else .fan ⟨tickers.length, tickers, [], none, 0⟩
    else
      match VenueState.route U ⟨config, tickers, []⟩ command with
      | .error error => .replied (.error (.ofSequenced error))
      | .ok ticker => .book ticker
  | _ => .replied (.error (.invalidOrder "submit_mass_cancel requires a MassCancel command"))

/-- The ticker whose handle is submitted to next. -/
def next? : Course → Option String
  | .book ticker => some ticker
  | .fan loop => loop.waiting.head?
  | .replied _ => none

/-- The tickers that are still to be visited. -/
def targets : Course → List String
  | .book ticker => [ticker]
  | .fan loop => loop.waiting
  | .replied _ => []

def answer (course : Course) (result : Except VenueError Receipt) : Course :=
  match course with
  | .book _ => .replied (result.map fun receipt => ⟨sweptLegsOf receipt, ⟨1, 1⟩⟩)
  | .fan loop =>
    if (loop.take result).waiting.isEmpty then .replied (loop.take result).finish else .fan (loop.take result)
  | .replied reply => .replied reply

end Course

/-- A visit to a ticker, with the actor that has taken the sweep and the clock reading of that turn. There is none where
the mailbox has refused it. -/
structure Visit (U : Upstream) where
  ticker : String
  turn : Option (VenueActor U × Nat)

/-- A call over the actors of the venue, and the visits that it has made. -/
structure MassCancelCall (U : Upstream) where
  actors : Std.ExtTreeMap String (VenueActor U)
  course : Course
  visits : List (Visit U)

/-- Another command takes its turn, or the next handle refuses the sweep, or its actor takes it. -/
inductive CallAction where
  | turn (underlying : String) (input : Submission)
  | refuse (error : VenueError)
  | take (venueTs : Nat)

namespace MassCancelCall
variable {U : Upstream}

def start (config : MicrostructureConfig) (actors : Std.ExtTreeMap String (VenueActor U))
    (command : VenueCommand) : MassCancelCall U :=
  ⟨actors, .start U config actors.keys command, []⟩

def visited (call : MassCancelCall U) (visit : Visit U) (result : Except VenueError Receipt) : MassCancelCall U :=
  { call with course := call.course.answer result, visits := call.visits ++ [visit] }

def step (command : VenueCommand) (call : MassCancelCall U) : CallAction → Option (MassCancelCall U)
  | .turn underlying input =>
    call.actors[underlying]?.map fun actor =>
      { call with actors := call.actors.insert underlying (actor.handle input).2 }
  | .refuse error => call.course.next?.map fun ticker => call.visited ⟨ticker, none⟩ (.error error)
  | .take venueTs =>
    call.course.next?.map fun ticker =>
      match call.actors[ticker]? with
      | none =>
        call.visited ⟨ticker, none⟩
          (.error (.notFound ("underlying '" ++ ticker ++ "' is not hosted by this venue")))
      | some actor =>
        let taken := actor.handle ⟨venueTs, command⟩
        { call with actors := call.actors.insert ticker taken.2 }.visited ⟨ticker, some (actor, venueTs)⟩
          (taken.1.mapError .ofSequenced)

end MassCancelCall

/-- The legs of a mass-cancel event, each under the sequence of the event. -/
def eventLegs (event : VenueEvent) : List SweptLeg :=
  match event.outcome with
  | .massCancelled affected => affected.map fun leg => ⟨leg, event.underlyingSequence⟩
  | _ => []

namespace Visit
variable {U : Upstream} (command : VenueCommand) (visit : Visit U)

/-- The event of the visit, if the actor has committed. -/
def event? : Option VenueEvent :=
  visit.turn.bind fun turn =>
    if turn.1.Commits ⟨turn.2, command⟩ then some (turn.1.derived ⟨turn.2, command⟩).1 else none

def legs : List SweptLeg := ((visit.event? command).map eventLegs).getD []

def commits : Bool := (visit.event? command).isSome

end Visit

/-- What a committed visit has done, seen from a later state of its actor: the orders of its legs rested when the actor
took the sweep and do not rest again, and an order that the sweep asks for and that rests was placed after it. -/
structure SweptAt {U : Upstream} (laws : LeafLaws U) (sweep : Sweep) (command : VenueCommand) (visit : Visit U)
    (event : VenueEvent) (after : VenueActor U) (taken : List (Nat × RestingRecord)) : Prop where
  own : event.command = command
  durable : .event event ∈ after.journal.records
  legs : visit.legs command = taken.map fun target => ⟨massCancelLeg target.2, event.underlyingSequence⟩
  once : (taken.map Prod.fst).Nodup
  rested : ∀ id record, (id, record) ∈ taken ↔
    (∃ actor venueTs, visit.turn = some (actor, venueTs) ∧ actor.Rests laws id record) ∧ sweep.Matches U record
  here : ∀ target ∈ taken, underlyingOf U target.2.symbol = some visit.ticker
  gone : ∀ target ∈ taken, ∀ record, ¬after.Rests laws target.1 record
  later : ∀ id record, after.Rests laws id record → sweep.Matches U record → event.underlyingSequence < id

/-- What a reply to a mass cancel tells of the visits, and these of the orders. -/
structure MassCancelled {U : Upstream} (laws : LeafLaws U) (sweep : Sweep) (command : VenueCommand)
    (start final : MassCancelCall U) (reply : Except VenueError MassCancelDelivery) : Prop where
  visited : final.visits.map Visit.ticker = start.course.targets
  ascending : (final.visits.map Visit.ticker).Pairwise fun left right => compare left right = .lt
  refused : (∃ error, reply = .error error) ↔ ∀ visit ∈ final.visits, visit.event? command = none
  counted : ∀ delivery, reply = .ok delivery →
    delivery.fanout = ⟨(final.visits.filter (Visit.commits command)).length, final.visits.length⟩
  swept : ∀ delivery, reply = .ok delivery → delivery.swept = final.visits.flatMap (Visit.legs command)
  committed : ∀ visit ∈ final.visits, ∀ event, visit.event? command = some event → ∃ after taken,
    final.actors[visit.ticker]? = some after ∧ SweptAt laws sweep command visit event after taken
  left : ∀ (ticker : String) (before after : VenueActor U) (id : Nat) (record : RestingRecord),
    start.actors[ticker]? = some before → final.actors[ticker]? = some after → before.Rests laws id record →
    after.Rests laws id record → sweep.Matches U record →
    ∃ visit ∈ final.visits, visit.ticker = ticker ∧ visit.event? command = none

section Runs
variable {U : Upstream} {laws : LeafLaws U} {command : VenueCommand} {start call next : MassCancelCall U}

/-- The actors of a call are those of its start after further turns, and so is each actor that a visit has met. -/
structure Traced (command : VenueCommand) (start call : MassCancelCall U) : Prop where
  actors : ∀ (ticker : String) (after : VenueActor U), call.actors[ticker]? = some after →
    ∃ before inputs, start.actors[ticker]? = some before ∧ after = (before.run inputs).2
  present : ∀ ticker : String, start.actors[ticker]?.isSome → call.actors[ticker]?.isSome
  visits : ∀ visit ∈ call.visits, ∀ actor venueTs, visit.turn = some (actor, venueTs) →
    ∃ before early late, start.actors[visit.ticker]? = some before ∧ actor = (before.run early).2 ∧
      call.actors[visit.ticker]? = some ((actor.handle ⟨venueTs, command⟩).2.run late).2

theorem Traced.begun (unvisited : start.visits = []) : Traced command start start where
  actors := fun ticker after held => ⟨after, [], held, rfl⟩
  present := fun _ => id
  visits := by
    rw [unvisited]
    exact List.forall_mem_nil _

/-- One actor takes a turn. -/
theorem Traced.turned (traced : Traced command start call) {ticker : String} {actor : VenueActor U}
    (held : call.actors[ticker]? = some actor) (input : Submission) :
    Traced command start { call with actors := call.actors.insert ticker (actor.handle input).2 } where
  actors := by
    intro other after found
    rw [Std.ExtTreeMap.getElem?_insert] at found
    split at found
    next same =>
      obtain rfl := Std.LawfulEqCmp.compare_eq_iff_eq.1 same
      obtain ⟨before, inputs, first, rfl⟩ := traced.actors ticker actor held
      refine ⟨before, inputs ++ [input], first, ?_⟩
      rw [run_append]
      exact (Option.some.inj found).symm
    next => exact traced.actors other after found
  present := by
    intro other first
    rw [Std.ExtTreeMap.getElem?_insert]
    split
    · rfl
    · exact traced.present other first
  visits := by
    intro visit member met venueTs taken
    obtain ⟨before, early, late, first, reached, now⟩ := traced.visits visit member met venueTs taken
    rw [Std.ExtTreeMap.getElem?_insert]
    split
    next same =>
      obtain rfl := Std.LawfulEqCmp.compare_eq_iff_eq.1 same
      obtain rfl := Option.some.inj (held.symm.trans now)
      refine ⟨before, early, late ++ [input], first, reached, ?_⟩
      rw [run_append]
      rfl
    next => exact ⟨before, early, late, first, reached, now⟩

/-- A visit that no actor has met. -/
theorem Traced.refused (traced : Traced command start call) (ticker : String) (result : Except VenueError Receipt) :
    Traced command start (call.visited ⟨ticker, none⟩ result) where
  actors := traced.actors
  present := traced.present
  visits := by
    intro visit member actor venueTs taken
    rcases List.mem_append.1 member with old | new
    · exact traced.visits visit old actor venueTs taken
    · rw [List.mem_singleton.1 new] at taken
      cases taken

theorem Traced.step (traced : Traced command start call) {action : CallAction}
    (stepped : call.step command action = some next) : Traced command start next := by
  cases action with
  | turn underlying input =>
    obtain ⟨actor, held, rfl⟩ := Option.map_eq_some_iff.1 stepped
    exact traced.turned held input
  | refuse error =>
    obtain ⟨ticker, -, rfl⟩ := Option.map_eq_some_iff.1 stepped
    exact traced.refused ticker _
  | take venueTs =>
    obtain ⟨ticker, -, rfl⟩ := Option.map_eq_some_iff.1 stepped
    split
    · exact traced.refused ticker _
    next actor held =>
      have turned := traced.turned held ⟨venueTs, command⟩
      refine ⟨turned.actors, turned.present, fun visit member met reading taken => ?_⟩
      rcases List.mem_append.1 member with old | new
      · exact turned.visits visit old met reading taken
      · obtain rfl := List.mem_singleton.1 new
        obtain ⟨rfl, rfl⟩ := Prod.mk.inj (Option.some.inj taken)
        obtain ⟨before, inputs, first, reached⟩ := traced.actors ticker actor held
        exact ⟨before, inputs, [], first, reached, Std.ExtTreeMap.getElem?_insert_self⟩

/-- The result of a visit: the legs of its event, or an error where it has none. -/
def VisitAnswers (command : VenueCommand) (visit : Visit U) (result : Except VenueError Receipt) : Prop :=
  match visit.event? command with
  | some event => ∃ receipt, result = .ok receipt ∧ sweptLegsOf receipt = eventLegs event
  | none => ∃ error, result = .error error

/-- What the reply tells of the visits. -/
structure Sums (command : VenueCommand) (visits : List (Visit U)) (reply : Except VenueError MassCancelDelivery) :
    Prop where
  refused : (∃ error, reply = .error error) ↔ ∀ visit ∈ visits, visit.event? command = none
  counted : ∀ delivery, reply = .ok delivery →
    delivery.fanout = ⟨(visits.filter (Visit.commits command)).length, visits.length⟩
  swept : ∀ delivery, reply = .ok delivery → delivery.swept = visits.flatMap (Visit.legs command)

/-- What a loop has accumulated over its visits. -/
structure Accumulated (command : VenueCommand) (visits : List (Visit U)) (loop : SweepLoop) : Prop where
  aggregated : loop.aggregated = visits.flatMap (Visit.legs command)
  okCount : loop.okCount = (visits.filter (Visit.commits command)).length

theorem Accumulated.take {visits : List (Visit U)} {loop : SweepLoop} (sums : Accumulated command visits loop)
    {visit : Visit U} {result : Except VenueError Receipt} (answers : VisitAnswers command visit result) :
    Accumulated command (visits ++ [visit]) (loop.take result) := by
  unfold VisitAnswers at answers
  have legs : ∀ event, visit.event? command = some event → visit.legs command = eventLegs event ∧
      visit.commits command = true := by
    intro event found
    unfold Visit.legs Visit.commits
    rw [found]
    exact ⟨rfl, rfl⟩
  split at answers
  next event found =>
    obtain ⟨receipt, rfl, same⟩ := answers
    obtain ⟨listed, counts⟩ := legs event found
    constructor
    · rw [List.flatMap_append, List.flatMap_singleton, ← sums.aggregated, listed, ← same]
      rfl
    · rw [List.filter_append, List.length_append, ← sums.okCount, List.filter_singleton, counts]
      rfl
  next found =>
    obtain ⟨error, rfl⟩ := answers
    have idle : visit.legs command = [] ∧ visit.commits command = false := by
      unfold Visit.legs Visit.commits
      rw [found]
      exact ⟨rfl, rfl⟩
    constructor
    · rw [List.flatMap_append, List.flatMap_singleton, ← sums.aggregated, idle.1, List.append_nil]
      rfl
    · rw [List.filter_append, List.length_append, ← sums.okCount, List.filter_singleton, idle.2]
      rfl

/-- The reply of the loop counts its visits. -/
theorem Accumulated.finish {visits : List (Visit U)} {loop : SweepLoop} (sums : Accumulated command visits loop)
    (total : loop.total = visits.length) : Sums command visits loop.finish := by
  have none_iff : loop.okCount = 0 ↔ ∀ visit ∈ visits, visit.event? command = none := by
    rw [sums.okCount, List.length_eq_zero_iff, List.filter_eq_nil_iff]
    unfold Visit.commits
    simp only [Option.isSome_iff_ne_none, ne_eq, not_not]
  unfold SweepLoop.finish
  split
  next zero =>
    refine ⟨iff_of_true ⟨_, rfl⟩ (none_iff.1 zero), fun delivery wrong => ?_, fun delivery wrong => ?_⟩ <;> cases wrong
  next some =>
    refine ⟨iff_of_false ?_ fun refused => some (none_iff.2 refused), fun delivery told => ?_, fun delivery told => ?_⟩
    · rintro ⟨error, wrong⟩
      cases wrong
    · rw [← Except.ok.inj told, ← sums.okCount, ← total]
    · rw [← Except.ok.inj told, ← sums.aggregated]

/-- The visits made are the first of the targets, and the call has added them up. -/
def Tallied (command : VenueCommand) (targets : List String) (visits : List (Visit U)) : Course → Prop
  | .book ticker => visits = [] ∧ targets = [ticker]
  | .fan loop => visits.map Visit.ticker ++ loop.waiting = targets ∧ loop.total = targets.length ∧
    loop.waiting ≠ [] ∧ Accumulated command visits loop
  | .replied reply => visits.map Visit.ticker = targets ∧ Sums command visits reply

theorem Tallied.visited {targets : List String} {visits : List (Visit U)} {course : Course} {visit : Visit U}
    {result : Except VenueError Receipt} (tallied : Tallied command targets visits course)
    (next : course.next? = some visit.ticker) (answers : VisitAnswers command visit result) :
    Tallied command targets (visits ++ [visit]) (course.answer result) := by
  cases course with
  | replied reply => cases next
  | book ticker =>
    obtain ⟨rfl, rfl⟩ := tallied
    obtain rfl := Option.some.inj next
    -- one actor is asked like a loop of one ticker
    have sums := @Accumulated.take U command [] ⟨1, [], [], none, 0⟩ ⟨rfl, rfl⟩ visit result answers
    refine ⟨rfl, ?_⟩
    cases result with
    | error error => exact sums.finish rfl
    | ok receipt => exact sums.finish rfl
  | fan loop =>
    obtain ⟨visited, total, -, sums⟩ := tallied
    obtain ⟨rest, divided⟩ : ∃ rest, loop.waiting = visit.ticker :: rest := List.head?_eq_some_iff.1 next
    have later := sums.take answers
    obtain ⟨waiting, same⟩ : (loop.take result).waiting = rest ∧ (loop.take result).total = loop.total := by
      cases result <;> exact ⟨congrArg List.tail divided, rfl⟩
    have reached : (visits ++ [visit]).map Visit.ticker ++ rest = targets := by
      rw [← visited, divided, List.map_append, List.append_assoc]
      rfl
    unfold Course.answer
    dsimp only
    by_cases ended : rest = []
    · rw [if_pos (by rw [waiting, ended]; rfl)]
      rw [ended, List.append_nil] at reached
      refine ⟨reached, later.finish ?_⟩
      rw [same, total, ← reached, List.length_map]
    · rw [if_neg (by rw [waiting, List.isEmpty_iff]; exact ended)]
      exact ⟨waiting ▸ reached, same.trans total, waiting ▸ ended, later⟩

/-- An actor answers a mass cancel by its event exactly when it has committed. -/
theorem answers_taken {scope : MassCancelScope} {cancelType : MassCancelType} {account : AccountId}
    {actor : VenueActor U} (orderly : actor.Orderly laws) (ticker : String) (venueTs : Nat) :
    VisitAnswers (.massCancel scope cancelType account) ⟨ticker, some (actor, venueTs)⟩
      ((actor.handle ⟨venueTs, .massCancel scope cancelType account⟩).1.mapError .ofSequenced) := by
  obtain ⟨accepted, rejected⟩ := @Orderly.reply U laws actor ⟨venueTs, .massCancel scope cancelType account⟩ orderly rfl
  unfold VisitAnswers Visit.event?
  by_cases commits : actor.Commits ⟨venueTs, .massCancel scope cancelType account⟩
  · rw [accepted commits]
    simp only [Option.bind_some, if_pos commits]
    refine ⟨_, rfl, ?_⟩
    unfold sweptLegsOf eventLegs committedReceipt Receipt.committed
    dsimp only
    generalize (actor.derived ⟨venueTs, .massCancel scope cancelType account⟩).1.outcome = outcome
    cases outcome <;> rfl
  · obtain ⟨error, refused⟩ := rejected commits
    rw [refused]
    simp only [Option.bind_some, if_neg commits]
    exact ⟨_, rfl⟩

/-- The actors of a venue, each under the ticker of its underlying. -/
def Hosted (actors : Std.ExtTreeMap String (VenueActor U)) : Prop :=
  ∀ (ticker : String) (actor : VenueActor U), actors[ticker]? = some actor → actor.underlying = ticker ∧ Running actor

theorem Traced.orderly (traced : Traced command start call) (hosted : Hosted start.actors) {ticker : String}
    {actor : VenueActor U} (held : call.actors[ticker]? = some actor) : actor.Orderly laws := by
  obtain ⟨before, inputs, first, rfl⟩ := traced.actors ticker actor held
  have running : before.Orderly laws := (hosted ticker before first).2.orderly
  exact running.run inputs

variable {scope : MassCancelScope} {cancelType : MassCancelType} {account : AccountId}

theorem Tallied.step {targets : List String}
    (orderly : ∀ (ticker : String) (actor : VenueActor U), call.actors[ticker]? = some actor → actor.Orderly laws)
    (tallied : Tallied (.massCancel scope cancelType account) targets call.visits call.course) {action : CallAction}
    (stepped : call.step (.massCancel scope cancelType account) action = some next) :
    Tallied (.massCancel scope cancelType account) targets next.visits next.course := by
  cases action with
  | turn underlying input =>
    obtain ⟨actor, -, rfl⟩ := Option.map_eq_some_iff.1 stepped
    exact tallied
  | refuse error =>
    obtain ⟨ticker, upcoming, rfl⟩ := Option.map_eq_some_iff.1 stepped
    exact Tallied.visited tallied upcoming ⟨error, rfl⟩
  | take venueTs =>
    obtain ⟨ticker, upcoming, rfl⟩ := Option.map_eq_some_iff.1 stepped
    split
    · exact Tallied.visited tallied upcoming ⟨_, rfl⟩
    next actor held =>
      exact Tallied.visited tallied upcoming (answers_taken (orderly ticker actor held) ticker venueTs)

/-- A call begins without a visit. -/
theorem tallied_start (config : MicrostructureConfig) (tickers : List String) (command : VenueCommand) :
    Tallied (U := U) command (Course.start U config tickers command).targets []
      (Course.start U config tickers command) := by
  have refused : ∀ error, Tallied (U := U) command [] [] (.replied (.error error)) := by
    intro error
    refine ⟨rfl, iff_of_true ⟨error, rfl⟩ (List.forall_mem_nil _), ?_, ?_⟩ <;> exact fun _ wrong => (by cases wrong)
  unfold Course.start
  split
  · split
    · split
      · exact refused _
      next some => exact ⟨rfl, rfl, fun none => some (List.isEmpty_iff.2 none), rfl, rfl⟩
    · split
      · exact refused _
      · exact ⟨rfl, rfl⟩
  · exact refused _

theorem ascending_targets (config : MicrostructureConfig) (actors : Std.ExtTreeMap String (VenueActor U))
    (command : VenueCommand) :
    (Course.start U config actors.keys command).targets.Pairwise fun left right => compare left right = .lt := by
  unfold Course.start
  split
  · split
    · split
      · exact .nil
      · exact Std.ExtTreeMap.ordered_keys
    · split
      · exact .nil
      · exact List.pairwise_singleton ..
  · exact .nil

theorem executeMassCancel_outcome (visits : VisitOrder) (round : Nat) (state : SequencedState U)
    (scope : MassCancelScope) (cancelType : MassCancelType) (account : AccountId) :
    (∃ kind reason, (state.executeMassCancel visits round scope cancelType account).1 = .rejected kind reason) ∨
      ∃ affected, (state.executeMassCancel visits round scope cancelType account).1 = .massCancelled affected := by
  unfold SequencedState.executeMassCancel
  split
  · exact Or.inl ⟨_, _, rfl⟩
  · exact Or.inr ⟨_, rfl⟩

/-- The legs of a mass-cancel event are those that its outcome has swept. -/
theorem eventLegs_derived (actor : VenueActor U) (venueTs : Nat) :
    eventLegs (actor.derived ⟨venueTs, .massCancel scope cancelType account⟩).1 =
      (sweptLegs (actor.derived ⟨venueTs, .massCancel scope cancelType account⟩).1.outcome).map
        fun leg => ⟨leg, actor.nextSequence⟩ := by
  unfold eventLegs
  rcases executeMassCancel_outcome actor.executor.hashOrder actor.nextSequence actor.executor.state scope cancelType
    account with ⟨kind, reason, rejected⟩ | ⟨affected, swept⟩
  · have outcome : (actor.derived ⟨venueTs, .massCancel scope cancelType account⟩).1.outcome = .rejected kind reason :=
      rejected
    rw [outcome]
    rfl
  · have outcome :
        (actor.derived ⟨venueTs, .massCancel scope cancelType account⟩).1.outcome = .massCancelled affected := swept
    rw [outcome]
    rfl

/-- A committed visit, seen from any later state of its actor. -/
theorem sweptAt_of_commits (cancels : CancelsResting laws) {before : VenueActor U} (orderly : before.Orderly laws)
    {visit : Visit U} {early late : List Submission} {venueTs : Nat} (hosted : before.underlying = visit.ticker)
    (taken : visit.turn = some ((before.run early).2, venueTs))
    (commits : (before.run early).2.Commits ⟨venueTs, .massCancel scope cancelType account⟩) :
    ∃ swept, SweptAt laws ⟨scope, cancelType, accountScope cancelType account⟩ (.massCancel scope cancelType account)
      visit ((before.run early).2.derived ⟨venueTs, .massCancel scope cancelType account⟩).1
      (((before.run early).2.handle ⟨venueTs, .massCancel scope cancelType account⟩).2.run late).2 swept := by
  have underlying : (before.run early).2.underlying = visit.ticker := (run_underlying orderly early).trans hosted
  have ready := orderly.run early
  generalize (before.run early).2 = actor at *
  have after := ready.handle ⟨venueTs, .massCancel scope cancelType account⟩
  obtain ⟨swept, took⟩ := ready.sweeps cancels commits
    (Eq.refl (sweepOf (.massCancel scope cancelType account)))
  have passed := past_executed (commits_executor commits).2
  obtain ⟨-, beyond⟩ := actor.handle_keeps ⟨venueTs, .massCancel scope cancelType account⟩
  refine ⟨swept, rfl, (run_keeps late).1 _ (event_durable commits), ?_, took.once, fun id record => ?_, ?_, ?_, ?_⟩
  · unfold Visit.legs Visit.event?
    rw [taken]
    simp only [Option.bind_some, if_pos commits, Option.map_some, Option.getD_some]
    rw [eventLegs_derived, took.reported, List.map_map]
    rfl
  · rw [took.asked id record]
    refine and_congr_left fun _ => ⟨fun rests => ⟨actor, venueTs, taken, rests⟩, ?_⟩
    rintro ⟨other, reading, same, rests⟩
    obtain ⟨rfl, -⟩ := Prod.mk.inj (Option.some.inj (taken.symm.trans same))
    exact rests
  · rintro ⟨id, record⟩ member
    obtain ⟨address, lives, -⟩ := ((took.asked id record).1 member).1.stands
    obtain ⟨parsed, parses, hosted, -⟩ := addressOf?_eq_some.1 lives
    unfold underlyingOf
    rw [parses]
    exact congrArg some (hosted.trans underlying)
  · rintro ⟨id, record⟩ member other rests
    have rested := ((took.asked id record).1 member).1
    have past := beyond id (ready.dated.recorded id record rested.recorded)
    have left := ((took.left id other).1 (after.rested_run past rests)).2
    exact left (List.mem_map_of_mem member)
  · intro id record rests asked
    by_contra early
    have reached : id ≤ actor.nextSequence := Nat.not_lt.1 early
    have past : (actor.handle ⟨venueTs, .massCancel scope cancelType account⟩).2.Past id :=
      fun opened => Nat.lt_of_le_of_lt reached (passed opened)
    obtain ⟨rested, left⟩ := (took.left id record).1 (after.rested_run past rests)
    exact left (List.mem_map_of_mem ((took.asked id record).2 ⟨rested, asked⟩))

/-- An order that a mass cancel asks for is on one of the tickers that it visits. -/
theorem mem_targets {config : MicrostructureConfig} {actors : Std.ExtTreeMap String (VenueActor U)}
    {ticker : String} {actor : VenueActor U} (held : actors[ticker]? = some actor) (hosted : actor.underlying = ticker)
    {id : Nat} {record : RestingRecord} (rests : actor.Rests laws id record)
    (asked : Sweep.Matches U ⟨scope, cancelType, accountScope cancelType account⟩ record) :
    ticker ∈ (Course.start U config actors.keys (.massCancel scope cancelType account)).targets := by
  have key : ticker ∈ actors.keys :=
    Std.ExtTreeMap.mem_keys.2 (Std.ExtTreeMap.mem_iff_isSome_getElem?.2 (by rw [held]; rfl))
  unfold Course.start
  dsimp only
  split
  · rw [if_neg (fun empty => ?_)]
    · exact key
    · rw [List.isEmpty_iff.1 empty] at key
      cases key
  next narrow =>
    obtain ⟨symbol, rfl⟩ : ∃ symbol, scope = .book symbol := by
      cases scope with
      | book symbol => exact ⟨symbol, rfl⟩
      | _ => exact absurd rfl narrow
    have named : record.symbol = symbol := by
      unfold Sweep.Matches massCancelMatches at asked
      simpa using (Bool.and_eq_true_iff.1 asked).2
    obtain ⟨address, lives, -⟩ := rests.stands
    obtain ⟨parsed, parses, here, -⟩ := addressOf?_eq_some.1 lives
    have routed : VenueState.route U ⟨config, actors.keys, []⟩ (.massCancel (.book symbol) cancelType account) =
        .ok ticker := by
      change VenueState.routeSymbol U ⟨config, actors.keys, []⟩ symbol = _
      unfold VenueState.routeSymbol
      rw [← named, parses]
      dsimp only
      rw [here, hosted, VenueState.handleFor, if_pos key]
    rw [routed]
    exact List.mem_singleton.2 rfl

/-- The reply to a mass cancel tells which underlyings have committed, its list is made of the legs that these have
journaled, and whatever else goes on meanwhile and later, no listed order rests again, and an own order that was there
and stays is on an underlying that has not committed. -/
theorem submitMassCancel_exact (cancels : CancelsResting laws) (config : MicrostructureConfig)
    {actors : Std.ExtTreeMap String (VenueActor U)} (hosted : Hosted actors) {actions : List CallAction}
    {final : MassCancelCall U} {reply : Except VenueError MassCancelDelivery}
    (run : runFrom (MassCancelCall.step (.massCancel scope cancelType account))
      (.start config actors (.massCancel scope cancelType account)) actions = some final)
    (replied : final.course = .replied reply) :
    MassCancelled laws ⟨scope, cancelType, accountScope cancelType account⟩ (.massCancel scope cancelType account)
      (.start config actors (.massCancel scope cancelType account)) final reply := by
  let begun : MassCancelCall U := .start config actors (.massCancel scope cancelType account)
  have preserved : ∀ (call : MassCancelCall U) (action : CallAction) (next : MassCancelCall U),
      Traced (.massCancel scope cancelType account) begun call ∧
        Tallied (.massCancel scope cancelType account) begun.course.targets call.visits call.course →
      call.step (.massCancel scope cancelType account) action = some next →
      Traced (.massCancel scope cancelType account) begun next ∧
        Tallied (.massCancel scope cancelType account) begun.course.targets next.visits next.course := by
    rintro call action next ⟨traced, tallied⟩ stepped
    have orderly : ∀ (ticker : String) (actor : VenueActor U), call.actors[ticker]? = some actor → actor.Orderly laws :=
      fun _ _ held => traced.orderly hosted held
    exact ⟨traced.step stepped, tallied.step orderly stepped⟩
  obtain ⟨traced, tallied⟩ := runFrom_preserved preserved
    ⟨.begun rfl, tallied_start config actors.keys (.massCancel scope cancelType account)⟩ run
  rw [replied] at tallied
  obtain ⟨visited, sums⟩ := tallied
  have committed : ∀ visit ∈ final.visits, ∀ event, visit.event? (.massCancel scope cancelType account) = some event →
      ∃ after taken, final.actors[visit.ticker]? = some after ∧
        SweptAt laws ⟨scope, cancelType, accountScope cancelType account⟩ (.massCancel scope cancelType account) visit
          event after taken := by
    intro visit member event found
    obtain ⟨⟨actor, venueTs⟩, taken, answered⟩ := Option.bind_eq_some_iff.1 found
    split at answered
    next commits =>
      obtain ⟨before, early, late, first, rfl, now⟩ := traced.visits visit member actor venueTs taken
      obtain ⟨own, running⟩ := hosted _ before first
      obtain ⟨swept, did⟩ := @sweptAt_of_commits U laws scope cancelType account cancels before running.orderly visit
        early late venueTs own taken commits
      exact ⟨_, swept, now, Option.some.inj answered ▸ did⟩
    next => cases answered
  refine ⟨visited, ?_, sums.refused, sums.counted, sums.swept, committed, ?_⟩
  · rw [visited]
    exact ascending_targets config actors (.massCancel scope cancelType account)
  · intro ticker before after id record first now rested rests asked
    have target : ticker ∈ begun.course.targets := mem_targets first (hosted ticker before first).1 rested asked
    rw [← visited] at target
    obtain ⟨visit, member, rfl⟩ := List.mem_map.1 target
    refine ⟨visit, member, rfl, ?_⟩
    by_contra swept
    obtain ⟨event, found⟩ := Option.ne_none_iff_exists'.1 swept
    obtain ⟨last, taken, here, did⟩ := committed visit member event found
    obtain rfl := Option.some.inj (now.symm.trans here)
    have placed := did.later id record rests asked
    obtain ⟨⟨actor, venueTs⟩, turn, answered⟩ := Option.bind_eq_some_iff.1 found
    split at answered
    next commits =>
      obtain ⟨origin, early, late, start, rfl, -⟩ := traced.visits visit member actor venueTs turn
      obtain rfl := Option.some.inj (first.symm.trans start)
      have running : before.Orderly laws := (hosted _ before first).2.orderly
      have past := (run_keeps early).2 id (running.dated.recorded id record rested.recorded)
      rw [← Option.some.inj answered] at placed
      exact Nat.lt_asymm placed (past commits.1)
    next => cases answered

end Runs

/-- A fresh actor of a venue without a database. -/
def quietActor (underlying : String) : VenueActor referenceUpstream :=
  freshActor referenceUpstream ⟨⟨.stepped 1000, 0⟩, ["BTC", "ETH"], "run-1", .default, false, fun _ _ => Equiv.refl _,
    fun _ => []⟩ "run-1" underlying

/-- A bid of the account on each of two underlyings. -/
def ownBid (symbol : Symbol) (orderId : VenueOrderId) : VenueCommand :=
  .addOrder ⟨symbol, orderId, "acct-1", 7, none, .buy, .limit, some 100, 5, .gtc, .none⟩

def ownVenue : Std.ExtTreeMap String (VenueActor referenceUpstream) :=
  ((∅ : Std.ExtTreeMap String (VenueActor referenceUpstream)).insert "BTC"
    ((quietActor "BTC").handle ⟨1, ownBid "BTC-20351231-50000-C" "a"⟩).2).insert "ETH"
      ((quietActor "ETH").handle ⟨1, ownBid "ETH-20351231-3000-C" "b"⟩).2

/-- The first actor commits, the mailbox of the second one is full: one leg, one underlying of two, and the other bid is
where the reply has it. -/
theorem ownVenue_partially_cancelled : ∃ final reply,
    runFrom (MassCancelCall.step (.massCancel .underlying (.byUser 7) "acct-1"))
      (.start .default ownVenue (.massCancel .underlying (.byUser 7) "acct-1")) [.take 2, .refuse .rateLimited] =
        some final ∧
      reply = ⟨[⟨⟨"a", 7, "BTC-20351231-50000-C", .buy, .massCancel⟩, 1⟩], ⟨1, 2⟩⟩ ∧
        MassCancelled referenceLeafLaws ⟨.underlying, .byUser 7, some "acct-1"⟩
          (.massCancel .underlying (.byUser 7) "acct-1")
          (.start .default ownVenue (.massCancel .underlying (.byUser 7) "acct-1")) final (.ok reply) := by
  have hosted : Hosted ownVenue := by
    intro ticker actor held
    unfold ownVenue at held
    rw [Std.ExtTreeMap.getElem?_insert, Std.ExtTreeMap.getElem?_insert] at held
    split at held
    next same =>
      obtain rfl := Std.LawfulEqCmp.compare_eq_iff_eq.1 same
      obtain rfl := Option.some.inj held
      exact ⟨by decide +kernel, .handled (.fresh ..) _⟩
    next =>
      split at held
      next same =>
        obtain rfl := Std.LawfulEqCmp.compare_eq_iff_eq.1 same
        obtain rfl := Option.some.inj held
        exact ⟨by decide +kernel, .handled (.fresh ..) _⟩
      next => simp at held
  have course : (runFrom (MassCancelCall.step (.massCancel .underlying (.byUser 7) "acct-1"))
      (.start .default ownVenue (.massCancel .underlying (.byUser 7) "acct-1")) [.take 2, .refuse .rateLimited]).any
        (fun final => final.course =
          .replied (.ok ⟨[⟨⟨"a", 7, "BTC-20351231-50000-C", .buy, .massCancel⟩, 1⟩], ⟨1, 2⟩⟩)) = true := by
    decide +kernel
  obtain ⟨final, run, replied⟩ := (Option.any_eq_true _ _).1 course
  refine ⟨final, _, run, rfl, ?_⟩
  exact submitMassCancel_exact referenceLeaf_cancels .default hosted run (of_decide_eq_true replied)

end Fauxchange.Fix
