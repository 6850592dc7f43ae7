import Fauxchange.Exchange.SweepExact
import Fauxchange.Venue.MakerRebuilt

/-! The kill switch over whole runs. A kill sweeps the book of its underlying in its own turn; what may come behind it
is a quote that was under way already, or one of a requote that the switch of another underlying has let through. -/

namespace Fauxchange.Venue
open Lib Exchange MarketMaker Microstructure UnderlyingOrderBook

variable {U : Upstream}

/-- The last control among the commands of an underlying that throws the switch has thrown it off. -/
def Killed (commands : List JournalCommand) : Prop := lastSetting (committedSetting (·.enabled)) commands = some false

instance (commands : List JournalCommand) : Decidable (Killed commands) := inferInstanceAs (Decidable (_ = _))

theorem killed_concat {commands : List JournalCommand} {command : JournalCommand} :
    Killed (commands ++ [command]) ↔ committedSetting (·.enabled) command = some false ∨
      committedSetting (·.enabled) command = none ∧ Killed commands := by
  have last : lastSetting (committedSetting (·.enabled)) [command] = committedSetting (·.enabled) command := by
    cases written : committedSetting (·.enabled) command <;> simp [lastSetting, written]
  unfold Killed
  rw [lastSetting_append, last]
  cases committedSetting (·.enabled) command <;> simp

section Pending
variable (U) (underlying : String)

/-- A quote of the maker on an underlying. -/
def quotesOn : MakerCommand → Bool
  | .add symbol .. => underlyingOf U symbol = some underlying
  | .cancel .. => false

/-- No requote of an underlying is under way, and no quote of one is left to hand on. -/
def StepDrive.Clear : StepDrive → Prop
  | .idle | .sequenced .. => True
  | .checked other => other ≠ underlying
  | .quoting _ _ instruments outgoing =>
    (∀ instrument ∈ instruments, underlyingOf U instrument.symbol ≠ some underlying) ∧
      ∀ maker ∈ outgoing, quotesOn U underlying maker = false

instance : (drive : StepDrive) → Decidable (drive.Clear U underlying)
  | .idle | .sequenced .. => .isTrue trivial
  | .checked _ => inferInstanceAs (Decidable (_ ≠ _))
  | .quoting .. => inferInstanceAs (Decidable (_ ∧ _))

/-- No quote of an underlying is under way. -/
def Clear (venue : QuotingVenue U) : Prop :=
  venue.drive.Clear U underlying ∧ (∀ maker ∈ venue.sink, quotesOn U underlying maker = false) ∧
    ∀ delivery ∈ venue.submitted, delivery.underlying = underlying → placesForMaker delivery.command = false

instance (venue : QuotingVenue U) : Decidable (Clear U underlying venue) := inferInstanceAs (Decidable (_ ∧ _ ∧ _))

end Pending

section Condition
variable (laws : LeafLaws U) (site : QuotingSite) (venue : QuotingVenue U)

/-- The legs of the match that a commit makes can be captured, and a kill finds no quote of its underlying under way. -/
def Settles (commit : Commit) : Prop :=
  (∀ made ∈ (venue.executors commit.underlying).state.matchOf commit.command.sequence commit.command.command, made.Fits U) ∧
    (committedSetting (·.enabled) commit.command = some false → Clear U commit.underlying venue)

instance (commit : Commit) : Decidable (Settles venue commit) := inferInstanceAs (Decidable (_ ∧ _))

/-- A step drives no requote of a killed underlying. -/
def DrivesLive : Prop :=
  match venue.drive with
  | .sequenced _ underlying _ => venue.engine.config.enabled = true → ¬ Killed (commandsOn underlying venue.commits)
  | _ => True

instance : Decidable (DrivesLive venue) := by
  unfold DrivesLive
  split <;> infer_instance

/-- The steps under which a kill is final, and a boot that rebuilds the books as they are. -/
def Unhurried : QuotingAction → Prop
  | .commit commit => Settles venue commit
  | .accepted sequence venueTs =>
    ∀ delivery ∈ venue.submitted, Settles venue ⟨delivery.underlying, sequence, venueTs, delivery.command⟩
  | .drive => DrivesLive venue
  | .boot hashOrder => ∀ underlying,
    laws.viewOf (site.recoverInto U hashOrder venue.commits underlying).2.state =
      laws.viewOf (venue.executors underlying).state
  | _ => True

end Condition

/-- The executor of an underlying: its books and its registry agree, its engine ids are sequences of its commands, and
after a kill nothing of the maker is registered. -/
structure Swept (laws : LeafLaws U) (executor : MatchingExecutor U) (underlying : String) (commands : List JournalCommand) :
    Prop where
  hosted : executor.state.underlyingBook.underlying = underlying
  inStep : InStep (addressOf? U underlying) (laws.viewOf executor.state)
  used : ∀ (id : Nat) (record : RestingRecord), executor.state.registry.resting[id]? = some record →
    ∃ command ∈ commands, command.sequence = id
  without : Killed commands → executor.state.registry.Without marketMakerOwner

namespace Swept
variable {laws : LeafLaws U} {executor : MatchingExecutor U} {underlying : String} {commands : List JournalCommand}

theorem tracked (swept : Swept laws executor underlying commands) : Tracked laws executor underlying commands :=
  ⟨swept.hosted, swept.inStep, swept.used⟩

theorem of_tracked (tracked : Tracked laws executor underlying commands)
    (without : Killed commands → executor.state.registry.Without marketMakerOwner) :
    Swept laws executor underlying commands :=
  ⟨tracked.hosted, tracked.inStep, tracked.used, without⟩

theorem fresh (hashOrder : VisitOrder) (microstructure : MicrostructureConfig) :
    Swept laws (freshExecutor U underlying (some microstructure) none hashOrder) underlying [] :=
  .of_tracked (.fresh hashOrder (some microstructure)) fun wrong => (by cases wrong)

/-- The step lemma of the books: a kill clears them of the maker, and on a killed underlying nothing else brings the
maker back. -/
theorem next (swept : Swept laws executor underlying commands) (cancels : CancelsResting laws) {command : JournalCommand}
    {lineage : LineageId} (later : ∀ earlier ∈ commands, earlier.sequence < command.sequence)
    (fits : ∀ made ∈ executor.state.matchOf command.sequence command.command, made.Fits U)
    (places : Killed commands → placesForMaker command.command = false) :
    Swept laws (deriveEvent underlying lineage executor command).2 underlying (commands ++ [command]) := by
  apply of_tracked (swept.tracked.next later fits)
  intro killed
  rcases killed_concat.1 killed with kill | ⟨-, already⟩
  · obtain ⟨knobs, control, off⟩ := Option.bind_eq_some_iff.1 kill
    have named : command.command = .marketMakerControl knobs := by
      unfold controlOf at control
      split at control
      next same =>
        rw [same, Option.some.inj control]
      next => cases control
    exact @SequencedState.execute_kill_without U laws executor.state swept.tracked.step cancels executor.hashOrder
      (command.context underlying lineage) knobs named off
  · refine @SequencedState.execute_without U executor.state executor.hashOrder (command.context underlying lineage)
      marketMakerOwner (swept.without already) fun order placed owned => ?_
    have named : command.command = .addOrder order := placed
    have unplaced := places already
    rw [named] at unplaced
    exact of_decide_eq_false unplaced owned

/-- Another process with the same view. -/
theorem of_view (swept : Swept laws executor underlying commands) {other : MatchingExecutor U}
    (hosted : other.state.underlyingBook.underlying = underlying)
    (same : laws.viewOf other.state = laws.viewOf executor.state) : Swept laws other underlying commands := by
  have registry : other.state.registry = executor.state.registry := congrArg BookView.registry same
  constructor
  · exact hosted
  · rw [same]
    exact swept.inStep
  · rw [registry]
    exact swept.used
  · rw [registry]
    exact swept.without

/-- No order of the maker rests in the books of a killed underlying. -/
theorem cleared (swept : Swept laws executor underlying commands) (killed : Killed commands) (address : LeafAddress) :
    ∀ order ∈ laws.orders (executor.state.underlyingBook.leafAt address), order.owner ≠ marketMakerOwner :=
  SequencedState.owner_ne_of_without (swept.without killed) swept.tracked.step address

end Swept

/-- What the unhurried steps keep. -/
structure KillsFinal (laws : LeafLaws U) (venue : QuotingVenue U) : Prop where
  swept : ∀ underlying, Swept laws (venue.executors underlying) underlying (commandsOn underlying venue.commits)
  registered : ∀ underlying, ∀ instrument ∈ venue.engine.instruments underlying,
    underlyingOf U instrument.symbol = some underlying
  clear : ∀ underlying, Killed (commandsOn underlying venue.commits) → Clear U underlying venue

section Commits
variable {site : QuotingSite} {venue : QuotingVenue U} {commit : Commit} {underlying : String}

theorem commits_committed : (venue.committed site commit).commits = venue.commits ++ [commit] :=
  (List.append_assoc ..).symm

theorem commandsOn_committed_here : commandsOn commit.underlying (venue.committed site commit).commits =
    commandsOn commit.underlying venue.commits ++ [commit.command] := by
  rw [commits_committed, commandsOn_append]
  simp [commandsOn]

theorem commandsOn_committed_of_ne (apart : underlying ≠ commit.underlying) :
    commandsOn underlying (venue.committed site commit).commits = commandsOn underlying venue.commits := by
  rw [commits_committed, commandsOn_append]
  simp [commandsOn, Ne.symm apart]

end Commits

namespace KillsFinal
variable {laws : LeafLaws U} {site : QuotingSite} {venue next : QuotingVenue U} {action : QuotingAction}

theorem registered_booted (hashOrder : VisitOrder) (commits : List Commit) (underlying : String) :
    ∀ instrument ∈ (site.booted U hashOrder commits).engine.instruments underlying,
      underlyingOf U instrument.symbol = some underlying := by
  change ∀ instrument ∈ (site.rebuiltEngine U hashOrder commits).instruments underlying, _
  rw [rebuiltEngine_instruments]
  exact List.forall_mem_nil _

theorem booted (hashOrder : VisitOrder) : KillsFinal laws (site.booted U hashOrder []) where
  swept := fun underlying => (Swept.fresh hashOrder site.microstructure).of_view rfl rfl
  registered := registered_booted hashOrder []
  clear := fun _ wrong => (by cases wrong)

/-- A commit, whoever makes it. -/
theorem committed (kills : KillsFinal laws venue) (cancels : CancelsResting laws) {commit : Commit}
    (unused : venue.Unused commit) (settles : Settles venue commit)
    (places : Killed (commandsOn commit.underlying venue.commits) → placesForMaker commit.command.command = false) :
    KillsFinal laws (venue.committed site commit) where
  swept := by
    intro underlying
    by_cases here : underlying = commit.underlying
    · subst here
      rw [commandsOn_committed_here]
      have turn : Swept laws
          (deriveEvent commit.underlying site.lineageId (venue.executors commit.underlying) commit.command).2
          commit.underlying (commandsOn commit.underlying venue.commits ++ [commit.command]) :=
        (kills.swept commit.underlying).next cancels unused settles.1 places
      rw [← venue.executors.commit_here site.lineageId commit] at turn
      exact turn
    · rw [commandsOn_committed_of_ne here]
      have other := kills.swept underlying
      rw [← venue.executors.commit_of_ne site.lineageId here] at other
      exact other
  registered := kills.registered
  clear := by
    intro underlying killed
    have same : Clear U underlying venue → Clear U underlying (venue.committed site commit) := id
    apply same
    by_cases here : underlying = commit.underlying
    · subst here
      rw [commandsOn_committed_here] at killed
      rcases killed_concat.1 killed with kill | ⟨-, already⟩
      · exact settles.2 kill
      · exact kills.clear _ already
    · rw [commandsOn_committed_of_ne here] at killed
      exact kills.clear underlying killed

/-- A step that leaves the books: it may bring a quote under way where no kill stands. -/
theorem moved (kills : KillsFinal laws venue) (commits : next.commits = venue.commits)
    (executors : next.executors = venue.executors) (instruments : next.engine.instruments = venue.engine.instruments)
    (clear : ∀ underlying, Killed (commandsOn underlying venue.commits) → Clear U underlying venue →
      Clear U underlying next) : KillsFinal laws next where
  swept := by
    rw [commits, executors]
    exact kills.swept
  registered := by
    rw [instruments]
    exact kills.registered
  clear := by
    intro underlying killed
    rw [commits] at killed
    exact clear underlying killed (kills.clear underlying killed)

theorem registerResolved (kills : KillsFinal laws venue) (symbol : Symbol) (iv : Option Rat) (persona : Option String) :
    KillsFinal laws { venue with engine := venue.engine.registerResolved U symbol iv persona } where
  swept := kills.swept
  clear := kills.clear
  registered := by
    unfold MarketMakerEngine.registerResolved
    split
    · exact kills.registered
    next parsed parses =>
      dsimp only
      split
      · exact kills.registered
      · intro underlying instrument member
        dsimp only at member
        by_cases here : underlying = parsed.underlying
        · subst here
          rw [Function.update_self] at member
          rcases List.mem_append.1 member with old | new
          · exact kills.registered _ instrument old
          · rw [List.mem_singleton.1 new]
            unfold underlyingOf
            dsimp only
            rw [parses]
            rfl
        · rw [Function.update_of_ne here] at member
          exact kills.registered underlying instrument member

/-- A boot that shows the books as they are. -/
theorem reboot (kills : KillsFinal laws venue) {hashOrder : VisitOrder}
    (same : ∀ underlying, laws.viewOf (site.recoverInto U hashOrder venue.commits underlying).2.state =
      laws.viewOf (venue.executors underlying).state) : KillsFinal laws (site.booted U hashOrder venue.commits) where
  swept := by
    intro underlying
    have commits : (site.booted U hashOrder venue.commits).commits = venue.commits := List.append_nil _
    rw [commits]
    refine (kills.swept underlying).of_view ?_ (same underlying)
    exact reexecute_underlying underlying site.lineageId _ (commandsOn underlying venue.commits)
  registered := registered_booted hashOrder venue.commits
  clear := fun _ _ => ⟨trivial, List.forall_mem_nil _, fun _ wrong => (by cases wrong)⟩

theorem quotesOn_updateQuote {engine : MarketMakerEngine} {instrument : QuotableInstrument} {params : QuoteParams}
    {underlying : String} (elsewhere : underlyingOf U instrument.symbol ≠ some underlying) :
    ∀ maker ∈ (engine.updateQuote instrument params).1, quotesOn U underlying maker = false := by
  intro maker member
  rcases List.mem_append.1 member with cancel | add
  · obtain ⟨orderId, -, rfl⟩ := List.mem_map.1 cancel
    rfl
  · rcases List.mem_cons.1 add with rfl | last
    · exact decide_eq_false elsewhere
    · rw [List.mem_singleton.1 last]
      exact decide_eq_false elsewhere

/-- What the forwarder hands on for an underlying was quoted on it. -/
theorem forward_quotesOn {producers : VenueState} {maker : MakerCommand} {delivery : Delivery}
    (forwarded : producers.forward U maker.command = some delivery)
    (places : placesForMaker delivery.command = true) : quotesOn U delivery.underlying maker = true := by
  unfold VenueState.forward at forwarded
  split at forwarded
  next => cases forwarded
  next underlying routes =>
    split at forwarded
    next => cases forwarded
    next =>
      split at forwarded
      next => cases forwarded
      next =>
        cases forwarded
        cases maker with
        | add symbol orderId side price quantity => exact decide_eq_true routes
        | cancel symbol orderId => cases places

/-- The step lemma, one case for each action. -/
theorem step (kills : KillsFinal laws venue) (cancels : CancelsResting laws) (unhurried : Unhurried laws site venue action)
    (taken : venue.step site action = some next) : KillsFinal laws next := by
  cases QuotingVenue.step_taken taken with
  | commit hosted unused client => exact kills.committed cancels unused unhurried fun _ => client
  | register => exact kills.registerResolved _ _ _
  | @step sequence venueTs nowMs price underlying bid ask delivery idle stepped unused =>
    obtain ⟨-, rfl⟩ := applyStep_some stepped
    have settles : Settles venue ⟨underlying, sequence, venueTs, .simStep nowMs underlying price bid ask⟩ :=
      ⟨fun _ wrong => (by cases wrong), fun wrong => (by cases wrong)⟩
    refine (@committed _ _ site _ kills cancels _ unused settles fun _ => rfl).moved rfl rfl rfl ?_
    exact fun _ _ clear => ⟨trivial, clear.2⟩
  | drive sequenced =>
    refine kills.moved rfl rfl rfl fun other killed clear => ⟨?_, clear.2⟩
    have live : DrivesLive venue := unhurried
    unfold DrivesLive at live
    rw [sequenced] at live
    unfold QuotingVenue.driven
    dsimp only
    split
    next enabled =>
      rintro rfl
      exact live enabled killed
    next => trivial
  | @requote underlying checked =>
    refine kills.moved rfl rfl rfl fun other _ clear => ⟨?_, clear.2⟩
    have apart := clear.1
    rw [checked] at apart
    unfold QuotingVenue.requoted
    dsimp only
    split
    next => trivial
    next spot _ =>
      refine ⟨fun instrument member here => apart ?_, List.forall_mem_nil _⟩
      exact Option.some.inj ((kills.registered underlying instrument member).symm.trans here)
  | done quoting => exact kills.moved rfl rfl rfl fun _ _ clear => ⟨trivial, clear.2⟩
  | quote quoting =>
    unfold QuotingVenue.quoted
    split
    next =>
      refine kills.moved rfl rfl rfl fun other _ clear => ⟨?_, clear.2⟩
      have under := clear.1
      rw [quoting] at under
      exact ⟨(List.forall_mem_cons.1 under.1).2, List.forall_mem_nil _⟩
    next params _ =>
      refine kills.moved rfl rfl rfl fun other _ clear => ⟨?_, clear.2⟩
      have under := clear.1
      rw [quoting] at under
      obtain ⟨elsewhere, later⟩ := List.forall_mem_cons.1 under.1
      exact ⟨later, quotesOn_updateQuote elsewhere⟩
  | enqueue quoting =>
    refine kills.moved rfl rfl rfl fun other _ clear => ?_
    have under := clear.1
    rw [quoting] at under
    obtain ⟨here, later⟩ := List.forall_mem_cons.1 under.2
    refine ⟨⟨under.1, later⟩, ?_, clear.2.2⟩
    unfold QuotingVenue.enqueued
    dsimp only
    split
    · intro queued member
      rcases List.mem_append.1 member with old | new
      · exact clear.2.1 queued old
      · exact List.mem_singleton.1 new ▸ here
    · exact clear.2.1
  | forward free waiting =>
    refine kills.moved rfl rfl rfl fun other _ clear => ?_
    have queued := clear.2.1
    rw [waiting] at queued
    obtain ⟨here, later⟩ := List.forall_mem_cons.1 queued
    refine ⟨clear.1, later, fun delivery forwarded same => ?_⟩
    by_contra places
    have quoted := forward_quotesOn forwarded (eq_true_of_ne_false places)
    rw [same, here] at quoted
    cases quoted
  | @accepted sequence venueTs delivery waiting unused =>
    have settles := unhurried delivery waiting
    refine (@committed _ _ site _ kills cancels _ unused settles fun killed => ?_).moved rfl rfl rfl ?_
    · exact (kills.clear _ killed).2.2 delivery waiting rfl
    · exact fun _ _ clear => ⟨clear.1, clear.2.1, fun _ wrong => (by cases wrong)⟩
  | refused waiting => exact kills.moved rfl rfl rfl fun _ _ clear => ⟨clear.1, clear.2.1, fun _ wrong => (by cases wrong)⟩
  | boot => exact kills.reboot unhurried

end KillsFinal

/-- No order of the maker rests on an underlying while a kill stands there. -/
def KillsHold (laws : LeafLaws U) (venue : QuotingVenue U) : Prop :=
  ∀ underlying, Killed (commandsOn underlying venue.commits) → ∀ address,
    ∀ order ∈ laws.orders ((venue.executors underlying).state.underlyingBook.leafAt address), order.owner ≠ marketMakerOwner

/-- In every run of commits, steps, requotes, forwarded quotes and boots: from the commit of a kill on an underlying to
the next enabling control committed there, no order of the maker rests in its book, as long as no kill commits with
quotes of its underlying under way, no step drives a requote of a killed underlying, every match can be captured, and a
boot rebuilds the books as they are. -/
theorem kills_hold {laws : LeafLaws U} (cancels : CancelsResting laws) {site : QuotingSite} {hashOrder : VisitOrder}
    (actions : List QuotingAction)
    (unhurried : Throughout (QuotingVenue.step site) (Unhurried laws site) (site.booted U hashOrder []) actions)
    {venue : QuotingVenue U} (run : runFrom (QuotingVenue.step site) (site.booted U hashOrder []) actions = some venue) :
    KillsHold laws venue := by
  have kills : KillsFinal laws venue :=
    runFrom_invariant (fun _ _ _ kills unhurried taken => KillsFinal.step kills cancels unhurried taken)
      (.booted hashOrder) unhurried run
  exact fun underlying killed address => (kills.swept underlying).cleared killed address

/-- Whether a boot shows the same books is left to its proof; every other step is decided. -/
noncomputable instance (laws : LeafLaws U) (site : QuotingSite) (venue : QuotingVenue U) :
    (action : QuotingAction) → Decidable (Unhurried laws site venue action)
  | .commit commit => inferInstanceAs (Decidable (Settles venue commit))
  | .accepted sequence venueTs => inferInstanceAs (Decidable (∀ delivery ∈ venue.submitted,
      Settles venue ⟨delivery.underlying, sequence, venueTs, delivery.command⟩))
  | .drive => inferInstanceAs (Decidable (DrivesLive venue))
  | .boot _ => Classical.propDecidable _
  | .register .. | .step .. | .requote | .quote | .enqueue | .forward | .refused => .isTrue trivial

/-- A venue of one underlying, whose maker quotes at one price on either side. -/
def quotingSite : QuotingSite where
  lineageId := "run-1"
  underlyings := ["BTC"]
  microstructure := .default
  sinkCapacity := 4096
  quoter := fun _ _ _ _ => some ⟨100, 200, 5, 5⟩

def quotingStart : QuotingVenue referenceUpstream := quotingSite.booted referenceUpstream (fun _ _ => Equiv.refl _) []

/-- One requote, up to its bid in the hands of the actor. -/
def quoting : List QuotingAction :=
  [.register "BTC-20351231-50000-C" none none, .step 0 1000 1000 "BTC" 5000000 none none, .drive, .requote, .quote,
    .enqueue, .enqueue, .forward]

def killing (sequence : Nat) : QuotingAction :=
  .commit ⟨"BTC", sequence, 1000, .marketMakerControl ⟨none, none, none, some false⟩⟩

/-- The owners of what rests on the contract. -/
def restingOwners (venue : QuotingVenue referenceUpstream) : List Hash32 :=
  ((venue.executors "BTC").state.underlyingBook.leafAt ⟨"20351231", 50000, .call⟩).orders.map BookOrder.owner

/-- A kill that commits while a bid waits for its turn: the bid rests behind it. -/
theorem quote_outlives_kill : ∃ venue,
    runFrom (QuotingVenue.step quotingSite) quotingStart (quoting ++ [killing 1, .accepted 2 1000]) = some venue ∧
      ¬ KillsHold referenceLeafLaws venue := by
  have outlives : (runFrom (QuotingVenue.step quotingSite) quotingStart (quoting ++ [killing 1, .accepted 2 1000])).map
      (fun venue => (decide (Killed (commandsOn "BTC" venue.commits)), decide (marketMakerOwner ∈ restingOwners venue))) =
        some (true, true) := by decide +kernel
  obtain ⟨venue, run, same⟩ := Option.map_eq_some_iff.1 outlives
  obtain ⟨killed, rests⟩ := Prod.mk.inj same
  refine ⟨venue, run, fun hold => ?_⟩
  obtain ⟨order, member, owned⟩ := List.mem_map.1 (of_decide_eq_true rests)
  exact hold "BTC" (of_decide_eq_true killed) _ order member owned

/-- Both quotes rest when the kill commits. -/
theorem settled_kill_holds : ∃ venue,
    runFrom (QuotingVenue.step quotingSite) quotingStart
      (quoting ++ [.accepted 1 1000, .forward, .accepted 2 1000, .quote, killing 3]) = some venue ∧
      Killed (commandsOn "BTC" venue.commits) ∧ KillsHold referenceLeafLaws venue := by
  have killed : (runFrom (QuotingVenue.step quotingSite) quotingStart
      (quoting ++ [.accepted 1 1000, .forward, .accepted 2 1000, .quote, killing 3])).map
        (fun venue => decide (Killed (commandsOn "BTC" venue.commits))) = some true := by decide +kernel
  obtain ⟨venue, run, same⟩ := Option.map_eq_some_iff.1 killed
  exact ⟨venue, run, of_decide_eq_true same, kills_hold referenceLeaf_cancels _ (by decide +kernel) run⟩

end Fauxchange.Venue
