import Fauxchange.Venue.Quoting

/-! The engine that a boot rebuilds from the journals against the live one. The live engine takes the controls of all
underlyings in the order of their commits, and its time from the steps that drive it; the rebuilt one takes them one
ticker after the other, and its time from the last command of the last ticker. -/

namespace Fauxchange.Venue
open Lib Exchange MarketMaker

variable {U : Upstream}

theorem mem_commandsOn {underlying : String} {commits : List Commit} {command : JournalCommand} :
    command ∈ commandsOn underlying commits ↔ ⟨underlying, command⟩ ∈ commits := by
  unfold commandsOn
  simp only [List.mem_map, List.mem_filter, decide_eq_true_eq]
  constructor
  · rintro ⟨commit, ⟨member, rfl⟩, rfl⟩
    exact member
  · intro member
    exact ⟨_, ⟨member, rfl⟩, rfl⟩

/-- What a journaled command sets a knob to. -/
def committedSetting {β : Type} (setting : MarketMakerControlKnobs → Option β) (command : JournalCommand) : Option β :=
  (controlOf command.command).bind setting

section Rebuilding
variable (site : QuotingSite) (hashOrder : VisitOrder) (commits : List Commit)

theorem foldl_reconcile_config (engine : MarketMakerEngine) (tickers : List String) :
    (tickers.foldl (fun engine ticker => engine.reconcile
      (recoveredProducerState (site.recoverInto U hashOrder commits ticker).1 ticker)) engine).config =
      (tickers.flatMap fun ticker => commandsOn ticker commits).foldl applyCommitted engine.config := by
  have controls : ∀ (config : MarketMakerConfig) (commands : List JournalCommand),
      (commands.filterMap fun command => controlOf command.command).foldl MarketMakerConfig.applySequencedControl config =
        commands.foldl applyCommitted config := by
    intro config commands
    rw [List.foldl_filterMap]
    congr 1
    funext config command
    unfold applyCommitted
    cases controlOf command.command <;> rfl
  induction tickers generalizing engine with
  | nil => rfl
  | cons ticker rest ih =>
    rw [List.foldl_cons, ih, List.flatMap_cons, List.foldl_append, MarketMakerEngine.reconcile_config]
    unfold QuotingSite.recoverInto
    rw [recovered_controls, controls]

theorem foldl_reconcile_venueNowMs (engine : MarketMakerEngine) (tickers : List String) :
    (tickers.foldl (fun engine ticker => engine.reconcile
      (recoveredProducerState (site.recoverInto U hashOrder commits ticker).1 ticker)) engine).venueNowMs =
      (((tickers.flatMap fun ticker => commandsOn ticker commits).map JournalCommand.venueTs).getLast?).getD
        engine.venueNowMs := by
  induction tickers generalizing engine with
  | nil => rfl
  | cons ticker rest ih =>
    rw [List.foldl_cons, ih, List.flatMap_cons, List.map_append, List.getLast?_append,
      MarketMakerEngine.reconcile_venueNowMs]
    unfold QuotingSite.recoverInto
    rw [recovered_lastNowMs]
    generalize (List.map JournalCommand.venueTs (rest.flatMap fun ticker => commandsOn ticker commits)).getLast? = later
    cases later <;> rfl

/-- An underlying without a journal has nothing to replay. -/
theorem flatMap_journaledTickers :
    ((site.journaledTickers commits).flatMap fun ticker => commandsOn ticker commits) = site.inTickerOrder commits := by
  unfold QuotingSite.journaledTickers QuotingSite.inTickerOrder
  induction site.tickers with
  | nil => rfl
  | cons ticker rest ih =>
    rw [List.flatMap_cons, ← ih, List.filter_cons]
    cases journal : commandsOn ticker commits with
    | nil => simp
    | cons command later => simp [journal]

/-- The reference prices leave the rest of the engine as it is. -/
theorem foldl_seeded {β : Type} (read : MarketMakerEngine → β)
    (frame : ∀ engine ticker price, read (engine.seedReferencePrice ticker price) = read engine)
    (price : String → Option Nat) (tickers : List String) (engine : MarketMakerEngine) :
    read (tickers.foldl (fun engine ticker =>
      match price ticker with
      | none => engine
      | some price => engine.seedReferencePrice ticker price) engine) = read engine := by
  induction tickers generalizing engine with
  | nil => rfl
  | cons ticker rest ih =>
    rw [List.foldl_cons, ih]
    cases price ticker with
    | none => rfl
    | some price => exact frame engine ticker price

/-- A boot registers no contract. -/
theorem rebuiltEngine_instruments : (site.rebuiltEngine U hashOrder commits).instruments = fun _ => [] := by
  have reconciled : ∀ (tickers : List String) (engine : MarketMakerEngine),
      (tickers.foldl (fun engine ticker => engine.reconcile
        (recoveredProducerState (site.recoverInto U hashOrder commits ticker).1 ticker)) engine).instruments =
        engine.instruments := by
    intro tickers engine
    induction tickers generalizing engine with
    | nil => rfl
    | cons ticker rest ih => rw [List.foldl_cons, ih, MarketMakerEngine.reconcile_instruments]
  exact (reconciled _ _).trans (foldl_seeded MarketMakerEngine.instruments (fun _ _ _ => rfl) _ _ _)

/-- The rebuilt configuration takes the controls one ticker after the other. -/
theorem rebuiltEngine_config : (site.rebuiltEngine U hashOrder commits).config =
    (site.inTickerOrder commits).foldl applyCommitted .default := by
  unfold QuotingSite.rebuiltEngine
  dsimp only
  rw [foldl_reconcile_config, flatMap_journaledTickers]
  congr 1
  exact foldl_seeded MarketMakerEngine.config (fun _ _ _ => rfl) _ _ _

/-- The venue time of the last command of the last ticker with a journal. -/
def lastInstant (commands : List JournalCommand) : Nat := ((commands.map JournalCommand.venueTs).getLast?).getD 0

theorem rebuiltEngine_venueNowMs : (site.rebuiltEngine U hashOrder commits).venueNowMs =
    lastInstant (site.inTickerOrder commits) := by
  unfold QuotingSite.rebuiltEngine
  dsimp only
  rw [foldl_reconcile_venueNowMs, flatMap_journaledTickers]
  unfold lastInstant
  congr 1
  exact foldl_seeded MarketMakerEngine.venueNowMs (fun _ _ _ => rfl) _ _ _

end Rebuilding

section Knobs
variable {β : Type} {setting : MarketMakerControlKnobs → Option β} {field : MarketMakerConfig → β}
  (sets : ∀ config knobs, field (config.applySequencedControl knobs) = (setting knobs).getD (field config))

include sets in
theorem applyCommitted_sets (config : MarketMakerConfig) (command : JournalCommand) :
    field (applyCommitted config command) = (committedSetting setting command).getD (field config) := by
  unfold applyCommitted committedSetting
  cases controlOf command.command with
  | none => rfl
  | some knobs => exact sets config knobs

variable {site : QuotingSite} {early late : List Commit}

/-- Commits that do not set a knob leave the settings of the replay as they were. -/
theorem lastSetting_inTickerOrder (unset : ∀ commit ∈ late, committedSetting setting commit.command = none) :
    lastSetting (committedSetting setting) (site.inTickerOrder (early ++ late)) =
      lastSetting (committedSetting setting) (site.inTickerOrder early) := by
  unfold lastSetting QuotingSite.inTickerOrder
  congr 1
  induction site.tickers with
  | nil => rfl
  | cons ticker rest ih =>
    have nothing : (commandsOn ticker late).filterMap (committedSetting setting) = [] :=
      List.filterMap_eq_nil_iff.2 fun command member => unset _ (mem_commandsOn.1 member)
    rw [List.flatMap_cons, List.flatMap_cons, List.filterMap_append, List.filterMap_append, ih, commandsOn_append,
      List.filterMap_append, nothing, List.append_nil]

theorem mem_tickers {underlying : String} : underlying ∈ site.tickers ↔ underlying ∈ site.underlyings := by
  unfold QuotingSite.tickers
  rw [List.mem_insertionSort, List.mem_dedup]

/-- A knob that some hosted commit sets is set in the replay. -/
theorem exists_lastSetting {commit : Commit} (hosted : commit.underlying ∈ site.underlyings) (member : commit ∈ late)
    {value : β} (written : committedSetting setting commit.command = some value) :
    ∃ last, lastSetting (committedSetting setting) (site.inTickerOrder (early ++ late)) = some last := by
  refine Option.ne_none_iff_exists'.1 fun none => ?_
  have listed : commit.command ∈ site.inTickerOrder (early ++ late) :=
    List.mem_flatMap.2 ⟨_, mem_tickers.2 hosted, mem_commandsOn.2 (List.mem_append_right _ member)⟩
  rw [lastSetting_eq_none.1 none _ listed] at written
  cases written

include sets in
/-- A knob is rebuilt as it is live exactly if the last setting since the boot, where there is one, is also the last in
ticker order. -/
theorem knob_rebuilt_iff (hosted : ∀ commit ∈ late, commit.underlying ∈ site.underlyings) (config : MarketMakerConfig) :
    field ((site.inTickerOrder (early ++ late)).foldl applyCommitted config) =
        field ((late.map Commit.command).foldl applyCommitted ((site.inTickerOrder early).foldl applyCommitted config)) ↔
      ∀ value ∈ lastSetting (committedSetting setting) (late.map Commit.command),
        lastSetting (committedSetting setting) (site.inTickerOrder (early ++ late)) = some value := by
  have law := applyCommitted_sets sets
  rw [foldl_lastSetting law, foldl_lastSetting law, foldl_lastSetting law]
  cases live : lastSetting (committedSetting setting) (late.map Commit.command) with
  | none =>
    rw [lastSetting_inTickerOrder fun commit member => lastSetting_eq_none.1 live _ (List.mem_map_of_mem member)]
    simp
  | some value =>
    have some_set : ¬ ∀ command ∈ late.map Commit.command, committedSetting setting command = none := by
      intro unset
      rw [lastSetting_eq_none.2 unset] at live
      cases live
    push Not at some_set
    obtain ⟨command, listed, written⟩ := some_set
    obtain ⟨commit, member, rfl⟩ := List.mem_map.1 listed
    obtain ⟨other, written⟩ := Option.ne_none_iff_exists'.1 written
    have set : ∃ last, lastSetting (committedSetting setting) (site.inTickerOrder (early ++ late)) = some last :=
      exists_lastSetting (hosted commit member) member written
    obtain ⟨last, rebuilt⟩ := set
    rw [rebuilt]
    simp

end Knobs

/-- What the steps keep: the live engine takes the controls in the order of their commits, and its time from the steps
that drive it. -/
structure CommitOrdered (site : QuotingSite) (venue : QuotingVenue U) : Prop where
  hosted : ∀ commit ∈ venue.since, commit.underlying ∈ site.underlyings
  submitted : ∀ delivery ∈ venue.submitted, delivery.underlying ∈ site.underlyings
  config : venue.engine.config = (venue.since.map Commit.command).foldl applyCommitted
    ((site.inTickerOrder venue.recovered).foldl applyCommitted .default)
  venueNowMs : venue.engine.venueNowMs = venue.drivenTo.getD (lastInstant (site.inTickerOrder venue.recovered))

theorem forward_hosted {producers : VenueState} {command : VenueCommand} :
    ∀ delivery ∈ producers.forward U command, delivery.underlying ∈ producers.underlyings := by
  intro delivery forwarded
  unfold VenueState.forward at forwarded
  split at forwarded
  next => cases forwarded
  next underlying _ =>
    split at forwarded
    next => cases forwarded
    next hosted =>
      split at forwarded
      next => cases forwarded
      next =>
        cases forwarded
        exact not_not.1 hosted

theorem applyStep_some {producers : VenueState} {nowMs price : Nat} {underlying : String} {bid ask : Option Nat}
    {delivery : Delivery} (stepped : producers.applyStep nowMs underlying price bid ask = some delivery) :
    underlying ∈ producers.underlyings ∧ delivery = ⟨underlying, .simStep nowMs underlying price bid ask⟩ := by
  unfold VenueState.applyStep at stepped
  split at stepped
  next => cases stepped
  next =>
    split at stepped
    next => cases stepped
    next hosted =>
      cases stepped
      exact ⟨not_not.1 hosted, rfl⟩

theorem registerResolved_frame (engine : MarketMakerEngine) (symbol : Symbol) (iv : Option Rat) (persona : Option String) :
    (engine.registerResolved U symbol iv persona).config = engine.config ∧
      (engine.registerResolved U symbol iv persona).venueNowMs = engine.venueNowMs := by
  unfold MarketMakerEngine.registerResolved
  split
  · exact ⟨rfl, rfl⟩
  · dsimp only
    split <;> exact ⟨rfl, rfl⟩

namespace CommitOrdered
variable {site : QuotingSite} {venue next : QuotingVenue U} {action : QuotingAction}

theorem booted (hashOrder : VisitOrder) (commits : List Commit) : CommitOrdered site (site.booted U hashOrder commits) where
  hosted := List.forall_mem_nil _
  submitted := fun _ wrong => (by cases wrong)
  config := rebuiltEngine_config site hashOrder commits
  venueNowMs := rebuiltEngine_venueNowMs site hashOrder commits

theorem committed (ordered : CommitOrdered site venue) {commit : Commit} (hosted : commit.underlying ∈ site.underlyings) :
    CommitOrdered site (venue.committed site commit) where
  hosted := by
    intro other member
    rcases List.mem_append.1 member with old | new
    · exact ordered.hosted other old
    · exact List.mem_singleton.1 new ▸ hosted
  submitted := ordered.submitted
  config := by
    simp only [QuotingVenue.committed, List.map_append, List.foldl_append, ← ordered.config]
    rfl
  venueNowMs := ordered.venueNowMs

theorem quoted (ordered : CommitOrdered site venue) (spot : Nat) (config : MarketMakerConfig)
    (instrument : QuotableInstrument) (instruments : List QuotableInstrument) :
    CommitOrdered site (venue.quoted site spot config instrument instruments) := by
  unfold QuotingVenue.quoted
  split
  · exact { ordered with }
  · exact { ordered with }

/-- The step lemma, one case for each action. -/
theorem step (ordered : CommitOrdered site venue) (taken : venue.step site action = some next) :
    CommitOrdered site next := by
  cases QuotingVenue.step_taken taken with
  | commit hosted unused client => exact ordered.committed hosted
  | register =>
    obtain ⟨config, venueNowMs⟩ := registerResolved_frame (U := U) venue.engine _ _ _
    exact ⟨ordered.hosted, ordered.submitted, config.trans ordered.config, venueNowMs.trans ordered.venueNowMs⟩
  | step idle stepped unused =>
    obtain ⟨hosted, rfl⟩ := applyStep_some stepped
    exact { ordered.committed hosted with }
  | drive sequenced => exact ⟨ordered.hosted, ordered.submitted, ordered.config, rfl⟩
  | requote checked => exact { ordered with }
  | done quoting => exact { ordered with }
  | quote quoting => exact ordered.quoted _ _ _ _
  | enqueue quoting => exact { ordered with }
  | forward free waiting => exact { ordered with submitted := forward_hosted }
  | accepted waiting unused =>
    exact { ordered.committed (ordered.submitted _ waiting) with submitted := fun _ wrong => (by cases wrong) }
  | refused waiting => exact { ordered with submitted := fun _ wrong => (by cases wrong) }
  | boot => exact booted _ venue.commits

end CommitOrdered

section Condition
variable (site : QuotingSite) (venue : QuotingVenue U)

/-- The last setting of a knob since the boot, where there is one, is also the last one ticker by ticker. -/
def LastInBoth {β : Type} (setting : MarketMakerControlKnobs → Option β) : Prop :=
  ∀ value ∈ lastSetting (committedSetting setting) (venue.since.map Commit.command),
    lastSetting (committedSetting setting) (site.inTickerOrder venue.commits) = some value

instance {β : Type} [DecidableEq β] (setting : MarketMakerControlKnobs → Option β) :
    Decidable (LastInBoth site venue setting) :=
  inferInstanceAs (Decidable (∀ value ∈ lastSetting (committedSetting setting) (venue.since.map Commit.command), _))

/-- The last command of the last ticker is stamped with the instant that the maker was last driven to, or, where no step
has driven it since the boot, as the one that the boot found there. -/
def DrivenLast : Prop :=
  lastInstant (site.inTickerOrder venue.commits) = venue.drivenTo.getD (lastInstant (site.inTickerOrder venue.recovered))

instance : Decidable (DrivenLast site venue) := inferInstanceAs (Decidable (_ = _))

end Condition

section Rebuilt
variable {site : QuotingSite} {venue : QuotingVenue U} {actions : List QuotingAction} {hashOrder : VisitOrder}

theorem config_rebuilt_iff (ordered : CommitOrdered site venue) :
    (site.inTickerOrder venue.commits).foldl applyCommitted .default = venue.engine.config ↔
      LastInBoth site venue (·.enabled) ∧ LastInBoth site venue spreadSetting ∧ LastInBoth site venue sizeSetting ∧
        LastInBoth site venue skewSetting := by
  rw [ordered.config, MarketMakerConfig.ext_iff]
  exact and_congr (knob_rebuilt_iff applySequencedControl_enabled ordered.hosted .default)
    (and_congr (knob_rebuilt_iff applySequencedControl_spread ordered.hosted .default)
      (and_congr (knob_rebuilt_iff applySequencedControl_size ordered.hosted .default)
        (knob_rebuilt_iff applySequencedControl_skew ordered.hosted .default)))

/-- At every point of every run, with any commits on any underlyings, steps, requotes and boots: the engine that a boot
rebuilds from the journals has the configuration and the venue time of the live engine exactly if every knob that was
set since the last boot was set last to the same value in commit order and in ticker order, and the last command of the
last ticker is stamped with the instant that the maker was last driven to. -/
theorem rebuilt_iff (run : runFrom (QuotingVenue.step site) (site.booted U hashOrder []) actions = some venue)
    (rebootOrder : VisitOrder) :
    ((site.rebuiltEngine U rebootOrder venue.commits).config = venue.engine.config ∧
        (site.rebuiltEngine U rebootOrder venue.commits).venueNowMs = venue.engine.venueNowMs) ↔
      (LastInBoth site venue (·.enabled) ∧ LastInBoth site venue spreadSetting ∧ LastInBoth site venue sizeSetting ∧
        LastInBoth site venue skewSetting) ∧ DrivenLast site venue := by
  have ordered : CommitOrdered site venue :=
    runFrom_preserved (fun _ _ _ ordered taken => CommitOrdered.step ordered taken) (.booted hashOrder []) run
  rw [rebuiltEngine_config, rebuiltEngine_venueNowMs, config_rebuilt_iff ordered, ordered.venueNowMs]
  rfl

end Rebuilt

section Ranged

theorem foldl_applyCommitted_ranged {config : MarketMakerConfig} (ranged : config.Ranged) (commands : List JournalCommand) :
    (commands.foldl applyCommitted config).Ranged := by
  induction commands generalizing config with
  | nil => exact ranged
  | cons command rest ih =>
    apply ih
    unfold applyCommitted
    split
    · exact ranged
    next knobs _ => exact ranged.applySequencedControl knobs

/-- The configuration that a requote goes by. -/
def StepDrive.config? : StepDrive → Option MarketMakerConfig
  | .quoting _ config _ _ => some config
  | _ => none

variable {site : QuotingSite} {venue next : QuotingVenue U} {action : QuotingAction}

/-- A requote goes by what it went by, or starts from the configuration of the engine. -/
theorem step_config (taken : venue.step site action = some next) {config : MarketMakerConfig}
    (quoting : config ∈ next.drive.config?) : config ∈ venue.drive.config? ∨ config = venue.engine.config := by
  cases QuotingVenue.step_taken taken with
  | step idle stepped unused => cases quoting
  | drive sequenced =>
    unfold QuotingVenue.driven at quoting
    dsimp only at quoting
    split at quoting <;> cases quoting
  | requote checked =>
    unfold QuotingVenue.requoted at quoting
    dsimp only at quoting
    split at quoting
    next => cases quoting
    next => exact Or.inr (Option.some.inj quoting).symm
  | done under => cases quoting
  | quote under =>
    rw [under]
    unfold QuotingVenue.quoted at quoting
    split at quoting <;> exact Or.inl quoting
  | enqueue under =>
    rw [under]
    exact Or.inl quoting
  | boot => cases quoting
  | _ => exact Or.inl quoting

/-- Whatever the controls ask for: the multipliers of the maker stay within their ranges, and so do those that a requote
under way goes by and those of the engine that a boot rebuilds. -/
theorem maker_ranged {actions : List QuotingAction} {hashOrder : VisitOrder}
    (run : runFrom (QuotingVenue.step site) (site.booted U hashOrder []) actions = some venue) :
    venue.engine.config.Ranged ∧ (∀ config ∈ venue.drive.config?, config.Ranged) ∧
      ∀ rebootOrder, (site.rebuiltEngine U rebootOrder venue.commits).config.Ranged := by
  let holds (venue : QuotingVenue U) : Prop :=
    CommitOrdered site venue ∧ venue.engine.config.Ranged ∧ ∀ config ∈ venue.drive.config?, config.Ranged
  have ranged (venue : QuotingVenue U) (ordered : CommitOrdered site venue) : venue.engine.config.Ranged := by
    rw [ordered.config]
    exact foldl_applyCommitted_ranged (foldl_applyCommitted_ranged MarketMakerConfig.default_ranged _) _
  have preserved (venue : QuotingVenue U) (action : QuotingAction) (next : QuotingVenue U) (before : holds venue)
      (taken : venue.step site action = some next) : holds next := by
    obtain ⟨ordered, engine, quoting⟩ := before
    have after : CommitOrdered site next := ordered.step taken
    refine ⟨after, ranged next after, fun config member => ?_⟩
    rcases step_config taken member with used | rfl
    · exact quoting config used
    · exact engine
  have booted : CommitOrdered site (site.booted U hashOrder []) := .booted hashOrder []
  have initially : holds (site.booted U hashOrder []) := ⟨booted, ranged _ booted, nofun⟩
  obtain ⟨-, engine, quoting⟩ := runFrom_preserved preserved initially run
  refine ⟨engine, quoting, fun rebootOrder => ?_⟩
  rw [rebuiltEngine_config]
  exact foldl_applyCommitted_ranged MarketMakerConfig.default_ranged _

end Ranged

/-- A venue of two underlyings. -/
def twoUnderlyings : QuotingSite where
  lineageId := "run-1"
  underlyings := ["BTC", "ETH"]
  microstructure := .default
  sinkCapacity := 4096
  quoter := fun _ _ _ _ => none

/-- A control that only throws the switch. -/
def switched (underlying : String) (sequence : Nat) (enabled : Bool) : QuotingAction :=
  .commit ⟨underlying, sequence, 1000, .marketMakerControl ⟨none, none, none, some enabled⟩⟩

/-- A kill that commits everywhere, then a resume that commits on one underlying only. -/
def partialResume : List QuotingAction := [switched "BTC" 0 false, switched "ETH" 0 false, switched "BTC" 1 true]

/-- A kill that commits everywhere, then a step of the last ticker. -/
def steppedKill : List QuotingAction :=
  [switched "BTC" 0 false, switched "ETH" 0 false, .step 1 2000 2000 "ETH" 300000 none none, .drive]

/-- The boot goes by the ticker that the resume has missed, and by a stamp that the maker was never driven to. -/
theorem partialResume_diverges : ∃ venue,
    runFrom (QuotingVenue.step twoUnderlyings) (twoUnderlyings.booted referenceUpstream (fun _ _ => Equiv.refl _) [])
      partialResume = some venue ∧ venue.engine.config.enabled = true ∧ venue.engine.venueNowMs = 0 ∧
      (twoUnderlyings.rebuiltEngine referenceUpstream (fun _ _ => Equiv.refl _) venue.commits).config.enabled = false ∧
      (twoUnderlyings.rebuiltEngine referenceUpstream (fun _ _ => Equiv.refl _) venue.commits).venueNowMs = 1000 := by
  have diverges : (runFrom (QuotingVenue.step twoUnderlyings)
      (twoUnderlyings.booted referenceUpstream (fun _ _ => Equiv.refl _) []) partialResume).map (fun venue =>
        (venue.engine.config.enabled, venue.engine.venueNowMs,
          (twoUnderlyings.rebuiltEngine referenceUpstream (fun _ _ => Equiv.refl _) venue.commits).config.enabled,
          (twoUnderlyings.rebuiltEngine referenceUpstream (fun _ _ => Equiv.refl _) venue.commits).venueNowMs)) =
      some (true, 0, false, 1000) := by decide +kernel
  obtain ⟨venue, run, same⟩ := Option.map_eq_some_iff.1 diverges
  obtain ⟨live, rest⟩ := Prod.mk.inj same
  obtain ⟨time, rebuilt, stamp⟩ := (Prod.mk.inj rest).imp_right Prod.mk.inj
  exact ⟨venue, run, live, time, rebuilt, stamp⟩

theorem steppedKill_rebuilt : ∃ venue,
    runFrom (QuotingVenue.step twoUnderlyings) (twoUnderlyings.booted referenceUpstream (fun _ _ => Equiv.refl _) [])
      steppedKill = some venue ∧ venue.engine.venueNowMs = 2000 ∧
      (twoUnderlyings.rebuiltEngine referenceUpstream (fun _ _ => Equiv.refl _) venue.commits).config = venue.engine.config ∧
      (twoUnderlyings.rebuiltEngine referenceUpstream (fun _ _ => Equiv.refl _) venue.commits).venueNowMs =
        venue.engine.venueNowMs := by
  have agrees : (runFrom (QuotingVenue.step twoUnderlyings)
      (twoUnderlyings.booted referenceUpstream (fun _ _ => Equiv.refl _) []) steppedKill).map (fun venue =>
        (venue.engine.venueNowMs, decide ((LastInBoth twoUnderlyings venue (·.enabled) ∧
          LastInBoth twoUnderlyings venue spreadSetting ∧ LastInBoth twoUnderlyings venue sizeSetting ∧
          LastInBoth twoUnderlyings venue skewSetting) ∧ DrivenLast twoUnderlyings venue))) = some (2000, true) := by
    decide +kernel
  obtain ⟨venue, run, same⟩ := Option.map_eq_some_iff.1 agrees
  obtain ⟨time, met⟩ := Prod.mk.inj same
  exact ⟨venue, run, time, (rebuilt_iff run _).2 (of_decide_eq_true met)⟩

/-- A control that asks for a spread far too wide. -/
theorem overspread_ranged : ∃ venue,
    runFrom (QuotingVenue.step twoUnderlyings) (twoUnderlyings.booted referenceUpstream (fun _ _ => Equiv.refl _) [])
      [.commit ⟨"BTC", 0, 1000, .marketMakerControl ⟨some 1000, none, none, none⟩⟩] = some venue ∧
      venue.engine.config.Ranged := by
  obtain ⟨venue, run⟩ : ∃ venue,
      runFrom (QuotingVenue.step twoUnderlyings) (twoUnderlyings.booted referenceUpstream (fun _ _ => Equiv.refl _) [])
        [.commit ⟨"BTC", 0, 1000, .marketMakerControl ⟨some 1000, none, none, none⟩⟩] = some venue :=
    Option.isSome_iff_exists.1 (by decide +kernel)
  exact ⟨venue, run, (maker_ranged run).1⟩

end Fauxchange.Venue
