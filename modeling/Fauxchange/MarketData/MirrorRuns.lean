import Fauxchange.Exchange.Commits
import Fauxchange.Exchange.Recovery
import Fauxchange.Exchange.ReferenceLeaf
import Fauxchange.Exchange.Restore
import Fauxchange.MarketData.Deltas
import Fauxchange.MarketData.MirrorTurn

/-! The market-data service beside the executors, over every run of commits, snapshot restores and restarts: its levels
against what rests in the books. -/

namespace Fauxchange.MarketData
open Lib Exchange UnderlyingOrderBook

/-- What a process is started with. -/
structure VenueSettings where
  lineageId : LineageId
  microstructure : Option Microstructure.MicrostructureConfig
  mmControl : Option (List MarketMakerControlKnobs)

/-- The executors of a venue, the journals of their underlyings, and the market-data service beside them. -/
structure ServedVenue (U : Upstream) where
  executors : Executors U
  journals : String → List JournalRecord
  manager : OrderbookSubscriptionManager

/-- A symbol as its type guarantees it: it parses, and it is the canonical text of what it parses to. -/
structure Canonical (U : Upstream) (symbol : Symbol) (parsed : ParsedSymbol) : Prop where
  parses : U.parse symbol = .ok parsed
  text : U.toSymbol parsed = symbol

inductive VenueStep (U : Upstream) where
  | commit (commit : Commit)
  | restore (underlying : String) (prepared : MatchingExecutor U) (marker : SnapshotRestored)
  | reboot (recovered : String → Recovered U)

namespace ServedVenue
variable {U : Upstream} (settings : VenueSettings) (venue : ServedVenue U)

def start (hashOrder : VisitOrder) : ServedVenue U :=
  ⟨fun underlying => freshExecutor U underlying settings.microstructure settings.mmControl hashOrder, fun _ => [], .new⟩

/-- A record is appended to one journal. -/
def appended (underlying : String) (records : List JournalRecord) : String → List JournalRecord :=
  Function.update venue.journals underlying (venue.journals underlying ++ records)

theorem mem_appended {underlying other : String} {records : List JournalRecord} {record : JournalRecord}
    (member : record ∈ venue.journals other) : record ∈ venue.appended underlying records other := by
  unfold appended
  by_cases here : other = underlying
  · subst here
    rw [Function.update_self]
    exact List.mem_append_left _ member
  · rw [Function.update_of_ne here]
    exact member

/-- Only a commit reaches the market-data service. A restore swaps an executor, and a restart rebuilds them all. -/
def after : VenueStep U → ServedVenue U
  | .commit commit =>
    let done := venue.executors.commit settings.lineageId commit
    ⟨done.2, venue.appended commit.underlying done.1.pair, (venue.manager.onCommittedEvent U done.1).2⟩
  | .restore underlying prepared marker =>
    ⟨Function.update venue.executors underlying prepared, venue.appended underlying [.epoch marker], venue.manager⟩
  | .reboot recovered => ⟨fun underlying => (recovered underlying).executor, venue.journals, .new⟩

/-- What the executor of a commit makes of it. -/
def executed (commit : Commit) : VenueOutcome × SequencedState U :=
  (venue.executors commit.underlying).state.execute (venue.executors commit.underlying).hashOrder
    (commit.command.context commit.underlying settings.lineageId)

/-- The event that the service is told of. -/
def committed (commit : Commit) : VenueEvent :=
  .new commit.command.sequence commit.command.venueTs commit.command.command (venue.executed settings commit).1

/-- A sequence that an underlying has not used yet. -/
def Later (underlying : String) (sequence : Nat) : Prop :=
  ∀ record ∈ venue.journals underlying, record.sequence < sequence

instance (underlying : String) (sequence : Nat) : Decidable (venue.Later underlying sequence) :=
  inferInstanceAs (Decidable (∀ record ∈ venue.journals underlying, record.sequence < sequence))

/-- The steps that the venue can take. A boot recovers every underlying from its journal. -/
def Possible : VenueStep U → Prop
  | .commit commit => venue.Later commit.underlying commit.command.sequence ∧
      ∀ symbol, commandSymbol commit.command.command = some symbol → ∃ parsed, Canonical U symbol parsed
  | .restore underlying prepared marker => venue.Later underlying marker.underlyingSequence ∧
      ∃ hashOrder cut, (venue.executors underlying).prepareRestore hashOrder cut = .ok prepared
  | .reboot recovered => ∃ (hashOrder : VisitOrder) (index : String → Option ClOrdIdIndex), ∀ underlying,
      reduceIntoExecutor (venue.journals underlying)
        (freshExecutor U underlying settings.microstructure settings.mmControl hashOrder) underlying settings.lineageId
        settings.microstructure (index underlying) = .ok (recovered underlying)

/-- The states of the runs whose steps are all as demanded. -/
inductive Reached (holds : ServedVenue U → VenueStep U → Prop) : ServedVenue U → Prop where
  | start (hashOrder : VisitOrder) : Reached holds (start settings hashOrder)
  | next {venue : ServedVenue U} (reached : Reached holds venue) (step : VenueStep U)
      (possible : venue.Possible settings step) (met : holds venue step) : Reached holds (venue.after settings step)

end ServedVenue

/-- Every level that the service holds is the total that rests there. -/
def Mirrored {U : Upstream} (laws : LeafLaws U) (venue : ServedVenue U) : Prop :=
  ∀ symbol parsed, Canonical U symbol parsed → ∀ side price,
    (venue.manager.instrument symbol).levels.qtyAt side price =
      restingAt (laws.orders ((venue.executors parsed.underlying).state.underlyingBook.leafAt parsed.address)) side price

section Condition
variable {U : Upstream}

/-- A command that sweeps more than one contract finds nothing to remove. -/
def SweepsNothing (executor : MatchingExecutor U) (sequence : Nat) : VenueCommand → Prop
  | .massCancel (.book _) .. => True
  | .massCancel scope cancelType account =>
    ∀ (id : Nat) (record : RestingRecord), executor.state.registry.resting[id]? = some record →
      massCancelMatches U record scope ((scopeExpiry U scope).bind Except.toOption) cancelType
        (accountScope cancelType account) = false
  | .marketMakerControl knobs => knobs.enabled = some false →
    ∀ (id : Nat) (record : RestingRecord), executor.state.registry.resting[id]? = some record →
      record.owner ≠ marketMakerOwner
  | .evictExpiredOrders nowMs => (SequencedState.evictLeaves nowMs executor.state.underlyingBook
      (SequencedState.restingSymbols executor.hashOrder sequence executor.state.registry)).1 = []
  | _ => True

/-- A command whose effect the service can follow. -/
structure Followable (laws : LeafLaws U) (executor : MatchingExecutor U) (command : JournalCommand) : Prop where
  fits : ∀ made, executor.state.matchOf command.sequence command.command = some made → made.Fits U
  unnamed : ∀ orderId, command.command.placedId = some orderId → ¬ executor.state.registry.Names orderId
  room : ∀ symbol address, commandSymbol command.command = some symbol → executor.state.home symbol = some address →
    HasRoom ((laws.viewOf executor.state).orders address) command.command
  unswept : SweepsNothing executor command.sequence command.command

/-- The steps under which the service keeps up with the books. -/
def KeepsUp (laws : LeafLaws U) (venue : ServedVenue U) : VenueStep U → Prop
  | .commit commit => Followable laws (venue.executors commit.underlying) commit.command
  | .restore underlying prepared _ =>
    laws.viewOf prepared.state = laws.viewOf (venue.executors underlying).state
  | .reboot recovered =>
    ∀ underlying, laws.viewOf (recovered underlying).executor.state = ⟨fun _ => [], .new⟩

end Condition

section Underlying
variable {U : Upstream}

/-- Two symbols of one place are the same. -/
theorem Canonical.unique {symbol other : Symbol} {parsed also : ParsedSymbol} (here : Canonical U symbol parsed)
    (there : Canonical U other also) (underlying : parsed.underlying = also.underlying)
    (address : parsed.address = also.address) : symbol = other := by
  have same : parsed = also := by
    cases parsed
    cases also
    cases underlying
    cases address
    rfl
  rw [← here.text, ← there.text, same]

theorem addressOf?_canonical {symbol : Symbol} {parsed : ParsedSymbol} (canonical : Canonical U symbol parsed)
    {underlying : String} {address : LeafAddress} :
    addressOf? U underlying symbol = some address ↔ parsed.underlying = underlying ∧ parsed.address = address := by
  unfold addressOf?
  rw [canonical.parses]
  by_cases same : parsed.underlying = underlying
  · simp [same]
  · simp [same]

theorem rebuildFrom_underlying {captures : List RestingOrderCapture} {state rebuilt : SequencedState U}
    (done : state.rebuildFrom captures = .ok rebuilt) :
    rebuilt.underlyingBook.underlying = state.underlyingBook.underlying := by
  induction captures generalizing state with
  | nil =>
    cases done
    rfl
  | cons capture rest ih =>
    unfold SequencedState.rebuildFrom at done
    split at done
    · cases done
    next address book resolved =>
      obtain ⟨-, rfl⟩ := resolveLeafVivify_eq_ok.1 resolved
      split at done
      · cases done
      next =>
        have later := ih done
        exact later

theorem applyInstrumentStatuses_underlying {captures : List InstrumentStatusCapture} {state applied : SequencedState U}
    (done : state.applyInstrumentStatuses captures = .ok applied) :
    applied.underlyingBook.underlying = state.underlyingBook.underlying := by
  induction captures generalizing state with
  | nil =>
    cases done
    rfl
  | cons capture rest ih =>
    unfold SequencedState.applyInstrumentStatuses at done
    split at done
    · cases done
    next address book resolved =>
      obtain ⟨-, rfl⟩ := resolveLeafVivify_eq_ok.1 resolved
      split at done
      · cases done
      next =>
        have later := ih done
        exact later

/-- A prepared executor is of the same underlying. -/
theorem prepareRestore_underlying {executor prepared : MatchingExecutor U} {hashOrder : VisitOrder} {cut : ExecutorState}
    (prepares : executor.prepareRestore hashOrder cut = .ok prepared) :
    prepared.state.underlyingBook.underlying = executor.state.underlyingBook.underlying := by
  unfold MatchingExecutor.prepareRestore at prepares
  split at prepares
  · cases prepares
  next state done =>
    cases prepares
    unfold SequencedState.prepareRestore at done
    split at done
    · cases done
    · split at done
      · cases done
      next rebuilt rebuilds =>
        have applied := applyInstrumentStatuses_underlying done
        have rebuilt := rebuildFrom_underlying rebuilds
        exact applied.trans rebuilt

end Underlying

section Manager
variable {U : Upstream} {registry : OrderRegistry} {orders : List BookOrder} {symbol : Symbol}

/-- The event of a contract is folded into its aggregate. -/
theorem onCommittedEvent_shows (manager : OrderbookSubscriptionManager) (event : VenueEvent)
    (aimed : commandSymbol event.command = some symbol)
    (folded : Shows registry orders ((manager.instrument symbol).apply event.command event.outcome).2) :
    Shows registry orders ((manager.onCommittedEvent U event).2.instrument symbol) := by
  unfold OrderbookSubscriptionManager.onCommittedEvent
  rw [aimed]
  unfold OrderbookSubscriptionManager.fold
  dsimp only
  split
  · rw [OrderbookSubscriptionManager.instrument_insert_self]
    exact folded
  · rw [OrderbookSubscriptionManager.instrument_insert_self]
    exact ⟨folded.tracked, folded.balanced⟩

end Manager

section Sweeps
variable {U : Upstream} {home : Symbol → Option LeafAddress} {view after : BookView}

theorem drop_registered {drop : Drop} {rest : List Drop} (moved : Moves home view ((drop :: rest).map Drop.move) after) :
    view.registry.resting[drop.engineId]? = some drop.record := by
  obtain ⟨address, engineId, record⟩ := drop
  cases moved with
  | next first =>
    cases first with
    | dropped _ registered => exact registered

/-- A sweep that matches no registered order drops none. -/
theorem drops_nil {drops : List Drop} (moved : Moves home view (drops.map Drop.move) after)
    {holds : RestingRecord → Prop} (selected : ∀ drop ∈ drops, holds drop.record)
    (nothing : ∀ (id : Nat) (record : RestingRecord), view.registry.resting[id]? = some record → ¬ holds record) :
    drops.map Drop.move = [] := by
  cases drops with
  | nil => rfl
  | cons drop rest => exact absurd (selected drop (by simp)) (nothing _ _ (drop_registered moved))

/-- A command without a contract makes no move that the service would have to follow. -/
theorem Followable.still {laws : LeafLaws U} {executor : MatchingExecutor U} {command : JournalCommand}
    (followable : Followable laws executor command) {underlying : String} {lineage : LineageId}
    (aimless : commandSymbol command.command = none) {made : Option MadeMatch} {outcome : VenueOutcome} {moves : List Move}
    (done : outcome = (executor.state.execute executor.hashOrder (command.context underlying lineage)).1)
    (report : TurnReport U home (laws.viewOf executor.state) command.sequence made command.command outcome moves)
    (moved : Moves home (laws.viewOf executor.state) moves after) : moves = [] := by
  obtain ⟨sequence, venueTs, command⟩ := command
  have unswept := followable.unswept
  dsimp only at report unswept aimless
  cases report with
  | still => rfl
  | @swept scope cancelType account drops selected =>
    have nothing : ∀ (id : Nat) (record : RestingRecord), executor.state.registry.resting[id]? = some record →
        ¬ massCancelMatches U record scope ((scopeExpiry U scope).bind Except.toOption) cancelType
          (accountScope cancelType account) = true := by
      intro id record present
      cases scope with
      | book => cases aimless
      | underlying => exact ne_true_of_eq_false (unswept id record present)
      | expiration => exact ne_true_of_eq_false (unswept id record present)
      | strike => exact ne_true_of_eq_false (unswept id record present)
    exact @drops_nil home _ after drops moved (fun record => massCancelMatches U record scope
      ((scopeExpiry U scope).bind Except.toOption) cancelType (accountScope cancelType account) = true) selected nothing
  | @killed knobs drops off selected =>
    exact drops_nil moved selected fun id record present => unswept off id record present
  | @evicted nowMs drops =>
    have empty : (SequencedState.pruneEvicted executor.state.registry []).1 = [] := rfl
    have answer : (executor.state.execute executor.hashOrder
        (JournalCommand.context ⟨sequence, venueTs, .evictExpiredOrders nowMs⟩ underlying lineage)).1 =
          .evicted (sortByKey id []) := by
      change (executor.state.executeEvictExpired executor.hashOrder sequence nowMs).1 = _
      unfold SequencedState.executeEvictExpired
      dsimp only [SweepsNothing] at unswept ⊢
      rw [unswept, empty]
    rw [answer] at done
    have names := (sortByKey_perm (id : VenueOrderId → VenueOrderId) (drops.map fun drop => drop.record.venueOrderId)).symm
    rw [VenueOutcome.evicted.inj done] at names
    have nothing := (names.trans (sortByKey_perm _ _)).eq_nil
    rw [List.map_eq_nil_iff.1 nothing]
    rfl
  | cancelled => cases aimless
  | added => cases aimless
  | marketed => cases aimless
  | replaced => cases aimless
  | withdrawn => cases aimless

end Sweeps

/-- What every step keeps that the service can follow. -/
structure Mirrors {U : Upstream} (laws : LeafLaws U) (venue : ServedVenue U) : Prop where
  hosted : ∀ underlying, (venue.executors underlying).state.underlyingBook.underlying = underlying
  inStep : ∀ underlying, InStep (addressOf? U underlying) (laws.viewOf (venue.executors underlying).state)
  lockstep : ∀ underlying, (venue.executors underlying).state.registry.Lockstep
  /-- Every registered order has come with a journaled command. -/
  journaled : ∀ underlying (id : Nat) (record : RestingRecord),
    (venue.executors underlying).state.registry.resting[id]? = some record →
      ∃ written ∈ venue.journals underlying, written.sequence = id
  shows' : ∀ symbol parsed, Canonical U symbol parsed → Shows (venue.executors parsed.underlying).state.registry
    ((laws.viewOf (venue.executors parsed.underlying).state).orders parsed.address) (venue.manager.instrument symbol)

namespace Mirrors
variable {U : Upstream} {laws : LeafLaws U} {settings : VenueSettings} {venue : ServedVenue U}

theorem mirrored (mirrors : Mirrors laws venue) : Mirrored laws venue := by
  intro symbol parsed canonical side price
  have step := mirrors.inStep parsed.underlying
  exact (mirrors.shows' symbol parsed canonical).total (step.standing parsed.address)
    (mirrors.lockstep parsed.underlying).apart (nameOf_ne_none step) side price

/-- Books without an order beside a service without an instrument. -/
theorem of_empty {executors : Executors U} (journals : String → List JournalRecord)
    (hosted : ∀ underlying, (executors underlying).state.underlyingBook.underlying = underlying)
    (empty : ∀ underlying, laws.viewOf (executors underlying).state = ⟨fun _ => [], .new⟩) :
    Mirrors laws ⟨executors, journals, .new⟩ where
  hosted := hosted
  inStep := by
    intro underlying
    change InStep _ (laws.viewOf (executors underlying).state)
    rw [empty]
    refine ⟨fun _ => ⟨List.nodup_nil, fun _ member => absurd member List.not_mem_nil⟩, fun id record present => ?_,
      fun _ _ member => absurd member List.not_mem_nil⟩
    simp [OrderRegistry.new] at present
  lockstep := by
    intro underlying
    have registry : (executors underlying).state.registry = .new := congrArg BookView.registry (empty underlying)
    change (executors underlying).state.registry.Lockstep
    rw [registry]
    exact OrderRegistry.lockstep_new
  journaled := by
    intro underlying id record present
    have registry : (executors underlying).state.registry = .new := congrArg BookView.registry (empty underlying)
    change (executors underlying).state.registry.resting[id]? = _ at present
    rw [registry] at present
    simp [OrderRegistry.new] at present
  shows' := by
    intro symbol parsed _
    change Shows _ ((laws.viewOf (executors parsed.underlying).state).orders _) _
    rw [empty]
    exact shows_new _

theorem start (hashOrder : VisitOrder) : Mirrors laws (ServedVenue.start settings hashOrder) := by
  refine of_empty _ (fun _ => rfl) fun underlying => ?_
  unfold LeafLaws.viewOf
  congr 1
  funext address
  exact laws.new_orders _

/-- A restore that installs the orders that rest already. -/
theorem restore (mirrors : Mirrors laws venue) {underlying : String} {prepared : MatchingExecutor U}
    {marker : SnapshotRestored} (possible : venue.Possible settings (.restore underlying prepared marker))
    (keepsUp : KeepsUp laws venue (.restore underlying prepared marker)) :
    Mirrors laws (venue.after settings (.restore underlying prepared marker)) := by
  obtain ⟨-, hashOrder, cut, prepares⟩ := possible
  change laws.viewOf prepared.state = laws.viewOf (venue.executors underlying).state at keepsUp
  have registry : prepared.state.registry = (venue.executors underlying).state.registry :=
    congrArg BookView.registry keepsUp
  -- the view of every underlying is what it was
  have same : ∀ other, laws.viewOf ((venue.after settings (.restore underlying prepared marker)).executors other).state =
      laws.viewOf (venue.executors other).state := by
    intro other
    by_cases here : other = underlying
    · subst here
      change laws.viewOf (Function.update venue.executors other prepared other).state = _
      rw [Function.update_self, keepsUp]
    · change laws.viewOf (Function.update venue.executors underlying prepared other).state = _
      rw [Function.update_of_ne here]
  have registries : ∀ other, ((venue.after settings (.restore underlying prepared marker)).executors other).state.registry =
      (venue.executors other).state.registry := fun other => congrArg BookView.registry (same other)
  refine ⟨fun other => ?_, fun other => ?_, fun other => ?_, fun other id record present => ?_,
    fun symbol parsed canonical => ?_⟩
  · by_cases here : other = underlying
    · subst here
      change (Function.update venue.executors other prepared other).state.underlyingBook.underlying = _
      rw [Function.update_self, prepareRestore_underlying prepares]
      exact mirrors.hosted other
    · change (Function.update venue.executors underlying prepared other).state.underlyingBook.underlying = _
      rw [Function.update_of_ne here]
      exact mirrors.hosted other
  · rw [same]
    exact mirrors.inStep other
  · rw [registries]
    exact mirrors.lockstep other
  · rw [registries] at present
    obtain ⟨written, member, sequence⟩ := mirrors.journaled other id record present
    exact ⟨written, venue.mem_appended member, sequence⟩
  · rw [same, registries]
    exact mirrors.shows' symbol parsed canonical

section Commit
variable (mirrors : Mirrors laws venue) {submitted : Commit} (possible : venue.Possible settings (.commit submitted))
  (followable : Followable laws (venue.executors submitted.underlying) submitted.command)

include mirrors possible in
/-- The sequence of a commit is in use by no order. -/
theorem unused : (venue.executors submitted.underlying).state.registry.resting[submitted.command.sequence]? = none := by
  by_contra present
  obtain ⟨record, here⟩ := Option.ne_none_iff_exists'.1 present
  obtain ⟨written, member, sequence⟩ := mirrors.journaled submitted.underlying _ record here
  have below := possible.1 written member
  omega

include mirrors possible followable in
/-- The moves of a commit. -/
theorem turn : ∃ moves, Moves (addressOf? U submitted.underlying) (laws.viewOf (venue.executors submitted.underlying).state) moves
      (laws.viewOf (venue.executed settings submitted).2) ∧
    TurnReport U (addressOf? U submitted.underlying) (laws.viewOf (venue.executors submitted.underlying).state)
      submitted.command.sequence
      ((venue.executors submitted.underlying).state.matchOf submitted.command.sequence submitted.command.command)
      submitted.command.command (venue.executed settings submitted).1 moves := by
  have home : (venue.executors submitted.underlying).state.home = addressOf? U submitted.underlying :=
    congrArg (addressOf? U) (mirrors.hosted submitted.underlying)
  have step := mirrors.inStep submitted.underlying
  have moved := @SequencedState.execute_moves U laws (venue.executors submitted.underlying).state
    (submitted.command.context submitted.underlying settings.lineageId) (home.symm ▸ step) (mirrors.unused possible)
    (venue.executors submitted.underlying).hashOrder followable.fits
  rw [home] at moved
  exact moved

include mirrors possible followable in
/-- The contracts of the underlying that commits. -/
theorem shows_here {symbol : Symbol} {parsed : ParsedSymbol} (canonical : Canonical U symbol parsed)
    (here : parsed.underlying = submitted.underlying) :
    Shows (venue.executed settings submitted).2.registry
      ((laws.viewOf (venue.executed settings submitted).2).orders parsed.address)
      ((venue.manager.onCommittedEvent U (venue.committed settings submitted)).2.instrument symbol) := by
  obtain ⟨moves, moved, report⟩ := mirrors.turn possible followable
  have step := mirrors.inStep submitted.underlying
  have lives : addressOf? U submitted.underlying symbol = some parsed.address :=
    (addressOf?_canonical canonical).2 ⟨here, rfl⟩
  have before := mirrors.shows' symbol parsed canonical
  rw [here] at before
  by_cases aimed : commandSymbol submitted.command.command = some symbol
  · refine onCommittedEvent_shows venue.manager _ aimed ?_
    have room := followable.room symbol parsed.address aimed ((congrFun (congrArg (addressOf? U)
      (mirrors.hosted submitted.underlying)) symbol).trans lives)
    exact Shows.turn step (mirrors.lockstep submitted.underlying) report moved aimed lives followable.unnamed room before
  · rw [(venue.manager.onCommittedEvent_other _ U aimed).2]
    refine Shows.elsewhere step moved (fun move member same => ?_) before
    cases contract : commandSymbol submitted.command.command with
    | none =>
      rw [followable.still contract rfl report moved] at member
      cases member
    | some other =>
      -- the moves are in the leaf of another contract
      obtain ⟨also, typed⟩ := possible.2 other contract
      obtain ⟨underlying, address⟩ := (addressOf?_canonical typed).1 (TurnReport.lives report moved contract move member)
      have equal := typed.unique canonical (underlying.trans here.symm) (address.trans same.symm)
      rw [equal] at contract
      exact aimed contract

include mirrors possible followable in
/-- The contracts of the other underlyings. -/
theorem shows_away {symbol : Symbol} {parsed : ParsedSymbol} (canonical : Canonical U symbol parsed)
    (away : parsed.underlying ≠ submitted.underlying) :
    Shows (venue.executors parsed.underlying).state.registry
      ((laws.viewOf (venue.executors parsed.underlying).state).orders parsed.address)
      ((venue.manager.onCommittedEvent U (venue.committed settings submitted)).2.instrument symbol) := by
  obtain ⟨moves, moved, report⟩ := mirrors.turn possible followable
  have before := mirrors.shows' symbol parsed canonical
  by_cases aimed : commandSymbol submitted.command.command = some symbol
  · have homeless : addressOf? U submitted.underlying symbol = none := by
      refine Option.eq_none_iff_forall_not_mem.2 fun address lives => away ?_
      exact ((addressOf?_canonical canonical).1 lives).1
    refine onCommittedEvent_shows venue.manager _ aimed ?_
    have same := @TurnReport.foreign U _ _ _ (venue.manager.instrument symbol) _ _ _ _ _ symbol report moved aimed homeless
    exact same.symm ▸ before
  · rw [(venue.manager.onCommittedEvent_other _ U aimed).2]
    exact before

include mirrors possible followable in
/-- A commit that the service can follow. -/
theorem commit : Mirrors laws (venue.after settings (.commit submitted)) := by
  have here : ((venue.after settings (.commit submitted)).executors submitted.underlying).state =
      (venue.executed settings submitted).2 :=
    congrArg MatchingExecutor.state (venue.executors.commit_here settings.lineageId submitted)
  have away : ∀ other, other ≠ submitted.underlying →
      (venue.after settings (.commit submitted)).executors other = venue.executors other :=
    fun other apart => venue.executors.commit_of_ne settings.lineageId apart
  obtain ⟨moves, moved, -⟩ := mirrors.turn possible followable
  have unused := mirrors.unused possible
  refine ⟨fun other => ?_, fun other => ?_, fun other => ?_, fun other id record present => ?_,
    fun symbol parsed canonical => ?_⟩
  · by_cases same : other = submitted.underlying
    · rw [same, here]
      exact (SequencedState.execute_underlying _ _ _).trans (mirrors.hosted submitted.underlying)
    · rw [away other same]
      exact mirrors.hosted other
  · by_cases same : other = submitted.underlying
    · rw [same, here]
      exact (mirrors.inStep submitted.underlying).moves moved
    · rw [away other same]
      exact mirrors.inStep other
  · by_cases same : other = submitted.underlying
    · rw [same, here]
      exact (SequencedState.execute_registry _ _ _).lockstep (mirrors.lockstep submitted.underlying) unused followable.unnamed
    · rw [away other same]
      exact mirrors.lockstep other
  · by_cases same : other = submitted.underlying
    · subst same
      rw [here] at present
      rcases (SequencedState.execute_registry _ _ _).resting present with before | rfl
      · obtain ⟨written, member, sequence⟩ := mirrors.journaled _ id record before
        exact ⟨written, venue.mem_appended member, sequence⟩
      · refine ⟨.command submitted.command, ?_, rfl⟩
        change _ ∈ venue.appended _ _ _
        unfold ServedVenue.appended
        rw [Function.update_self]
        exact List.mem_append_right _ (by simp [VenueEvent.pair, Executors.commit])
    · rw [away other same] at present
      obtain ⟨written, member, sequence⟩ := mirrors.journaled other id record present
      exact ⟨written, venue.mem_appended member, sequence⟩
  · by_cases same : parsed.underlying = submitted.underlying
    · rw [same, here]
      exact mirrors.shows_here possible followable canonical same
    · rw [away _ same]
      exact mirrors.shows_away possible followable canonical same

end Commit

theorem reboot {recovered : String → Recovered U} (possible : venue.Possible settings (.reboot recovered))
    (keepsUp : KeepsUp laws venue (.reboot recovered)) : Mirrors laws (venue.after settings (.reboot recovered)) := by
  obtain ⟨hashOrder, index, recovers⟩ := possible
  refine of_empty _ (fun underlying => ?_) keepsUp
  have replayed := reduceIntoExecutor_executor underlying settings.lineageId (recovers underlying)
  have executor : _ = (recovered underlying).executor := congrArg Prod.snd replayed
  rw [← executor, reexecute_underlying]
  rfl

end Mirrors

def bareSettings : VenueSettings := ⟨"run-1", none, none⟩

def callSymbol : Symbol := "BTC-20351231-50000-C"

theorem callSymbol_canonical : Canonical referenceUpstream callSymbol ⟨"BTC", "20351231", 50000, .call⟩ where
  parses := by decide
  text := by decide

def quote (sequence : Nat) (orderId : VenueOrderId) (owner : Hash32) (side : Side) (quantity : Nat) : Commit :=
  ⟨"BTC", sequence, sequence, .addOrder ⟨callSymbol, orderId, "acct-1", owner, none, side, .limit, some 100, quantity, .gtc,
    .none⟩⟩

def kill (sequence : Nat) : Commit := ⟨"BTC", sequence, sequence, .marketMakerControl ⟨none, none, none, some false⟩⟩

theorem quote_canonical (sequence quantity : Nat) (orderId : VenueOrderId) (owner : Hash32) (side : Side) :
    ∀ symbol, commandSymbol (quote sequence orderId owner side quantity).command.command = some symbol →
      ∃ parsed, Canonical referenceUpstream symbol parsed := by
  intro symbol aimed
  obtain rfl := Option.some.inj aimed
  exact ⟨_, callSymbol_canonical⟩

theorem quote_followable {executor : MatchingExecutor referenceUpstream} {sequence quantity : Nat} {orderId : VenueOrderId}
    {owner : Hash32} {side : Side} (hosted : executor.state.underlyingBook.underlying = "BTC")
    (fits : ∀ made ∈ executor.state.matchOf sequence (quote sequence orderId owner side quantity).command.command,
      made.Fits referenceUpstream)
    (unnamed : executor.state.registry.venueToEngine[orderId]? = none)
    (room : restingAt (executor.state.underlyingBook.leafAt ⟨"20351231", 50000, .call⟩).orders (bookSide side) 100 +
      quantity ≤ u64Max) :
    Followable referenceLeafLaws executor (quote sequence orderId owner side quantity).command where
  fits := fits
  unnamed := by
    intro name placed named
    obtain rfl := Option.some.inj placed
    exact named unnamed
  room := by
    intro symbol address aimed lives side price quantity level
    obtain rfl := Option.some.inj aimed
    unfold SequencedState.home at lives
    rw [hosted] at lives
    obtain rfl := ((addressOf?_canonical callSymbol_canonical).1 lives).2
    cases level
    exact room
  unswept := trivial

theorem unowned {registry : OrderRegistry} {owner : Hash32}
    (others : ∀ entry ∈ registry.resting.toList, entry.2.owner ≠ owner) (id : Nat) (record : RestingRecord)
    (present : registry.resting[id]? = some record) : record.owner ≠ owner :=
  others (id, record) (Std.ExtTreeMap.mem_toList_iff_getElem?_eq_some.2 present)

end Fauxchange.MarketData
