import Fauxchange.Exchange.Alike
import Fauxchange.Exchange.Recovery
import Fauxchange.Exchange.RegistryStep

/-! Runs of commands from alike states: whatever their settings and hash orders, two executors that show the same
trade the same and end alike. -/

namespace Fauxchange.Exchange
open Lib UnderlyingOrderBook

namespace SequencedState
variable {U : Upstream} (visits : VisitOrder) (state : SequencedState U) (ctx : ExecutionContext)

/-- The underlying and the settings of a hierarchy root. -/
def identity (state : SequencedState U) : String × BookConfig :=
  (state.underlyingBook.underlying, state.underlyingBook.config)

theorem identity_of_resolved {symbol : Symbol} {address : LeafAddress} {book : UnderlyingOrderBook U}
    (resolved : state.underlyingBook.resolveLeafVivify symbol = .ok (address, book)) :
    identity { state with underlyingBook := book } = state.identity := by
  obtain ⟨-, rfl⟩ := resolveLeafVivify_eq_ok.1 resolved
  rfl

theorem executeAddOrder_identity (placement : Placement) (orderType : OrderType) (limitPrice : Option Nat) :
    (state.executeAddOrder visits ctx placement orderType limitPrice).2.identity = state.identity := by
  unfold executeAddOrder
  split
  · rfl
  next resolved =>
    have same := state.identity_of_resolved resolved
    dsimp only
    split
    · exact same
    · split <;> exact same

theorem executeCancel_identity (symbol : Symbol) (orderId : VenueOrderId) (account : AccountId) :
    (state.executeCancel symbol orderId account).2.identity = state.identity := by
  unfold executeCancel
  split
  · rfl
  · split
    · rfl
    · split
      · rfl
      · split <;> rfl

theorem executeReplace_identity (amended : Replace) :
    (state.executeReplace visits ctx amended).2.identity = state.identity := by
  unfold executeReplace
  split
  · rfl
  next resolved =>
    have same := state.identity_of_resolved resolved
    dsimp only
    split
    · exact same
    · split
      · exact same
      · split
        · split <;> exact same
        · exact same

theorem cancelTargets_identity (targets : List (Nat × RestingRecord)) :
    (state.cancelTargets targets).2.identity = state.identity := by
  induction targets generalizing state with
  | nil => rfl
  | cons target rest ih =>
    simp only [cancelTargets]
    split
    · exact ih state
    · split <;> exact ih _

theorem evictLeaves_identity (nowMs : Nat) (book : UnderlyingOrderBook U) (symbols : List Symbol) :
    (evictLeaves nowMs book symbols).2.underlying = book.underlying ∧
      (evictLeaves nowMs book symbols).2.config = book.config := by
  induction symbols generalizing book with
  | nil => exact ⟨rfl, rfl⟩
  | cons symbol rest ih =>
    obtain ⟨underlying, config⟩ := ih (evictLeaf nowMs book symbol).2
    have first : (evictLeaf nowMs book symbol).2.underlying = book.underlying ∧
        (evictLeaf nowMs book symbol).2.config = book.config := by
      unfold evictLeaf
      split
      · exact ⟨rfl, rfl⟩
      · split <;> exact ⟨rfl, rfl⟩
    exact ⟨underlying.trans first.1, config.trans first.2⟩

/-- No command changes the underlying or the settings. -/
theorem execute_identity : (state.execute visits ctx).2.identity = state.identity := by
  unfold execute
  cases ctx.command with
  | addOrder order =>
    have added := executeAddOrder_identity visits state ctx order.placement order.orderType order.limitPrice
    simp only [addWithIdempotency]
    split
    · exact added
    · split
      · split <;> rfl
      · exact added
  | cancelOrder symbol orderId account => exact executeCancel_identity state symbol orderId account
  | replace amended => exact executeReplace_identity visits state ctx amended
  | massCancel scope cancelType account =>
    simp only [executeMassCancel]
    split
    · rfl
    · exact cancelTargets_identity state _
  | setInstrumentStatus symbol status =>
    simp only [executeSetInstrumentStatus]
    split
    · rfl
    next resolved =>
      have same := state.identity_of_resolved resolved
      split <;> exact same
  | evictExpiredOrders nowMs =>
    obtain ⟨underlying, config⟩ := evictLeaves_identity nowMs state.underlyingBook
      (restingSymbols visits ctx.sequence state.registry)
    exact Prod.ext underlying config
  | marketMakerControl knobs =>
    simp only [executeMarketMakerControl]
    split
    · exact cancelTargets_identity state _
    · rfl
  | clock => rfl
  | simStep => rfl

end SequencedState

section Runs
variable {U : Upstream} {laws : BookLaws U} {underlying : String} {lineage : LineageId}
  {names : List VenueOrderId} {bound : Nat} {executor left right : MatchingExecutor U} {command : JournalCommand}

/-- The registry and the books in step, under the venue order ids placed so far. -/
structure Kept (laws : BookLaws U) (names : List VenueOrderId) (bound : Nat) (state : SequencedState U) : Prop where
  coherent : Coherent laws state bound
  tracked : state.registry.Tracked names bound

/-- A command as the actor of the underlying stamps it: a fresh sequence, a venue order id not placed before and
64-bit values, on a state with room. -/
structure Admits (names : List VenueOrderId) (bound : Nat) (state : SequencedState U) (command : JournalCommand) :
    Prop where
  fresh : bound ≤ command.sequence
  unplaced : ∀ orderId, command.command.placedId = some orderId → orderId ∉ names
  ranged : command.command.Ranged
  roomy : Roomy state

theorem Kept.derive (kept : Kept laws names bound executor.state)
    (admits : Admits names bound executor.state command) :
    Kept laws (names ++ command.command.placedId.toList) (command.sequence + 1)
      (deriveEvent underlying lineage executor command).2.state where
  coherent := kept.coherent.execute executor.hashOrder admits.fresh admits.roomy admits.ranged
  tracked := kept.tracked.step (deriveEvent_registry underlying lineage executor command) admits.fresh admits.unplaced

/-- Along a run every command is admitted. -/
def AdmitsRun (underlying : String) (lineage : LineageId) (names : List VenueOrderId) (bound : Nat)
    (executor : MatchingExecutor U) : List JournalCommand → Prop
  | [] => True
  | command :: rest => Admits names bound executor.state command ∧
      AdmitsRun underlying lineage (names ++ command.command.placedId.toList) (command.sequence + 1)
        (deriveEvent underlying lineage executor command).2 rest

theorem Kept.reexecute {commands : List JournalCommand} (kept : Kept laws names bound executor.state)
    (admitted : AdmitsRun underlying lineage names bound executor commands) :
    ∃ later higher, Kept laws later higher (reexecute underlying lineage executor commands).2.state := by
  induction commands generalizing executor names bound with
  | nil => exact ⟨names, bound, kept⟩
  | cons command rest ih => exact ih (kept.derive admitted.1) admitted.2

/-- The fills of an event. -/
def VenueEvent.fills (event : VenueEvent) : List Fill := outcomeFills event.outcome

/-- One command on two alike executors of any hash orders. -/
theorem Alike.derive (alike : Alike laws left.state right.state) (kept : Kept laws names bound left.state)
    (coherent : Coherent laws right.state bound) (admits : Admits names bound left.state command)
    (within : command.command.WithinSpecs left.state.underlyingBook.config.specs)
    (within' : command.command.WithinSpecs right.state.underlyingBook.config.specs) :
    (deriveEvent underlying lineage left command).1.fills = (deriveEvent underlying lineage right command).1.fills ∧
      Alike laws (deriveEvent underlying lineage left command).2.state
        (deriveEvent underlying lineage right command).2.state := by
  have apart : right.state.registry.VenueIdsApart := alike.registry ▸ kept.tracked.lockstep.apart
  have ordered := SequencedState.execute_hash right.hashOrder left.hashOrder right.state
    (command.context underlying lineage) fun _ => apart
  have executed := @Alike.execute U laws left.state right.state bound (command.context underlying lineage) alike
    kept.coherent coherent left.hashOrder admits.fresh
    (by
      rintro specs (rfl | rfl)
      · exact within
      · exact within')
  rw [← ordered] at executed
  exact executed

theorem Admits.alike (admits : Admits names bound left.state command) (alike : Alike laws left.state right.state) :
    Admits names bound right.state command :=
  { admits with roomy := by unfold Roomy; rw [← alike.registry]; exact admits.roomy }

theorem deriveEvent_identity (executor : MatchingExecutor U) (command : JournalCommand) :
    (deriveEvent underlying lineage executor command).2.state.identity = executor.state.identity :=
  SequencedState.execute_identity executor.hashOrder executor.state (command.context underlying lineage)

/-- Any admitted run from alike executors gives the same fills, command by command, and ends alike. -/
theorem Alike.reexecute {commands : List JournalCommand} (alike : Alike laws left.state right.state)
    (kept : Kept laws names bound left.state) (coherent : Coherent laws right.state bound)
    (admitted : AdmitsRun underlying lineage names bound left commands)
    (within : ∀ command ∈ commands, command.command.WithinSpecs left.state.underlyingBook.config.specs)
    (within' : ∀ command ∈ commands, command.command.WithinSpecs right.state.underlyingBook.config.specs) :
    (Exchange.reexecute underlying lineage left commands).1.map VenueEvent.fills =
        (Exchange.reexecute underlying lineage right commands).1.map VenueEvent.fills ∧
      Alike laws (Exchange.reexecute underlying lineage left commands).2.state
        (Exchange.reexecute underlying lineage right commands).2.state := by
  induction commands generalizing left right names bound with
  | nil => exact ⟨rfl, alike⟩
  | cons command rest ih =>
    obtain ⟨fills, next⟩ := @Alike.derive U laws underlying lineage _ _ _ _ _ alike kept coherent admitted.1
      (within command (by simp)) (within' command (by simp))
    have moved : Coherent laws (deriveEvent underlying lineage right command).2.state (command.sequence + 1) :=
      coherent.execute right.hashOrder admitted.1.fresh (admitted.1.alike alike).roomy admitted.1.ranged
    have settings := congrArg Prod.snd (@deriveEvent_identity U underlying lineage left command)
    have settings' := congrArg Prod.snd (@deriveEvent_identity U underlying lineage right command)
    simp only [SequencedState.identity] at settings settings'
    obtain ⟨later, last⟩ := ih next (kept.derive admitted.1) moved admitted.2
      (by rw [settings]; exact fun other member => within other (List.mem_cons_of_mem _ member))
      (by rw [settings']; exact fun other member => within' other (List.mem_cons_of_mem _ member))
    refine ⟨?_, last⟩
    simp only [Exchange.reexecute, List.map_cons]
    rw [fills, later]

end Runs

end Fauxchange.Exchange
