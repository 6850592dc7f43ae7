import Fauxchange.Exchange.Recovery
import Fauxchange.Exchange.Restore

/-! What a restore leaves behind: it builds its executor from the cut alone, and the cut holds neither the
status registry nor the settings of the book nor the control sink. -/

namespace Fauxchange.Exchange
open Lib Microstructure

namespace SequencedState
variable {U : Upstream}

theorem rebuildFrom_frame {state rebuilt : SequencedState U} {orders : List RestingOrderCapture}
    (done : state.rebuildFrom orders = .ok rebuilt) :
    rebuilt.instrumentStatus = state.instrumentStatus ∧ rebuilt.idempotency = state.idempotency ∧
      rebuilt.underlyingBook.config = state.underlyingBook.config := by
  induction orders generalizing state with
  | nil =>
    cases done
    exact ⟨rfl, rfl, rfl⟩
  | cons capture rest ih =>
    unfold rebuildFrom at done
    split at done
    · cases done
    next address book resolved =>
      split at done
      · cases done
      next =>
        obtain ⟨statuses, idempotency, config⟩ := ih done
        refine ⟨statuses, idempotency, config.trans ?_⟩
        rw [(UnderlyingOrderBook.resolveLeafVivify_eq_ok.1 resolved).2]
        rfl

theorem applyInstrumentStatuses_frame {state applied : SequencedState U} {statuses : List InstrumentStatusCapture}
    (done : state.applyInstrumentStatuses statuses = .ok applied) :
    applied.instrumentStatus = state.instrumentStatus ∧ applied.idempotency = state.idempotency ∧
      applied.registry = state.registry ∧ applied.underlyingBook.config = state.underlyingBook.config := by
  induction statuses generalizing state with
  | nil =>
    cases done
    exact ⟨rfl, rfl, rfl, rfl⟩
  | cons capture rest ih =>
    unfold applyInstrumentStatuses at done
    split at done
    · cases done
    next address book resolved =>
      split at done
      · cases done
      next =>
        obtain ⟨registry, idempotency, orders, config⟩ := ih done
        refine ⟨registry, idempotency, orders, config.trans ?_⟩
        rw [(UnderlyingOrderBook.resolveLeafVivify_eq_ok.1 resolved).2]
        rfl

/-- A prepared state starts from no statuses and bare settings, whatever the cut. -/
theorem prepareRestore_frame {expected : String} {cut : ExecutorState} {prepared : SequencedState U}
    (done : prepareRestore U expected cut = .ok prepared) :
    prepared.instrumentStatus = .new ∧ prepared.underlyingBook.config = .bare := by
  unfold prepareRestore at done
  split at done
  · cases done
  · split at done
    · cases done
    next rebuilt rebuild =>
      have built := rebuildFrom_frame rebuild
      have applied := applyInstrumentStatuses_frame done
      exact ⟨applied.1.trans built.1, applied.2.2.2.trans built.2.2⟩

end SequencedState

section Gaps
variable {U : Upstream}

theorem MatchingExecutor.prepareRestore_eq_ok {executor restored : MatchingExecutor U} {hashOrder : VisitOrder}
    {cut : ExecutorState} : executor.prepareRestore hashOrder cut = .ok restored ↔
      ∃ state, SequencedState.prepareRestore U executor.state.underlyingBook.underlying cut = .ok state ∧
        restored = ⟨state, none, hashOrder⟩ := by
  unfold MatchingExecutor.prepareRestore
  split
  next failed => simp [failed]
  next state prepared =>
    rw [prepared]
    constructor
    · intro same
      exact ⟨state, rfl, (Except.ok.inj same).symm⟩
    · rintro ⟨other, same, rfl⟩
      rw [Except.ok.inj same]
      rfl

/-- A restore brings up an executor without a control sink, with bare settings and every instrument active. -/
theorem MatchingExecutor.prepareRestore_bare {executor restored : MatchingExecutor U} {hashOrder : VisitOrder}
    {cut : ExecutorState} (done : executor.prepareRestore hashOrder cut = .ok restored) :
    restored.mmControl = none ∧ restored.state.underlyingBook.config = .bare ∧
      restored.state.instrumentStatus = .new := by
  obtain ⟨state, prepared, rfl⟩ := prepareRestore_eq_ok.1 done
  obtain ⟨statuses, config⟩ := SequencedState.prepareRestore_frame prepared
  exact ⟨rfl, config, statuses⟩

/-- The gate of new orders on an instrument answers as it did. -/
structure StatusKept (captured restored : MatchingExecutor U) (symbol : Symbol) : Prop where
  status : restored.state.instrumentStatus.statusOf symbol = captured.state.instrumentStatus.statusOf symbol
  gate : restored.state.instrumentStatus.isAcceptingOrders U symbol =
    captured.state.instrumentStatus.isAcceptingOrders U symbol

/-- A restore of a capture, now or later, keeps the status of exactly the instruments that were active. -/
theorem restored_status_iff (captured live restored : MatchingExecutor U) (hashOrder : VisitOrder) (symbol : Symbol)
    (done : live.prepareRestore hashOrder captured.captureState = .ok restored) :
    StatusKept captured (live.commitRestore restored) symbol ↔
      captured.state.instrumentStatus.statusOf symbol = .active := by
  have cleared : restored.state.instrumentStatus.statusOf symbol = .active := by
    rw [(MatchingExecutor.prepareRestore_bare done).2.2]
    simp [InstrumentStatusRegistry.statusOf, InstrumentStatusRegistry.new]
  constructor
  · intro kept
    rw [← kept.status]
    exact cleared
  · intro active
    refine ⟨cleared.trans active.symm, ?_⟩
    unfold InstrumentStatusRegistry.isAcceptingOrders
    rw [active]
    exact congrArg U.isAcceptingOrders cleared

/-- A sink stays installed, whatever is executed. -/
theorem reexecute_mmControl (underlying : String) (lineage : LineageId) (executor : MatchingExecutor U)
    (commands : List JournalCommand) :
    (reexecute underlying lineage executor commands).2.mmControl.isSome = executor.mmControl.isSome := by
  induction commands generalizing executor with
  | nil => rfl
  | cons command rest ih =>
    have step : (deriveEvent underlying lineage executor command).2.mmControl.isSome = executor.mmControl.isSome := by
      change (MatchingExecutor.applyControl executor.mmControl command.command).isSome = _
      unfold MatchingExecutor.applyControl
      split
      · exact Option.isSome_map
      · rfl
    exact (ih _).trans step

/-- The settings of an executor are in force in another: its book has the same settings, it answers every list
of commands alike, and a control that would have reached the sink still does. -/
structure SettingsInForce (captured restored : MatchingExecutor U) : Prop where
  settings : restored.state.underlyingBook.config = captured.state.underlyingBook.config
  outcomes : ∀ underlying lineage commands, (reexecute underlying lineage restored commands).1 =
    (reexecute underlying lineage captured commands).1
  controlled : ∀ ctx knobs, ctx.command = .marketMakerControl knobs → captured.mmControl.isSome →
    ∃ received, (CommandExecutor.execute restored ctx).2.mmControl = some (received ++ [knobs])

/-- An executor built with a configuration and a sink loses them to every restore of every capture of its own,
whatever it has executed since. -/
theorem restored_settings_lost (underlying : String) (lineage : LineageId) (config : MicrostructureConfig)
    (received : List MarketMakerControlKnobs) (hashOrder detached : VisitOrder) (commands : List JournalCommand)
    (live restored : MatchingExecutor U)
    (done : live.prepareRestore detached (reexecute underlying lineage
      (freshExecutor U underlying (some config) (some received) hashOrder) commands).2.captureState = .ok restored) :
    ¬ SettingsInForce (reexecute underlying lineage
      (freshExecutor U underlying (some config) (some received) hashOrder) commands).2
      (live.commitRestore restored) := by
  intro inForce
  obtain ⟨unsunk, -, -⟩ := MatchingExecutor.prepareRestore_bare done
  let ctx : ExecutionContext := ⟨underlying, lineage, 0, 0, .marketMakerControl ⟨none, none, none, none⟩⟩
  have installed := reexecute_mmControl underlying lineage
    (freshExecutor U underlying (some config) (some received) hashOrder) commands
  obtain ⟨before, reaches⟩ := inForce.controlled ctx _ rfl installed
  have silent : (CommandExecutor.execute restored ctx).2.mmControl = none := by
    change Option.map _ restored.mmControl = none
    rw [unsunk]
    rfl
  rw [MatchingExecutor.commitRestore, silent] at reaches
  cases reaches

end Gaps

/-- An offer rests on the test contract, whose status is then set. -/
def offerCommands (statuses : List InstrumentStatus) : List JournalCommand :=
  stampFrom 0 (⟨1, testOrder "a" .sell 200⟩ ::
    statuses.map fun status => ⟨2, .setInstrumentStatus "BTC-20351231-50000-C" status⟩)

/-- The executor after those commands, under a configuration that charges takers one percent. -/
def offeringExecutor (statuses : List InstrumentStatus) : MatchingExecutor referenceUpstream :=
  (reexecute "BTC" "run-1" (freshExecutor referenceUpstream "BTC"
    (some { MicrostructureConfig.default with fees := ⟨0, 100⟩ }) (some []) fun _ _ => Equiv.refl _)
    (offerCommands statuses)).2

/-- The restore of its own capture. -/
def restoredOffer (statuses : List InstrumentStatus) : Except SnapshotError (MatchingExecutor referenceUpstream) :=
  (offeringExecutor statuses).prepareRestore (fun _ _ => Fin.revPerm) (offeringExecutor statuses).captureState

theorem exists_restoredOffer {statuses : List InstrumentStatus} (succeeds : (restoredOffer statuses).isOk = true) :
    ∃ restored, restoredOffer statuses = .ok restored := by
  cases done : restoredOffer statuses with
  | error =>
    rw [done] at succeeds
    cases succeeds
  | ok restored => exact ⟨restored, rfl⟩

/-- A bid that takes the offer. -/
def takingContext : ExecutionContext := ⟨"BTC", "run-1", 9, 9, testOrder "b" .buy 200⟩

/-- A halted instrument trades again after a restore of its own capture. -/
theorem halted_status_lost :
    ∃ restored, restoredOffer [.halted] = .ok restored ∧
      ¬ StatusKept (offeringExecutor [.halted]) ((offeringExecutor [.halted]).commitRestore restored)
        "BTC-20351231-50000-C" ∧
      (CommandExecutor.execute (offeringExecutor [.halted]) takingContext).1 =
        .rejected .instrumentNotActive
          "instrument BTC-20351231-50000-C is Halted and is not accepting orders" ∧
      (outcomeFills (CommandExecutor.execute restored takingContext).1).length = 2 := by
  obtain ⟨restored, done⟩ := exists_restoredOffer (show (restoredOffer [.halted]).isOk = true by decide)
  have cleared : restored.state.instrumentStatus = .new := (MatchingExecutor.prepareRestore_bare done).2.2
  have trades : (restoredOffer [.halted]).toOption.map (fun restored =>
      (outcomeFills (CommandExecutor.execute restored takingContext).1).length) = some 2 := by
    decide
  rw [done] at trades
  refine ⟨restored, done, fun kept => ?_, by decide, Option.some.inj trades⟩
  have status := kept.status
  change restored.state.instrumentStatus.statusOf _ = _ at status
  rw [cleared] at status
  revert status
  decide

/-- An instrument that was halted and resumed is active, and stays so. -/
theorem resumed_status_kept :
    ∃ restored, restoredOffer [.halted, .active] = .ok restored ∧
      StatusKept (offeringExecutor [.halted, .active])
        ((offeringExecutor [.halted, .active]).commitRestore restored) "BTC-20351231-50000-C" := by
  obtain ⟨restored, done⟩ := exists_restoredOffer (show (restoredOffer [.halted, .active]).isOk = true by decide)
  exact ⟨restored, done, (restored_status_iff _ _ _ _ _ done).2 (by decide)⟩

/-- The taker pays two cents before the restore and nothing after it, and a control reaches no sink. -/
theorem restored_offer_charges_nothing :
    ∃ restored, restoredOffer [] = .ok restored ∧
      ¬ SettingsInForce (offeringExecutor []) ((offeringExecutor []).commitRestore restored) ∧
      (outcomeFills (CommandExecutor.execute (offeringExecutor []) takingContext).1).map Fill.fee = [0, 2] ∧
      (outcomeFills (CommandExecutor.execute restored takingContext).1).map Fill.fee = [0, 0] ∧
      restored.mmControl = none := by
  obtain ⟨restored, done⟩ := exists_restoredOffer (show (restoredOffer []).isOk = true by decide)
  have charged : (restoredOffer []).toOption.map (fun restored =>
      (outcomeFills (CommandExecutor.execute restored takingContext).1).map Fill.fee) = some [0, 0] := by
    decide
  rw [done] at charged
  have before : (outcomeFills (CommandExecutor.execute (offeringExecutor []) takingContext).1).map Fill.fee =
      [0, 2] := by
    decide
  have after := Option.some.inj charged
  refine ⟨restored, done, fun inForce => ?_, before, after, (MatchingExecutor.prepareRestore_bare done).1⟩
  have settings := inForce.settings
  change restored.state.underlyingBook.config = _ at settings
  rw [(MatchingExecutor.prepareRestore_bare done).2.1] at settings
  revert settings
  decide

theorem configured_offer_settings_lost :
    ∃ restored, restoredOffer [] = .ok restored ∧
      ¬ SettingsInForce (offeringExecutor []) ((offeringExecutor []).commitRestore restored) := by
  obtain ⟨restored, done⟩ := exists_restoredOffer (show (restoredOffer []).isOk = true by decide)
  exact ⟨restored, done, restored_settings_lost "BTC" "run-1" _ [] (fun _ _ => Equiv.refl _)
    (fun _ _ => Fin.revPerm) (offerCommands []) _ restored done⟩

end Fauxchange.Exchange
