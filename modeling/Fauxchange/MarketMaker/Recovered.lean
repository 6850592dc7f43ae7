import Fauxchange.Exchange.Reexecution
import Fauxchange.Lib.CheckedDigits
import Fauxchange.MarketMaker.Engine

/-! What a boot restores of the market maker, read off the events of the recovered streams. -/

namespace Fauxchange.MarketMaker
open Lib Exchange Venue

/-- What stands behind the last occurrence of a pattern. -/
def afterLast (pattern : List Char) : List Char → Option (List Char)
  | [] => if pattern.isEmpty then some [] else none
  | char :: rest =>
    match afterLast pattern rest with
    | some found => some found
    | none => if pattern.isPrefixOf (char :: rest) then some ((char :: rest).drop pattern.length) else none

/-- An unsigned number in 64 bits, as it is parsed: a leading plus is accepted. -/
def parseU64 : List Char → Option Nat
  | [] => none
  | '+' :: [] => none
  | '+' :: digits => checkedDigits u64Max digits
  | digits => checkedDigits u64Max digits

def parseMmSeq (orderId : VenueOrderId) : Option Nat := (afterLast ":MM:".toList orderId.toList).bind parseU64

/-- What the recovered events of one underlying leave of its producer. -/
structure RecoveredProducerState where
  legs : List RecoveredMmLeg
  nextSeqFloor : Nat
  controls : List MarketMakerControlKnobs
  lastNowMs : Option Nat

/-- What the events of one underlying have been read for, with the last leg of every contract and side. -/
structure ProducerScan where
  latest : List RecoveredMmLeg
  maxSeq : Option Nat
  controls : List MarketMakerControlKnobs
  lastNowMs : Option Nat

def ProducerScan.new : ProducerScan := ⟨[], none, [], none⟩

/-- An add of the maker under an id of its own. -/
def ProducerScan.leg (scan : ProducerScan) (underlying : String) (order : AddOrder) (seq : Nat) : ProducerScan :=
  { scan with
    maxSeq := some ((scan.maxSeq.map (max seq)).getD seq)
    latest := (scan.latest.filter fun leg => ¬ (leg.symbol = order.symbol ∧ leg.isBuy = (order.side = .buy))) ++
      [⟨underlying, order.symbol, order.orderId, order.side = .buy, order.limitPrice.getD 0, order.quantity, seq⟩] }

def ProducerScan.event (underlying : String) (scan : ProducerScan) (event : VenueEvent) : ProducerScan :=
  let scan := { scan with lastNowMs := some event.venueTs }
  match event.command with
  | .addOrder order =>
    if order.account = marketMakerAccount then
      match parseMmSeq order.orderId with
      | none => scan
      | some seq => scan.leg underlying order seq
    else scan
  | .marketMakerControl knobs => { scan with controls := scan.controls ++ [knobs] }
  | _ => scan

def recoveredProducerState (events : List VenueEvent) (underlying : String) : RecoveredProducerState :=
  let scan := events.foldl (ProducerScan.event underlying) .new
  ⟨scan.latest, (scan.maxSeq.map fun seq => min (seq + 1) u64Max).getD 0, scan.controls, scan.lastNowMs⟩

/-- The price of the last step of an underlying. -/
def lastRecoveredReferencePrice (events : List VenueEvent) (underlying : String) : Option Nat :=
  (events.filterMap fun event =>
    match event.command with
    | .simStep _ stepped price _ _ => if stepped = underlying then some price else none
    | _ => none).getLast?

/-- The engine takes up the state of one recovered producer. -/
def MarketMakerEngine.reconcile (engine : MarketMakerEngine) (state : RecoveredProducerState) : MarketMakerEngine :=
  let engine := state.controls.foldl MarketMakerEngine.applySequencedControl engine
  let engine := match state.lastNowMs with
    | none => engine
    | some nowMs => engine.setVenueNowMs nowMs
  engine.restoreRecoveredProducer state.legs state.nextSeqFloor

/-- The control that a command carries. -/
def controlOf : VenueCommand → Option MarketMakerControlKnobs
  | .marketMakerControl knobs => some knobs
  | _ => none

section Scans
variable {underlying : String} (scan : ProducerScan) (event : VenueEvent)

theorem scan_event_lastNowMs : (scan.event underlying event).lastNowMs = some event.venueTs := by
  unfold ProducerScan.event
  dsimp only
  split
  · split
    · split <;> rfl
    · rfl
  · rfl
  · rfl

theorem scan_event_controls :
    (scan.event underlying event).controls = scan.controls ++ (controlOf event.command).toList := by
  unfold ProducerScan.event controlOf
  dsimp only
  cases event.command with
  | addOrder order =>
    dsimp only
    split
    · split <;> simp [ProducerScan.leg]
    · simp
  | _ => simp

theorem foldl_scan_controls (events : List VenueEvent) : (events.foldl (ProducerScan.event underlying) scan).controls =
    scan.controls ++ events.filterMap fun event => controlOf event.command := by
  induction events generalizing scan with
  | nil => simp
  | cons event rest ih =>
    rw [List.foldl_cons, ih, scan_event_controls, List.append_assoc]
    cases written : controlOf event.command <;> simp [written]

theorem foldl_scan_lastNowMs (events : List VenueEvent) : (events.foldl (ProducerScan.event underlying) scan).lastNowMs =
    ((events.map VenueEvent.venueTs).getLast?).or scan.lastNowMs := by
  induction events generalizing scan with
  | nil => rfl
  | cons event rest ih =>
    rw [List.foldl_cons, ih, scan_event_lastNowMs, List.map_cons, List.getLast?_cons]
    cases (rest.map VenueEvent.venueTs).getLast? <;> rfl

end Scans

section Recovered
variable {U : Upstream} (underlying : String) (lineage : LineageId) (executor : MatchingExecutor U)
  (commands : List JournalCommand)

/-- The events that a stream is re-executed to carry its commands. -/
theorem reexecute_commands {β : Type} (read : VenueCommand → Nat → β) :
    (reexecute underlying lineage executor commands).1.map (fun event => read event.command event.venueTs) =
      commands.map fun command => read command.command command.venueTs := by
  have answered := reexecute_envelopes underlying lineage executor commands
  conv_rhs => rw [← answered]
  rw [List.map_map]
  rfl

theorem recovered_controls :
    (recoveredProducerState (reexecute underlying lineage executor commands).1 underlying).controls =
      commands.filterMap fun command => controlOf command.command := by
  have same := congrArg (List.filterMap id) (reexecute_commands underlying lineage executor commands fun command _ => controlOf command)
  rw [List.filterMap_map, List.filterMap_map] at same
  exact (foldl_scan_controls .new _).trans same

theorem recovered_lastNowMs :
    (recoveredProducerState (reexecute underlying lineage executor commands).1 underlying).lastNowMs =
      (commands.map JournalCommand.venueTs).getLast? := by
  have same := reexecute_commands underlying lineage executor commands fun _ venueTs => venueTs
  refine (foldl_scan_lastNowMs .new _).trans ?_
  rw [same]
  exact Option.or_none

end Recovered

namespace MarketMakerEngine
variable (engine : MarketMakerEngine) (state : RecoveredProducerState)

theorem foldl_control_config (controls : List MarketMakerControlKnobs) :
    (controls.foldl applySequencedControl engine).config =
      controls.foldl MarketMakerConfig.applySequencedControl engine.config := by
  induction controls generalizing engine with
  | nil => rfl
  | cons knobs rest ih => exact ih (engine.applySequencedControl knobs)

/-- What a control leaves as it is. -/
theorem foldl_control_frame {β : Type} (read : MarketMakerEngine → β)
    (frame : ∀ engine knobs, read (applySequencedControl engine knobs) = read engine)
    (controls : List MarketMakerControlKnobs) : read (controls.foldl applySequencedControl engine) = read engine := by
  induction controls generalizing engine with
  | nil => rfl
  | cons knobs rest ih => exact (ih (engine.applySequencedControl knobs)).trans (frame engine knobs)

theorem reconcile_config : (engine.reconcile state).config =
    state.controls.foldl MarketMakerConfig.applySequencedControl engine.config := by
  rw [← foldl_control_config]
  unfold reconcile
  cases state.lastNowMs <;> rfl

theorem reconcile_venueNowMs : (engine.reconcile state).venueNowMs = state.lastNowMs.getD engine.venueNowMs := by
  unfold reconcile
  cases state.lastNowMs with
  | none => exact foldl_control_frame engine MarketMakerEngine.venueNowMs (fun _ _ => rfl) state.controls
  | some nowMs => rfl

theorem reconcile_instruments : (engine.reconcile state).instruments = engine.instruments := by
  rw [← foldl_control_frame engine MarketMakerEngine.instruments (fun _ _ => rfl) state.controls]
  unfold reconcile
  cases state.lastNowMs <;> rfl

end MarketMakerEngine

end Fauxchange.MarketMaker
