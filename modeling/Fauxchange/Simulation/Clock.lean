import Fauxchange.Exchange.Envelope

/-! The clock of the venue: a shared instant that the actors read at the start of each turn. An advance is a
compare-exchange loop, so several of them interleave; none takes the instant back. -/

namespace Fauxchange.Simulation
open Exchange

/-- The runtime mode with its parameters. -/
inductive ClockMode where
  | realtime
  | accelerated (multiplier : Nat)
  | stepped (stepMs : Nat)
  deriving DecidableEq, Repr

structure VenueClockConfig where
  mode : ClockMode
  startMs : Nat
  deriving DecidableEq, Repr

/-- The atomics behind the shared handle; a wall anchor of zero is not set yet. -/
structure SimClock where
  mode : ClockMode
  startMs : Nat
  currentMs : Nat
  wallAnchorMs : Nat
  deriving DecidableEq, Repr

/-- A zero multiplier or interval counts as one. -/
def normaliseMode : ClockMode → ClockMode
  | .realtime => .realtime
  | .accelerated multiplier => .accelerated (max multiplier 1)
  | .stepped stepMs => .stepped (max stepMs 1)

/-- A checked sum or product, clamped to the last instant. -/
def clampMs (value : Nat) : Nat := if value ≤ u64Max then value else u64Max

/-- What moves the clock: a stepped interval, an explicit instant, or the wall time of a cadence tick. -/
inductive ClockDrive where
  | step
  | advanceTo (targetMs : Nat)
  | tick (wallNowMs : Nat)
  deriving DecidableEq, Repr

/-- An `advance_to` under way, with the instant that it has loaded. -/
structure Advance where
  targetMs : Nat
  loaded : Option Nat
  deriving DecidableEq, Repr

namespace SimClock
variable (clock : SimClock)

def new (config : VenueClockConfig) : SimClock := ⟨normaliseMode config.mode, config.startMs, config.startMs, 0⟩

def nowMs : Nat := clock.currentMs

/-- The anchor is installed on the first use. -/
def wallAnchor (wallNowMs : Nat) : Nat × SimClock :=
  if clock.wallAnchorMs ≠ 0 then (clock.wallAnchorMs, clock)
  else (max wallNowMs 1, { clock with wallAnchorMs := max wallNowMs 1 })

/-- The target of wall tracking; a wall below the anchor is no elapsed time. -/
def wallTarget (multiplier anchor wallNowMs : Nat) : Nat :=
  clampMs (clock.startMs + clampMs ((wallNowMs - anchor) * multiplier))

/-- The target that a drive computes before its loop, or none where the mode makes it a plain read. -/
def target : ClockDrive → Option Nat × SimClock
  | .advanceTo targetMs => (some targetMs, clock)
  | .step =>
    match clock.mode with
    | .stepped stepMs => (some (clampMs (clock.currentMs + stepMs)), clock)
    | .realtime | .accelerated _ => (none, clock)
  | .tick wallNowMs =>
    match clock.mode with
    | .realtime =>
      let (anchor, anchored) := clock.wallAnchor wallNowMs
      (some (clock.wallTarget 1 anchor wallNowMs), anchored)
    | .accelerated multiplier =>
      let (anchor, anchored) := clock.wallAnchor wallNowMs
      (some (clock.wallTarget multiplier anchor wallNowMs), anchored)
    | .stepped _ => (none, clock)

/-- One access of `advance_to`: the first load, the end of a loop that has nothing to do, or one weak
compare-exchange, which may fail without a reason. It gives what is left of the advance. -/
def access (advance : Advance) (spurious : Bool) : Option Advance × SimClock :=
  match advance.loaded with
  | none => (some { advance with loaded := some clock.currentMs }, clock)
  | some loaded =>
    if advance.targetMs ≤ loaded then (none, clock)
    else if loaded = clock.currentMs ∧ ¬ spurious then (none, { clock with currentMs := advance.targetMs })
    else (some { advance with loaded := some clock.currentMs }, clock)

section Monotone
variable {clock}

theorem wallAnchor_now (wallNowMs : Nat) : (clock.wallAnchor wallNowMs).2.nowMs = clock.nowMs := by
  unfold wallAnchor
  split
  · rfl
  · rfl

theorem target_now (drive : ClockDrive) : (clock.target drive).2.nowMs = clock.nowMs := by
  cases drive with
  | advanceTo targetMs => rfl
  | step =>
    unfold target
    dsimp only
    split
    · rfl
    · rfl
    · rfl
  | tick wallNowMs =>
    unfold target
    dsimp only
    split
    · exact wallAnchor_now wallNowMs
    · exact wallAnchor_now wallNowMs
    · rfl

/-- The exchange takes place only where the loaded instant is still the current one, and below the target. -/
theorem now_le_access (advance : Advance) (spurious : Bool) : clock.nowMs ≤ (clock.access advance spurious).2.nowMs := by
  unfold access
  split
  next => exact le_rfl
  next loaded _ =>
    split
    next => exact le_rfl
    next ahead =>
      split
      next taken =>
        have current : loaded = clock.nowMs := taken.1
        change clock.nowMs ≤ advance.targetMs
        omega
      next => exact le_rfl

end Monotone

end SimClock

end Fauxchange.Simulation
