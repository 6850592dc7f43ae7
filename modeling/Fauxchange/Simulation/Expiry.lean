import Fauxchange.Exchange.Envelope
import Mathlib.Tactic.SplitIfs

/-! The schedule of expiries: the phase of an expiration at an instant of the venue clock, and the commands that lead from
one phase to a later one. -/

namespace Fauxchange.Simulation
open Exchange

def msPerDay : Int := 86400000

def defaultExpiryOffsetMs : Int := 8 * 3600000

def defaultSettlementOffsetMs : Int := 8 * 3600000 + 30 * 60000

/-- The account that the sweeps of a roll are attributed to. -/
def expiryRollAccount : AccountId := "venue-expiry-scheduler"

inductive ExpiryScheduleError where
  | offsetOutOfDay (offsetMs : Int)
  | settlementBeforeExpiry (expiryMs settlementMs : Int)
  deriving DecidableEq, Repr

inductive ExpiryPhase where
  | preExpiry
  | settling
  | expired
  deriving DecidableEq, Repr

namespace ExpiryPhase

def rank : ExpiryPhase → Nat
  | preExpiry => 0
  | settling => 1
  | expired => 2

instance : LE ExpiryPhase := ⟨fun early late => early.rank ≤ late.rank⟩

instance : LT ExpiryPhase := ⟨fun early late => early.rank < late.rank⟩

instance (early late : ExpiryPhase) : Decidable (early ≤ late) := inferInstanceAs (Decidable (early.rank ≤ late.rank))

instance (early late : ExpiryPhase) : Decidable (early < late) := inferInstanceAs (Decidable (early.rank < late.rank))

theorem not_lt {early late : ExpiryPhase} : ¬ early < late ↔ late ≤ early := Nat.not_lt

theorem not_le {early late : ExpiryPhase} : ¬ early ≤ late ↔ late < early := Nat.not_le

end ExpiryPhase

def OffsetInDay (offsetMs : Int) : Prop := 0 ≤ offsetMs ∧ offsetMs < msPerDay

instance (offsetMs : Int) : Decidable (OffsetInDay offsetMs) := inferInstanceAs (Decidable (_ ∧ _))

/-- The operational times of a day, as offsets from its midnight. -/
structure ExpirySchedule where
  expiryOffsetMs : Int
  settlementOffsetMs : Int
  expiryInDay : OffsetInDay expiryOffsetMs
  settlementInDay : OffsetInDay settlementOffsetMs
  ordered : expiryOffsetMs ≤ settlementOffsetMs
  deriving DecidableEq

namespace ExpirySchedule

def new (expiryOffsetMs settlementOffsetMs : Int) : Except ExpiryScheduleError ExpirySchedule :=
  if expiryInDay : OffsetInDay expiryOffsetMs then
    if settlementInDay : OffsetInDay settlementOffsetMs then
      if ordered : expiryOffsetMs ≤ settlementOffsetMs then
        .ok ⟨expiryOffsetMs, settlementOffsetMs, expiryInDay, settlementInDay, ordered⟩
      else .error (.settlementBeforeExpiry expiryOffsetMs settlementOffsetMs)
    else .error (.offsetOutOfDay settlementOffsetMs)
  else .error (.offsetOutOfDay expiryOffsetMs)

def default : ExpirySchedule where
  expiryOffsetMs := defaultExpiryOffsetMs
  settlementOffsetMs := defaultSettlementOffsetMs
  expiryInDay := by decide
  settlementInDay := by decide
  ordered := by decide

variable (schedule : ExpirySchedule)

/-- A relative expiry has no instants. -/
def operationalInstants : ExpirationDate → Option (Int × Int)
  | .dateTime expirationMs =>
    let dayMs := expirationMs / msPerDay * msPerDay
    some (dayMs + schedule.expiryOffsetMs, dayMs + schedule.settlementOffsetMs)
  | .days _ => none

def phaseAt (expiration : ExpirationDate) (nowMs : Int) : Option ExpiryPhase :=
  (schedule.operationalInstants expiration).map fun instants =>
    if instants.2 ≤ nowMs then .expired
    else if instants.1 ≤ nowMs then .settling
    else .preExpiry

/-- An expiration never falls back to an earlier phase. -/
theorem phaseAt_mono {expiration : ExpirationDate} {nowMs laterMs : Int} (passes : nowMs ≤ laterMs)
    {early late : ExpiryPhase} (before : schedule.phaseAt expiration nowMs = some early)
    (after : schedule.phaseAt expiration laterMs = some late) : early ≤ late := by
  cases expiration with
  | days count => cases before
  | dateTime expirationMs =>
    obtain rfl := Option.some.inj before
    obtain rfl := Option.some.inj after
    dsimp only
    split_ifs <;> first | decide | omega

/-- The schedule puts the expiration at or past its settling. -/
def Due (expiration : ExpirationDate) (nowMs : Int) : Prop :=
  ∃ phase ∈ schedule.phaseAt expiration nowMs, ExpiryPhase.settling ≤ phase

instance (expiration : ExpirationDate) (nowMs : Int) : Decidable (schedule.Due expiration nowMs) :=
  inferInstanceAs (Decidable (∃ phase, phase ∈ schedule.phaseAt expiration nowMs ∧ _))

end ExpirySchedule

/-- The sweep of an expiration. -/
def expirySweep (expiration : ExpirationDate) : VenueCommand := .massCancel (.expiration expiration) .all expiryRollAccount

/-- The commands that lead an expiration from one phase to another, none where that is no step forward. -/
def transitionCommands (expiration : ExpirationDate) (symbols : List Symbol) (reached target : ExpiryPhase) :
    List VenueCommand :=
  if target ≤ reached then []
  else
    (if reached < .settling then
      expirySweep expiration :: symbols.map fun symbol => .setInstrumentStatus symbol .settling
    else []) ++
      if .expired ≤ target then symbols.map fun symbol => .setInstrumentStatus symbol .expired else []

end Fauxchange.Simulation
