import Fauxchange.Fix.Router
import Fauxchange.Lib.KeyedEntries
import Fauxchange.Lib.SlidingLog

/-! The sliding-window rate limiter on the venue clock: for each key the admission times within the window, and a
ceiling on the number of keys. -/

namespace Fauxchange.Auth
open Exchange Lib Fauxchange.Fix

structure RateLimitBudgets where
  windowMs : Nat
  read : Nat
  trade : Nat
  admin : Nat
  deriving DecidableEq, Repr

def RateLimitBudgets.limitFor (budgets : RateLimitBudgets) : RateLimitTier → Nat
  | .read => budgets.read
  | .trade => budgets.trade
  | .admin => budgets.admin

structure RateLimitDecision where
  allowed : Bool
  limit : Nat
  remaining : Nat
  resetMs : Nat
  retryAfterMs : Option Nat
  deriving DecidableEq, Repr

structure RateLimiter where
  budgets : RateLimitBudgets
  maxKeys : Nat
  windows : List (RateLimitKey × List Nat)

/-- `checked_add(..).unwrap_or(u64::MAX)` -/
def addOrMax (time window : Nat) : Nat := if time + window ≤ u64Max then time + window else u64Max

namespace RateLimiter

def withBudgetsAndCapacity (budgets : RateLimitBudgets) (maxKeys : Nat) : RateLimiter := ⟨budgets, max maxKeys 1, []⟩

variable (limiter : RateLimiter)

/-- A peer has the budget of a reader. -/
def limitForKey (key : RateLimitKey) : Nat :=
  match key with
  | .account _ _ tier => limiter.budgets.limitFor tier
  | .peer _ => limiter.budgets.limitFor .read

/-- Prunes the times that have left the window, then admits and records, or throttles. A time of the future is kept. -/
def decide (timestamps : List Nat) (now limit windowMs : Nat) : RateLimitDecision × List Nat :=
  let kept := timestamps.filter fun recorded => if recorded ≤ now then now - recorded < windowMs else true
  let used := kept.length
  let oldest := kept.min?.getD now
  let resetMs := addOrMax oldest windowMs
  if used < limit then (⟨true, limit, min (limit - (used + 1)) u32Max, resetMs, none⟩, kept ++ [now])
  else (⟨false, limit, 0, resetMs, some (resetMs - now)⟩, kept)

/-- The throttle of a new key at the ceiling. -/
def deniedCapacity (now limit windowMs : Nat) : RateLimitDecision :=
  ⟨false, limit, 0, addOrMax now windowMs, some windowMs⟩

/-- What is left of the times of a key, if anything is; a time of the future is dropped here. -/
def unexpired (windowMs now : Nat) (timestamps : List Nat) : Option (List Nat) :=
  let kept := timestamps.filter fun recorded => recorded ≤ now ∧ now - recorded < windowMs
  if kept.isEmpty then none else some kept

/-- Reclaims the keys whose windows have expired. -/
def sweepExpired (now : Nat) : RateLimiter :=
  { limiter with windows := retainKeyed (unexpired limiter.budgets.windowMs now) limiter.windows }

/-- Checks a request and records it if it is admitted. The inline sweep reads the clock again. -/
def checkAndRecordStatus (key : RateLimitKey) (now sweptAt : Nat) : RateLimitDecision × RateLimiter :=
  let limit := limiter.limitForKey key
  let windowMs := limiter.budgets.windowMs
  match keyed limiter.windows key with
  | some timestamps =>
    let (decision, kept) := decide timestamps now limit windowMs
    (decision, { limiter with windows := rewriteKeyed limiter.windows key kept })
  | none =>
    let swept := if limiter.maxKeys ≤ limiter.windows.length then limiter.sweepExpired sweptAt else limiter
    if swept.maxKeys ≤ swept.windows.length then (deniedCapacity now limit windowMs, swept)
    else
      let (decision, kept) := decide [] now limit windowMs
      (decision, { swept with windows := (key, kept) :: swept.windows })

def trackedKeys : Nat := limiter.windows.length

end RateLimiter

end Fauxchange.Auth
