import Fauxchange.Auth.Registry

/-! The admission of a request behind a bearer token or a WebSocket ticket: the rate limit first, then the token's
expiry and revocation, then the permission. A ticket is taken out of its store by the redemption that uses it. -/

namespace Fauxchange.Auth
open Exchange hiding VenueError
open Lib
open Fauxchange.Fix (Permission VenueError RateLimitTier RateLimitKey)

def wsTicketTtlSecs : Nat := 30
def maxWsTickets : Nat := 65536

/-- What the clocks read for one admission: the wall clock in seconds, and the venue's at the check and at the sweep. -/
structure Reading where
  nowSecs : Nat
  nowMs : Nat
  sweptAt : Nat
  deriving DecidableEq, Repr

structure WsTicketEntry where
  claims : Claims
  expiresAtSecs : Nat
  deriving DecidableEq, Repr

structure WsTicketStore where
  tickets : Std.ExtTreeMap String WsTicketEntry
  maxTickets : Nat

def hexDigit (nibble : Nat) : Char := "0123456789abcdef".toList.getD nibble '0'

def hexEncodeLower (bytes : List UInt8) : String :=
  String.ofList (bytes.flatMap fun byte => [hexDigit (byte.toNat / 16), hexDigit (byte.toNat % 16)])

/-- A ticket is 32 bytes of the system's random source, where it can be read. -/
def mintOpaqueTicket (bytes : Option (List UInt8)) : Except VenueError String :=
  match bytes with
  | some bytes => .ok (hexEncodeLower bytes)
  | none => .error .overflow

namespace WsTicketStore

def new (maxTickets : Nat) : WsTicketStore := ⟨∅, max maxTickets 1⟩

variable (store : WsTicketStore)

def sweepExpired (nowSecs : Nat) : WsTicketStore :=
  { store with tickets := store.tickets.filter fun _ entry => nowSecs < entry.expiresAtSecs }

/-- What a mint puts into the store, before it takes the gate. -/
def prepare (claims : Claims) (nowSecs : Nat) (bytes : Option (List UInt8)) : Except VenueError (String × WsTicketEntry) :=
  if u64Max < nowSecs + wsTicketTtlSecs then .error .overflow
  else do
    let ticket ← mintOpaqueTicket bytes
    .ok (ticket, ⟨claims, nowSecs + wsTicketTtlSecs⟩)

/-- Behind the gate: the sweep, then the ceiling. -/
def admits (nowSecs : Nat) : Bool × WsTicketStore :=
  let swept := store.sweepExpired nowSecs
  (swept.tickets.size < swept.maxTickets, swept)

def insert (ticket : String) (entry : WsTicketEntry) : WsTicketStore :=
  { store with tickets := store.tickets.insert ticket entry }

/-- Redeems a ticket once: it is gone, also when it has expired. -/
def redeem (ticket : String) (nowSecs : Nat) : Option Claims × WsTicketStore :=
  match store.tickets[ticket]? with
  | none => (none, store)
  | some entry =>
    (if nowSecs < entry.expiresAtSecs then some entry.claims else none, { store with tickets := store.tickets.erase ticket })

end WsTicketStore

inductive Admission where
  | exempt
  | admitted (identity : Claims) (rateLimit : RateLimitDecision)
  | rejected (error : VenueError) (rateLimit : Option RateLimitDecision)
  deriving DecidableEq, Repr

def exemptPaths : List String := ["/health"]

/-- An account is limited under the epoch and the tier of its token. -/
def Claims.rateLimitKey (claims : Claims) : RateLimitKey :=
  .account claims.sub claims.revocationEpoch (.fromPermissions claims.permissions)

/-- Whether a token is at or past its account's epoch; an unknown account has none. -/
def AccountRegistry.honours (registry : AccountRegistry) (claims : Claims) : Bool :=
  match registry.currentRevocationEpoch claims.sub with
  | some current => current ≤ claims.revocationEpoch
  | none => false

/-- What the shared service holds: the signing library, the rate limiter and the accounts. -/
structure AuthService where
  jwt : JwtAuth
  rateLimiter : RateLimiter
  registry : AccountRegistry

namespace AuthService
variable (service : AuthService)

def check (key : RateLimitKey) (reading : Reading) : RateLimitDecision × RateLimiter :=
  service.rateLimiter.checkAndRecordStatus key reading.nowMs reading.sweptAt

/-- The admission of one request. A token that does not verify counts against its peer. -/
def admitRequest (path : String) (bearer : Option String) (peer : String) (required : Permission) (reading : Reading) :
    Admission × RateLimiter :=
  if path ∈ exemptPaths then (.exempt, service.rateLimiter)
  else
    let verified := bearer.bind fun token => (service.jwt.verifyToken reading.nowSecs token).toOption
    let key := verified.elim (.peer peer) Claims.rateLimitKey
    let (decision, limiter) := service.check key reading
    let admission :=
      if ¬ decision.allowed then .rejected .rateLimited (some decision)
      else
        match verified with
        | none => .rejected .unauthorized (some decision)
        | some claims =>
          if ¬ service.registry.honours claims then .rejected .unauthorized (some decision)
          else if ¬ claims.hasPermission required then .rejected (.forbidden required) (some decision)
          else .admitted claims decision
    (admission, limiter)

/-- What follows a redemption. A failed one counts against its peer. -/
def admitRedeemed (redeemed : Option Claims) (peer : String) (reading : Reading) : Admission × RateLimiter :=
  match redeemed with
  | none =>
    let (decision, limiter) := service.check (.peer peer) reading
    (.rejected .unauthorized (some decision), limiter)
  | some claims =>
    let (decision, limiter) := service.check claims.rateLimitKey reading
    let admission :=
      if ¬ decision.allowed then .rejected .rateLimited (some decision)
      else if claims.exp ≤ reading.nowSecs then .rejected .unauthorized (some decision)
      else if ¬ service.registry.honours claims then .rejected .unauthorized (some decision)
      else .admitted claims decision
    (admission, limiter)

/-- The handshake of a ticket. -/
def admitWsTicket (store : WsTicketStore) (ticket peer : String) (reading : Reading) :
    Admission × RateLimiter × WsTicketStore :=
  let (redeemed, store) := store.redeem ticket reading.nowSecs
  let (admission, limiter) := service.admitRedeemed redeemed peer reading
  (admission, limiter, store)

/-- The check of an open connection at every heartbeat. -/
def revalidateSession (claims : Claims) (nowSecs : Nat) : Except VenueError Unit :=
  if claims.exp ≤ nowSecs then .error .unauthorized
  else if service.registry.honours claims then .ok ()
  else .error .unauthorized

end AuthService

namespace AccountRegistry
variable {registry : AccountRegistry} {claims : Claims}

/-- A token of the first epoch is honoured as long as its account is there and has not been revoked. -/
theorem honours_iff (first : claims.revocationEpoch = 0) :
    registry.honours claims = true ↔ ∃ account, registry.account claims.sub = some account ∧ account.revocationEpoch = 0 := by
  unfold honours currentRevocationEpoch account
  cases registry.byId[claims.sub]? with
  | none => exact ⟨nofun, nofun⟩
  | some entry =>
    simp only [Option.map_some, first, Nat.le_zero, decide_eq_true_eq, Option.some.injEq, exists_eq_left']

end AccountRegistry

namespace AuthService
variable {service : AuthService} {claims : Claims} {decision : RateLimitDecision} {peer : String} {reading : Reading}

/-- Whoever is admitted behind a token holds one that verifies, is honoured and carries the permission. -/
theorem admitRequest_admitted {path : String} {bearer : Option String} {required : Permission}
    (admitted : (service.admitRequest path bearer peer required reading).1 = .admitted claims decision) :
    ∃ token, bearer = some token ∧ service.jwt.decode reading.nowSecs token = some claims ∧
      service.registry.honours claims = true ∧ claims.hasPermission required = true := by
  unfold admitRequest at admitted
  split at admitted
  · cases admitted
  dsimp only at admitted
  split at admitted
  · cases admitted
  split at admitted
  · cases admitted
  next held verified =>
  split at admitted
  · cases admitted
  next honoured =>
  split at admitted
  · cases admitted
  next permitted =>
  cases admitted
  obtain ⟨token, presented, decoded⟩ := Option.bind_eq_some_iff.1 verified
  unfold JwtAuth.verifyToken at decoded
  split at decoded
  next found =>
    obtain rfl := Option.some.inj decoded
    exact ⟨token, presented, found, not_not.1 honoured, not_not.1 permitted⟩
  · cases decoded

theorem admitRedeemed_admitted {redeemed : Option Claims}
    (admitted : (service.admitRedeemed redeemed peer reading).1 = .admitted claims decision) :
    redeemed = some claims ∧ reading.nowSecs < claims.exp ∧ service.registry.honours claims = true := by
  unfold admitRedeemed at admitted
  split at admitted
  · cases admitted
  next held =>
    dsimp only at admitted
    split at admitted
    · cases admitted
    split at admitted
    · cases admitted
    next live =>
    split at admitted
    · cases admitted
    next honoured =>
    cases admitted
    exact ⟨rfl, Nat.lt_of_not_le live, not_not.1 honoured⟩

theorem revalidateSession_ok_iff {nowSecs : Nat} : service.revalidateSession claims nowSecs = .ok () ↔
    nowSecs < claims.exp ∧ service.registry.honours claims = true := by
  unfold revalidateSession
  split
  next late => exact ⟨nofun, fun alive => absurd alive.1 (Nat.not_lt.2 late)⟩
  next early =>
    split
    next honoured => exact ⟨fun _ => ⟨Nat.lt_of_not_le early, honoured⟩, fun _ => rfl⟩
    next refused => exact ⟨nofun, fun alive => absurd alive.2 refused⟩

end AuthService

end Fauxchange.Auth
