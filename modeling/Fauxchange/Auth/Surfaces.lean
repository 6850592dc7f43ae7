import Fauxchange.Auth.Service
import Fauxchange.Fix.Logins

/-! The surfaces in front of the venue, within one lifetime of the process: the REST requests, the WebSocket handshakes and
sockets, and the FIX sessions. They share the account registry, and every task holds the claims it was admitted with. -/

namespace Fauxchange.Auth
open Exchange hiding VenueError
open Lib
open Fauxchange.Fix (Permission VenueError AppState Acceptor AcceptorAction ExchangeCall Ironfix SessionEvent)

def maxWsConnections : Nat := 1024
def wsPath : String := "/ws"
def wsTicketPath : String := "/api/v1/auth/ws-ticket"

/-- What the FIX surface reads of an account. -/
def Account.row (account : Account) : Fix.Account :=
  ⟨account.id, account.owner, account.permissions, account.revocationEpoch,
    account.credentials.fixCompIds.map fun binding => (binding.senderCompId, binding.targetCompId)⟩

def FixLoginOutcome.account? : FixLoginOutcome → Option AccountId
  | authenticated account _ => some account
  | rejected => none

/-- The venue with this registry behind its credential path. -/
def AccountRegistry.serving (registry : AccountRegistry) (salt : String) (venue : AppState) : AppState :=
  { venue with
    verifyFixPassword := fun username password => (registry.verifyFixPassword salt username password).1.account?
    account := fun id => (registry.account id).map Account.row }

/-- A dispatch finds the registry as it is. -/
def AccountRegistry.behind (registry : AccountRegistry) (salt : String) : AcceptorAction → AcceptorAction
  | .dispatch connection event venue outages room =>
    .dispatch connection event (registry.serving salt venue) outages room
  | action => action

/-- What a surface does for an account. -/
inductive Service where
  | token
  | admission (path : String)
  | handler (path : String) (required : Permission)
  | heartbeat (connection : Nat)
  | control (connection : Nat)
  | session (connection : Nat)
  | undecoded (connection : Nat)
  | order (connection : Nat)
  deriving DecidableEq, Repr

structure Served where
  account : AccountId
  service : Service
  deriving DecidableEq, Repr

/-- What the surfaces share and what each has under way: the admitted requests, the tickets on their way into the store
and out of it, and the open sockets. `issued`, `minted` and `taken` record the tokens, the tickets and their redemptions,
for the statements about runs only. -/
structure Surfaces where
  registry : AccountRegistry
  limiter : RateLimiter
  requests : List (String × Claims)
  prepared : List (String × WsTicketEntry)
  gate : Option (String × WsTicketEntry)
  tickets : WsTicketStore
  redeemed : List (Option Claims)
  sockets : Std.ExtTreeMap Nat Claims
  acceptor : Acceptor
  issued : List (String × Claims)
  minted : List (String × WsTicketEntry)
  taken : List (String × WsTicketEntry × Nat)

/-- One step of one task. A login may leave a new hash to be persisted later; a ticket is prepared, checked behind the gate
and then inserted, and its redemption is followed by the decision; the handler of a request runs after its admission. -/
inductive SurfaceAction where
  | provision (salt : String) (provision : AccountProvision)
  | insert (account : Account)
  | revoke (account : AccountId)
  | rehash (account : AccountId) (fresh : String)
  | issueToken (peer : String) (account : AccountId) (secret : String) (issuedAtSecs ttlSecs : Nat) (reading : Reading)
  | request (path : String) (bearer : Option String) (peer : String) (reading : Reading)
  | handle (path : String) (claims : Claims) (required : Permission)
  | finish (path : String) (claims : Claims)
  | prepareTicket (claims : Claims) (nowSecs : Nat) (bytes : Option (List UInt8))
  | enterGate (ticket : String) (entry : WsTicketEntry) (nowSecs : Nat)
  | leaveGate
  | redeem (ticket : String) (nowSecs : Nat)
  | handshake (redeemed : Option Claims) (peer : String) (reading : Reading)
  | openSocket (connection : Nat) (claims : Claims)
  | control (connection : Nat) (reading : Reading)
  | heartbeat (connection : Nat) (nowSecs : Nat)
  | closeSocket (connection : Nat)
  | fix (salt : String) (action : AcceptorAction)

/-- The gate of a control on an open socket: the rate limit, then the permission of the claims it was opened with. -/
def AuthService.admitControl (service : AuthService) (claims : Claims) (reading : Reading) : Except VenueError Unit × RateLimiter :=
  let (decision, limiter) := service.check claims.rateLimitKey reading
  let admission :=
    if ¬ decision.allowed then .error .rateLimited
    else if ¬ claims.hasPermission .admin then .error (.forbidden .admin)
    else .ok ()
  (admission, limiter)

/-- A session that goes on after a message or a tick has been served; an undecodable frame is only turned down. -/
def goesOn (connection : Nat) : SessionEvent → Service
  | .decodeError _ => .undecoded connection
  | _ => .session connection

/-- What a FIX dispatch does for its session's account: the session goes on, or orders reach the exchange. -/
def fixServed (acceptor next : Acceptor) : AcceptorAction → List Served
  | .dispatch connection event _ _ _ =>
    let kept := (next.sessions connection).bind fun session => session.fsm.account
    (kept.toList.map fun account => ⟨account, goesOn connection event⟩) ++
      (next.calls.drop acceptor.calls.length).filterMap fun call => call.key.map fun key => ⟨key.account, .order connection⟩
  | _ => []

namespace Surfaces

def new (hasher : Argon2Hasher) (limiter : RateLimiter) (maxTickets : Nat) (backend : Fix.Backend) (config : Fix.SessionConfig) :
    Surfaces :=
  ⟨.new hasher, limiter, [], [], none, .new maxTickets, [], ∅, .new backend config, [], [], []⟩

/-- A step that serves nobody. -/
def silent (next : Surfaces) : Option (Surfaces × List Served) := some (next, [])

variable (jwt : JwtAuth) (surfaces : Surfaces)

def service : AuthService := ⟨jwt, surfaces.limiter, surfaces.registry⟩

/-- A token that verifies has been issued: the signing key stays in the venue. -/
def known (bearer : Option String) (nowSecs : Nat) : Bool :=
  (bearer.bind fun token => (jwt.decode nowSecs token).map fun claims => (token, claims)).all (· ∈ surfaces.issued)

/-- What follows an admission: the claims stay with the task. -/
def admitting (path : String) (admission : Admission) (limiter : RateLimiter) : Option (Surfaces × List Served) :=
  match admission with
  | .admitted claims _ =>
    some ({ surfaces with limiter := limiter, requests := surfaces.requests ++ [(path, claims)] },
      [⟨claims.sub, .admission path⟩])
  | .exempt | .rejected .. => silent { surfaces with limiter := limiter }

variable [Ironfix] (U : Upstream) (gate : BootstrapGate)

/-- One step, with what it serves, if it is enabled. -/
def attempt : SurfaceAction → Option (Surfaces × List Served)
  | .provision salt provision =>
    match surfaces.registry.provisionAccount salt provision with
    | .ok registry => silent { surfaces with registry := registry }
    | .error _ => none
  | .insert account =>
    match surfaces.registry.insertAccount account with
    | .ok registry => silent { surfaces with registry := registry }
    | .error _ => none
  | .revoke account =>
    match surfaces.registry.revoke account with
    | some (_, registry) => silent { surfaces with registry := registry }
    | none => none
  | .rehash account fresh => silent { surfaces with registry := surfaces.registry.persistRehash account fresh }
  | .issueToken peer account secret issuedAtSecs ttlSecs reading =>
    let (decision, limiter) := (surfaces.service jwt).check (.peer peer) reading
    if ¬ decision.allowed then silent { surfaces with limiter := limiter }
    else
      match surfaces.registry.mintForAccount jwt gate account secret issuedAtSecs ttlSecs with
      | .ok minted => some ({ surfaces with limiter := limiter, issued := surfaces.issued ++ [minted] }, [⟨account, .token⟩])
      | .error _ => silent { surfaces with limiter := limiter }
  | .request path bearer peer reading =>
    if surfaces.known jwt bearer reading.nowSecs then
      let (admission, limiter) := (surfaces.service jwt).admitRequest path bearer peer .read reading
      surfaces.admitting path admission limiter
    else none
  | .handle path claims required =>
    if (path, claims) ∈ surfaces.requests ∧ claims.hasPermission required = true then
      some (surfaces, [⟨claims.sub, .handler path required⟩])
    else none
  | .finish path claims => silent { surfaces with requests := surfaces.requests.erase (path, claims) }
  | .prepareTicket claims nowSecs bytes =>
    if (wsTicketPath, claims) ∈ surfaces.requests then
      match WsTicketStore.prepare claims nowSecs bytes with
      | .ok minted => silent { surfaces with prepared := surfaces.prepared ++ [minted] }
      | .error _ => none
    else none
  | .enterGate ticket entry nowSecs =>
    if (ticket, entry) ∈ surfaces.prepared ∧ surfaces.gate = none then
      let (admitted, tickets) := surfaces.tickets.admits nowSecs
      silent { surfaces with
        prepared := surfaces.prepared.erase (ticket, entry)
        gate := if admitted then some (ticket, entry) else none
        tickets := tickets }
    else none
  | .leaveGate =>
    match surfaces.gate with
    | some (ticket, entry) => silent { surfaces with
        gate := none
        tickets := surfaces.tickets.insert ticket entry
        minted := surfaces.minted ++ [(ticket, entry)] }
    | none => none
  | .redeem ticket nowSecs =>
    let (redeemed, tickets) := surfaces.tickets.redeem ticket nowSecs
    silent { surfaces with
      tickets := tickets
      redeemed := surfaces.redeemed ++ [redeemed]
      taken := match surfaces.tickets.tickets[ticket]?, redeemed with
        | some entry, some _ => surfaces.taken ++ [(ticket, entry, nowSecs)]
        | _, _ => surfaces.taken }
  | .handshake redeemed peer reading =>
    if redeemed ∈ surfaces.redeemed then
      let (admission, limiter) := (surfaces.service jwt).admitRedeemed redeemed peer reading
      { surfaces with redeemed := surfaces.redeemed.erase redeemed }.admitting wsPath admission limiter
    else none
  | .openSocket connection claims =>
    if (wsPath, claims) ∈ surfaces.requests ∧ connection ∉ surfaces.sockets ∧ surfaces.sockets.size < maxWsConnections then
      silent { surfaces with
        requests := surfaces.requests.erase (wsPath, claims)
        sockets := surfaces.sockets.insert connection claims }
    else none
  | .control connection reading =>
    match surfaces.sockets[connection]? with
    | none => none
    | some claims =>
      match (surfaces.service jwt).admitControl claims reading with
      | (.ok _, limiter) => some ({ surfaces with limiter := limiter }, [⟨claims.sub, .control connection⟩])
      | (.error _, limiter) => silent { surfaces with limiter := limiter }
  | .heartbeat connection nowSecs =>
    match surfaces.sockets[connection]? with
    | none => none
    | some claims =>
      match (surfaces.service jwt).revalidateSession claims nowSecs with
      | .ok _ => some (surfaces, [⟨claims.sub, .heartbeat connection⟩])
      | .error _ => silent { surfaces with sockets := surfaces.sockets.erase connection }
  | .closeSocket connection => silent { surfaces with sockets := surfaces.sockets.erase connection }
  | .fix _ .crash => none
  | .fix salt action =>
    match surfaces.acceptor.step U (surfaces.registry.behind salt action) with
    | some next => some ({ surfaces with acceptor := next }, fixServed surfaces.acceptor next action)
    | none => none

def step (action : SurfaceAction) : Option Surfaces := (surfaces.attempt jwt U gate action).map Prod.fst

/-- Whom a step serves. -/
def serves (action : SurfaceAction) : List Served := ((surfaces.attempt jwt U gate action).map Prod.snd).getD []

end Surfaces

end Fauxchange.Auth
