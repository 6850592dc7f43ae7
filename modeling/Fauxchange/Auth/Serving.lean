import Fauxchange.Auth.Credentials
import Fauxchange.Exchange.ReferenceBook
import Fauxchange.Fix.Wire
import Fauxchange.Lib.GuardedRuns

/-! Whom the surfaces serve: accounts of the registry, with the permissions they are registered with, that have not been
revoked where the service looks at their epoch. -/

namespace Fauxchange.Auth
open Exchange hiding VenueError
open Lib
open MarketData (isMarketMakerAccount)
open Fauxchange.Fix (Permission VenueError AppState Acceptor AcceptorAction Ironfix Orderly SessionEvent VenueFixSession Seated
  Sitting Logon LoginAfter outlives)

/-- The permission that a service asks for. -/
def Service.required : Service → Option Permission
  | .admission _ | .heartbeat _ => some .read
  | .handler _ required => some required
  | .control _ => some .admin
  | .order _ => some .trade
  | .token | .session _ | .undecoded _ => none

/-- Whether a service looks at the epoch of the account; the others rest on what was admitted before. -/
def Service.checked : Service → Bool
  | .handler .. | .control _ | .undecoded _ => false
  | _ => true

namespace AccountRegistry
variable {registry next : AccountRegistry} {claims : Claims}

/-- The account of a served request is a client's, has the permission, and has not been revoked where that is checked. -/
def Serves (registry : AccountRegistry) (account : AccountId) (service : Service) : Prop :=
  ∃ row, registry.account account = some row ∧ isMarketMakerAccount account = false ∧
    (∀ required, service.required = some required → row.permissions.any (·.grants required) = true) ∧
      (service.checked = true → row.revocationEpoch = 0)

/-- A login is that of an account of the registry, at the first epoch, or nobody's. -/
def Binds (registry : AccountRegistry) (login : Fix.Login) : Prop :=
  login.account = none ∧ login.key = none ∨
    ∃ id row, registry.account id = some row ∧ login.account = some id ∧ login.permissions = row.permissions ∧
      login.sessionEpoch = 0 ∧ ∃ key, login.key = some key ∧ key.account = id

theorem Later.binds {login : Fix.Login} (later : registry.Later next) (bound : registry.Binds login) : next.Binds login := by
  refine bound.imp id ?_
  rintro ⟨id, row, held, account, permissions, epoch, key⟩
  obtain ⟨after, there, -, same, -⟩ := later id row held
  exact ⟨id, after, there, account, permissions.trans same.symm, epoch, key⟩

/-- A logon proves to speak for an account of the registry that has not been revoked. -/
theorem Sound.logsInto {salt : String} {venue : AppState} {logon : Logon} {row : Fix.Account} (sound : registry.Sound)
    (proved : (registry.serving salt venue).LogsInto logon row) :
    ∃ account, registry.account row.id = some account ∧ account.revocationEpoch = 0 ∧ row = account.row := by
  obtain ⟨id, -, found⟩ := Option.bind_eq_some_iff.1 proved.verified
  obtain ⟨account, held, rfl⟩ := Option.map_eq_some_iff.1 found
  obtain rfl : account.id = id := sound.own held
  exact ⟨account, held, proved.live, rfl⟩

theorem Vouches.live (vouched : registry.Vouches claims) (honoured : registry.honours claims = true) :
    ∃ row, registry.account claims.sub = some row ∧ row.permissions = claims.permissions ∧ row.revocationEpoch = 0 := by
  obtain ⟨first, row, held, permissions⟩ := vouched
  obtain ⟨other, found, live⟩ := (honours_iff first).1 honoured
  obtain rfl := Option.some.inj (held.symm.trans found)
  exact ⟨row, held, permissions, live⟩

theorem Sound.vouches_minted {jwt : JwtAuth} {gate : BootstrapGate} {id : AccountId} {presented token : String} {issuedAt ttl : Nat}
    (sound : registry.Sound)
    (minted : registry.mintForAccount jwt gate id presented issuedAt ttl = .ok (token, claims)) : registry.Vouches claims := by
  obtain ⟨-, -, rfl, first, -, row, held, -, permissions⟩ := mintForAccount_ok sound minted
  exact ⟨first, row, held, permissions⟩

theorem behind_dispatch {salt : String} {connection room : Nat} {event : SessionEvent} {venue : AppState}
    {outages : List (Option String)} {action : AcceptorAction}
    (same : registry.behind salt action = .dispatch connection event venue outages room) :
    ∃ found, action = .dispatch connection event found outages room ∧ venue = registry.serving salt found := by
  cases action with
  | dispatch other own found missed left =>
    cases same
    exact ⟨found, rfl, rfl⟩
  | accept => cases same
  | disconnect => cases same
  | crash => cases same

theorem binds_row {row : Account} {login : Fix.Login} (held : registry.account row.id = some row)
    (live : row.revocationEpoch = 0) (speaks : login.Of row.row) : registry.Binds login :=
  Or.inr ⟨row.id, row, held, speaks.account, speaks.permissions, speaks.sessionEpoch.trans live, speaks.key⟩

end AccountRegistry

/-- The credentials in play are those of the registry. -/
structure Credentialed (surfaces : Surfaces) : Prop where
  sound : surfaces.registry.Sound
  issued : ∀ {token claims}, (token, claims) ∈ surfaces.issued → surfaces.registry.Vouches claims
  held : ∀ {claims}, surfaces.Holds claims → surfaces.registry.Vouches claims ∧ claims.hasPermission .read = true
  orderly : Orderly surfaces.acceptor
  sessions : ∀ {connection session}, surfaces.acceptor.sessions connection = some session →
    surfaces.registry.Binds session.fsm.login

theorem credentialed_new {hasher : Argon2Hasher} {limiter : RateLimiter} {maxTickets : Nat} {backend : Fix.Backend}
    {config : Fix.SessionConfig} : Credentialed (.new hasher limiter maxTickets backend config) where
  sound := AccountRegistry.sound_new hasher
  issued := nofun
  held held := by
    cases held with
    | requested member => cases member
    | prepared member => cases member
    | gated inside => cases inside
    | stored found => simp [Surfaces.new, WsTicketStore.new] at found
    | redeemed member => cases member
    | opened found => simp [Surfaces.new] at found
  orderly := Fix.orderly_new backend config
  sessions := nofun

section Sessions
variable [Ironfix] {U : Upstream} {surfaces : Surfaces} {salt : String} {connection room : Nat} {session after : VenueFixSession}
  {event : SessionEvent} {venue : AppState} {outages : List (Option String)}

/-- A dispatch leaves a session its login, or binds it to an account that has not been revoked. -/
theorem Credentialed.login (credentialed : Credentialed surfaces) (session : VenueFixSession) (event : SessionEvent) (salt : String)
    (venue : AppState) (outages : List (Option String)) :
    (surfaces.acceptor.outcome U session event (surfaces.registry.serving salt venue) outages).2.fsm.login = session.fsm.login ∨
      ∃ row, surfaces.registry.account row.id = some row ∧ row.revocationEpoch = 0 ∧
        (surfaces.acceptor.outcome U session event (surfaces.registry.serving salt venue) outages).2.fsm.login.Of row.row := by
  rcases event.handle_after (surfaces.acceptor.load session outages) with
    same | ⟨-, same | ⟨logon, row, -, proved, speaks⟩⟩
  · exact Or.inl same
  · exact Or.inl same
  · obtain ⟨account, held, live, rfl⟩ := credentialed.sound.logsInto proved
    exact Or.inr ⟨account, held, live, speaks⟩

/-- Every session that is seated after a step of the FIX surface speaks for an account of the registry, or for nobody. -/
theorem Credentialed.seated {action : AcceptorAction} (credentialed : Credentialed surfaces)
    (seated : Seated U surfaces.acceptor connection after (surfaces.registry.behind salt action)) :
    surfaces.registry.Binds after.fsm.login := by
  generalize same : surfaces.registry.behind salt action = seen at seated
  cases seated with
  | stayed present apart => exact credentialed.sessions present
  | accepted peer nowMs fresh =>
    subst fresh
    exact Or.inl ⟨rfl, rfl⟩
  | dispatched event venue outages room session present live reached =>
    obtain ⟨found, -, rfl⟩ := AccountRegistry.behind_dispatch same
    subst reached
    rcases credentialed.login (U := U) session event salt found outages with same | ⟨row, held, live, speaks⟩
    · rw [show (VenueFixSession.fsm _).login = _ from same]
      exact credentialed.sessions present
    · exact AccountRegistry.binds_row held live speaks

end Sessions

section Steps
variable {jwt : JwtAuth} [Ironfix] {U : Upstream} {gate : BootstrapGate} {surfaces next : Surfaces} {action : SurfaceAction}
  {served : List Served}

theorem Moved.issued_cases {token : String} {claims : Claims} (moved : Moved jwt U gate surfaces action next served)
    (issued : (token, claims) ∈ next.issued) :
    (token, claims) ∈ surfaces.issued ∨ ∃ id presented issuedAt ttl,
      surfaces.registry.mintForAccount jwt gate id presented issuedAt ttl = .ok (token, claims) := by
  cases moved with
  | issued minted =>
    rcases List.mem_append.1 issued with old | new
    · exact Or.inl old
    · cases List.mem_singleton.1 new
      exact Or.inr ⟨_, _, _, _, minted⟩
  | _ => exact Or.inl issued

theorem Moved.registry (moved : Moved jwt U gate surfaces action next served) (sound : surfaces.registry.Sound) :
    next.registry.Sound ∧ surfaces.registry.Later next.registry := by
  cases moved with
  | enrolled apart kept => exact kept sound
  | _ => exact ⟨sound, .refl _⟩

theorem Credentialed.moved (credentialed : Credentialed surfaces) (moved : Moved jwt U gate surfaces action next served) :
    Credentialed next := by
  obtain ⟨sound, later⟩ := moved.registry credentialed.sound
  refine ⟨sound, fun issued => ?_, fun held => ?_, ?_, fun present => ?_⟩
  · rcases moved.issued_cases issued with old | ⟨id, presented, issuedAt, ttl, minted⟩
    · exact later.vouches (credentialed.issued old)
    · exact later.vouches (credentialed.sound.vouches_minted minted)
  · rcases moved.spread.holds held with old | ⟨⟨token, known⟩, permitted⟩
    · exact ⟨later.vouches (credentialed.held old).1, (credentialed.held old).2⟩
    · exact ⟨later.vouches (credentialed.issued known), permitted⟩
  · cases moved with
    | fixed alive taken => exact credentialed.orderly.step taken
    | _ => exact credentialed.orderly
  · refine later.binds ?_
    cases moved with
    | fixed alive taken => exact credentialed.seated (Fix.Acceptor.step_seated taken present)
    | _ => exact credentialed.sessions present

end Steps

section Serving
variable {surfaces next : Surfaces} {served : List Served} {account : AccountId} {service : Service}

/-- What a FIX dispatch serves: the session that goes on, or a command that has reached the exchange. -/
theorem fixServed_cases {acceptor after : Acceptor} {action : AcceptorAction}
    (member : ⟨account, service⟩ ∈ fixServed acceptor after action) :
    ∃ connection event venue outages room, action = .dispatch connection event venue outages room ∧
      ((∃ session, after.sessions connection = some session ∧ session.fsm.account = some account ∧
          service = goesOn connection event) ∨
        ∃ call ∈ after.calls.drop acceptor.calls.length, ∃ key, call.key = some key ∧ key.account = account ∧
          service = .order connection) := by
  cases action with
  | dispatch connection event venue outages room =>
    refine ⟨connection, event, venue, outages, room, rfl, ?_⟩
    rcases List.mem_append.1 member with kept | ordered
    · obtain ⟨own, mine, same⟩ := List.mem_map.1 kept
      cases same
      obtain ⟨session, present, bound⟩ := Option.bind_eq_some_iff.1 (Option.mem_toList.1 mine)
      exact Or.inl ⟨session, present, bound, rfl⟩
    · obtain ⟨call, fresh, made⟩ := List.mem_filterMap.1 ordered
      obtain ⟨key, keyed, same⟩ := Option.map_eq_some_iff.1 made
      cases same
      exact Or.inr ⟨call, fresh, key, keyed, rfl, rfl⟩
  | accept => cases member
  | disconnect => cases member
  | crash => cases member

/-- A session of an account that has been revoked since its logon. -/
theorem revoked_of_binds {registry : AccountRegistry} {session : VenueFixSession} {row : Account} (salt : String) (venue : AppState)
    (bound : registry.Binds session.fsm.login) (mine : session.fsm.account = some account)
    (held : registry.account account = some row) (revoked : 0 < row.revocationEpoch) :
    session.fsm.key.isSome ∧ session.revoked (registry.serving salt venue) = true := by
  rcases bound with ⟨nobody, -⟩ | ⟨id, other, found, own, -, epoch, key, keyed, -⟩
  · cases mine.symm.trans nobody
  · obtain rfl : account = id := Option.some.inj (mine.symm.trans own)
    refine ⟨by rw [show session.fsm.key = _ from keyed]; rfl, ?_⟩
    unfold VenueFixSession.revoked
    rw [mine]
    have current : (registry.serving salt venue).currentRevocationEpoch account = some row.revocationEpoch := by
      unfold AppState.currentRevocationEpoch AccountRegistry.serving
      simp only [held, Option.map_some]
      rfl
    dsimp only
    rw [current, show session.fsm.sessionEpoch = 0 from epoch]
    exact decide_eq_true revoked

theorem defers_trade {fsm : Fix.SessionFsm} {message : Fix.DecodedMessage} (defers : Fix.Defers fsm message) :
    fsm.permissions.any (·.grants .trade) = true := by
  obtain ⟨mutation, permitted, -⟩ := defers
  have trade : Fix.requiredPermission message = some .trade := by
    revert mutation
    cases message <;> simp [Fix.isOrderEntryMutation, Fix.requiredPermission]
  rw [trade] at permitted
  exact permitted

theorem Credentialed.claims_serve {claims : Claims} (credentialed : Credentialed surfaces)
    (vouched : surfaces.registry.Vouches claims)
    (permitted : ∀ required, service.required = some required → claims.hasPermission required = true)
    (live : service.checked = true → surfaces.registry.honours claims = true) : surfaces.registry.Serves claims.sub service := by
  obtain ⟨first, row, held, permissions⟩ := vouched
  refine ⟨row, held, (credentialed.sound.reserved held).1, fun required asked => ?_, fun checked => ?_⟩
  · rw [permissions]
    exact permitted required asked
  · obtain ⟨other, found, -, epoch⟩ := AccountRegistry.Vouches.live ⟨first, row, held, permissions⟩ (live checked)
    obtain rfl := Option.some.inj (held.symm.trans found)
    exact epoch

variable {jwt : JwtAuth} [Ironfix] {U : Upstream} {gate : BootstrapGate}

/-- The FIX surface serves registered accounts. -/
theorem Credentialed.fix_serves {salt : String} {action : AcceptorAction} {acceptor : Acceptor}
    (credentialed : Credentialed surfaces) (taken : surfaces.acceptor.step U (surfaces.registry.behind salt action) = some acceptor)
    (member : ⟨account, service⟩ ∈ fixServed surfaces.acceptor acceptor action) : surfaces.registry.Serves account service := by
  obtain ⟨connection, event, venue, outages, room, rfl, kept | ordered⟩ := fixServed_cases member
  · obtain ⟨after, present, mine, rfl⟩ := kept
    have unasked : ∀ required, (goesOn connection event).required = some required → False := by
      intro required asked
      cases event <;> cases asked
    cases Fix.Acceptor.step_seated taken present with
    | stayed before apart => exact absurd rfl (apart _ _ _ _)
    | dispatched event venue outages room session before live same =>
      subst same
      have sitting := credentialed.orderly.sitting before
      rcases credentialed.login (U := U) session event salt venue outages with same | ⟨row, held, live, speaks⟩
      · have own : session.fsm.account = some account := (congrArg Fix.Login.account same).symm.trans mine
        rcases credentialed.sessions before with ⟨nobody, -⟩ | ⟨id, row, held, bound, -⟩
        · cases own.symm.trans nobody
        · obtain rfl : account = id := Option.some.inj (own.symm.trans bound)
          refine ⟨row, held, (credentialed.sound.reserved held).1, fun required asked => (unasked required asked).elim, fun checked => ?_⟩
          by_contra revoked
          obtain ⟨keyed, ended⟩ := revoked_of_binds salt venue (credentialed.sessions before) own held (Nat.pos_of_ne_zero revoked)
          have gone := sitting.revoked_ends (U := U) room event outages keyed ended fun error same => by
            subst same
            cases checked
          cases gone.symm.trans live
      · obtain rfl : account = row.id := Option.some.inj (mine.symm.trans speaks.account)
        exact ⟨row, held, (credentialed.sound.reserved held).1, fun required asked => (unasked required asked).elim, fun _ => live⟩
  · obtain ⟨call, fresh, key, keyed, rfl, rfl⟩ := ordered
    simp only [Fix.Acceptor.step, AccountRegistry.behind] at taken
    split at taken
    next session before =>
      cases taken
      have sitting := credentialed.orderly.sitting before
      change call ∈ (surfaces.acceptor.outcome U session event (surfaces.registry.serving salt venue) outages).2.calls.drop _ at fresh
      rcases sitting.called (U := U) (surfaces.registry.serving salt venue) event outages with
        same | ⟨made, calls, mine, bound, message, asked, defers⟩
      · rw [same, List.drop_length] at fresh
        cases fresh
      · rw [calls, List.drop_left] at fresh
        obtain rfl := List.mem_singleton.1 fresh
        rcases credentialed.sessions before with ⟨-, unbound⟩ | ⟨id, row, held, own, permissions, -, other, known, same⟩
        · rw [show session.fsm.key = _ from unbound] at bound
          cases bound
        · obtain rfl : key = other := Option.some.inj (keyed.symm.trans (mine.trans known))
          subst same
          refine ⟨row, held, (credentialed.sound.reserved held).1, fun required asked => ?_, fun _ => ?_⟩
          · cases asked
            rw [← permissions]
            exact defers_trade defers
          · by_contra revoked
            obtain ⟨-, ended⟩ := revoked_of_binds salt venue (credentialed.sessions before) own held (Nat.pos_of_ne_zero revoked)
            have kept := sitting.revoked_called (U := U) event outages bound ended
            have grown := congrArg List.length (calls.symm.trans kept)
            simp at grown
    · cases taken

/-- Whoever is served is an account of the registry, with the permission that the service asks for. -/
theorem Moved.serves {action : SurfaceAction} (moved : Moved jwt U gate surfaces action next served) (credentialed : Credentialed surfaces)
    (member : ⟨account, service⟩ ∈ served) : surfaces.registry.Serves account service := by
  cases moved with
  | issued minted =>
    cases List.mem_singleton.1 member
    obtain ⟨-, -, rfl, -, -, row, held, live, -⟩ := AccountRegistry.mintForAccount_ok credentialed.sound minted
    exact ⟨row, held, (credentialed.sound.reserved held).1, nofun, fun _ => live⟩
  | admitted known verified honoured permitted =>
    cases List.mem_singleton.1 member
    exact credentialed.claims_serve (credentialed.issued known) (fun required asked => by cases asked; exact permitted) fun _ => honoured
  | handled held permitted =>
    cases List.mem_singleton.1 member
    exact credentialed.claims_serve (credentialed.held (.requested held)).1 (fun required asked => by cases asked; exact permitted) nofun
  | joined held early honoured =>
    cases List.mem_singleton.1 member
    obtain ⟨vouched, reads⟩ := credentialed.held (.redeemed held)
    exact credentialed.claims_serve vouched (fun required asked => by cases asked; exact reads) fun _ => honoured
  | controlled found permitted =>
    cases List.mem_singleton.1 member
    exact credentialed.claims_serve (credentialed.held (.opened found)).1 (fun required asked => by cases asked; exact permitted) nofun
  | beaten found early honoured =>
    cases List.mem_singleton.1 member
    obtain ⟨vouched, reads⟩ := credentialed.held (.opened found)
    exact credentialed.claims_serve vouched (fun required asked => by cases asked; exact reads) fun _ => honoured
  | fixed alive taken => exact credentialed.fix_serves taken member
  | _ => cases member

end Serving

section Runs
variable {jwt : JwtAuth} [Ironfix] {U : Upstream} {gate : BootstrapGate} {start surfaces : Surfaces} {actions : List SurfaceAction}

theorem step_moved {action : SurfaceAction} {next : Surfaces} (taken : surfaces.step jwt U gate action = some next) :
    ∃ served, Moved jwt U gate surfaces action next served := by
  obtain ⟨⟨after, served⟩, done, rfl⟩ := Option.map_eq_some_iff.1 taken
  exact ⟨served, attempt_cases done⟩

theorem serves_moved {action : SurfaceAction} {served : Served} (member : served ∈ surfaces.serves jwt U gate action) :
    ∃ next all, Moved jwt U gate surfaces action next all ∧ served ∈ all := by
  unfold Surfaces.serves at member
  cases done : surfaces.attempt jwt U gate action with
  | none =>
    rw [done] at member
    cases member
  | some outcome =>
    obtain ⟨next, all⟩ := outcome
    rw [done] at member
    exact ⟨next, all, attempt_cases done, member⟩

theorem Credentialed.run (credentialed : Credentialed start)
    (run : runFrom (Surfaces.step jwt · U gate) start actions = some surfaces) : Credentialed surfaces :=
  runFrom_preserved (fun _ _ _ holds taken => holds.moved (step_moved taken).choose_spec) credentialed run

/-- Whomever a surface serves, in whatever order of steps: it is an account of the registry other than the market maker's, with
the permission that is asked for among its registered ones, and where the service looks at the epoch it has not been revoked. -/
theorem served_registered {hasher : Argon2Hasher} {limiter : RateLimiter} {maxTickets : Nat} {backend : Fix.Backend}
    {config : Fix.SessionConfig} {action : SurfaceAction} {account : AccountId} {service : Service}
    (run : runFrom (Surfaces.step jwt · U gate) (.new hasher limiter maxTickets backend config) actions = some surfaces)
    (served : ⟨account, service⟩ ∈ surfaces.serves jwt U gate action) : surfaces.registry.Serves account service := by
  obtain ⟨next, all, moved, member⟩ := serves_moved served
  exact moved.serves (credentialed_new.run run) member

end Runs

/-! An operator who opens a socket and is then revoked. -/

def listedJwt : JwtAuth where
  encode claims := some claims.sub
  decode nowSecs token := if nowSecs < 900 then some ⟨token, [.admin], 0, 900, 0⟩ else none

def operator : Account := ⟨"operator", 1, [.admin], ⟨none, none, none⟩, 0⟩

def emptySurfaces : Surfaces :=
  .new ⟨⟨fun _ => true, fun _ => none, fun _ _ => some true, fun _ _ => none⟩, 0, 0, 0⟩
    (.withBudgetsAndCapacity ⟨1000, 10, 10, 10⟩ 10) 4 .inMemory ⟨10, 10⟩

def operatorStep (surfaces : Surfaces) (action : SurfaceAction) : Option Surfaces :=
  @Surfaces.step listedJwt surfaces Fix.referenceWire referenceUpstream ⟨some "secret"⟩ action

def operatorActions : List SurfaceAction :=
  [.insert operator, .issueToken "peer" "operator" "secret" 0 900 ⟨0, 0, 0⟩, .request wsPath (some "operator") "peer" ⟨1, 1, 1⟩,
    .openSocket 7 ⟨"operator", [.admin], 0, 900, 0⟩, .revoke "operator"]

def operatorRevoked : Surfaces := (runFrom operatorStep emptySurfaces operatorActions).getD emptySurfaces

theorem operatorRevoked_run : runFrom operatorStep emptySurfaces operatorActions = some operatorRevoked := by
  have finished : (runFrom operatorStep emptySurfaces operatorActions).isSome = true := by decide +kernel
  rw [operatorRevoked, ← Option.get_eq_getD _ (h := finished), Option.some_get]

theorem operatorRevoked_control : ⟨"operator", .control 7⟩ ∈
    @Surfaces.serves listedJwt operatorRevoked Fix.referenceWire referenceUpstream ⟨some "secret"⟩ (.control 7 ⟨2, 2, 2⟩) := by
  decide +kernel

theorem operator_registered : operatorRevoked.registry.Serves "operator" (.control 7) :=
  @served_registered listedJwt Fix.referenceWire referenceUpstream _ _ _ _ _ _ _ _ _ _ _ operatorRevoked_run operatorRevoked_control

end Fauxchange.Auth
