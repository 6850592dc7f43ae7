import Fauxchange.Auth.Surfaces

/-! What one step of the surfaces does, and where the claims that a task holds come from: every one of them was minted for
an account of the registry, with the permissions it is registered with. -/

namespace Fauxchange.Auth
open Exchange hiding VenueError
open Lib
open Fauxchange.Fix (Permission VenueError AppState Acceptor AcceptorAction Ironfix Orderly)

/-- Claims at the first epoch, with the permissions that the registry has for their account. -/
def AccountRegistry.Vouches (registry : AccountRegistry) (claims : Claims) : Prop :=
  claims.revocationEpoch = 0 ∧
    ∃ account, registry.account claims.sub = some account ∧ account.permissions = claims.permissions

theorem AccountRegistry.Later.vouches {registry next : AccountRegistry} {claims : Claims} (later : registry.Later next)
    (vouched : registry.Vouches claims) : next.Vouches claims := by
  obtain ⟨first, account, held, permissions⟩ := vouched
  obtain ⟨after, there, -, same, -⟩ := later claims.sub account held
  exact ⟨first, after, there, same.trans permissions⟩

/-- The claims that a task was admitted with, or that are on their way to a handshake. -/
inductive Surfaces.Holds (surfaces : Surfaces) (claims : Claims) : Prop where
  | requested {path : String} (member : (path, claims) ∈ surfaces.requests)
  | prepared {ticket : String} {entry : WsTicketEntry} (member : (ticket, entry) ∈ surfaces.prepared) (same : entry.claims = claims)
  | gated {ticket : String} {entry : WsTicketEntry} (inside : surfaces.gate = some (ticket, entry)) (same : entry.claims = claims)
  | stored {ticket : String} {entry : WsTicketEntry} (found : surfaces.tickets.tickets[ticket]? = some entry)
      (same : entry.claims = claims)
  | redeemed (member : some claims ∈ surfaces.redeemed)
  | opened {connection : Nat} (found : surfaces.sockets[connection]? = some claims)

theorem known_mem {jwt : JwtAuth} {surfaces : Surfaces} {token : String} {claims : Claims} {nowSecs : Nat} (known : surfaces.known jwt (some token) nowSecs = true)
    (verified : jwt.decode nowSecs token = some claims) : (token, claims) ∈ surfaces.issued := by
  unfold Surfaces.known at known
  simpa [verified] using known

theorem prepare_ok {claims : Claims} {nowSecs : Nat} {bytes : Option (List UInt8)} {minted : String × WsTicketEntry}
    (made : WsTicketStore.prepare claims nowSecs bytes = .ok minted) : minted.2 = ⟨claims, nowSecs + wsTicketTtlSecs⟩ := by
  unfold WsTicketStore.prepare at made
  split at made
  · cases made
  · obtain ⟨ticket, -, made⟩ := except_bind_ok made
    cases made
    rfl

theorem admitControl_ok {service : AuthService} {claims : Claims} {reading : Reading} {cleared : Unit} {limiter : RateLimiter}
    (passed : service.admitControl claims reading = (.ok cleared, limiter)) : claims.hasPermission .admin = true := by
  unfold AuthService.admitControl at passed
  have gated := congrArg Prod.fst passed
  dsimp only at gated
  split at gated
  · cases gated
  split at gated
  · cases gated
  next permitted => exact not_not.1 permitted

/-- Whether an action neither comes to a heartbeat nor reaches a FIX session. -/
def SurfaceAction.apart : SurfaceAction → Bool
  | .heartbeat .. | .fix .. => false
  | _ => true

section Steps
variable (jwt : JwtAuth) [Ironfix] (U : Upstream) (gate : BootstrapGate)

/-- What one step does, with whom it serves. -/
inductive Moved (surfaces : Surfaces) : SurfaceAction → Surfaces → List Served → Prop where
  | enrolled {action : SurfaceAction} {registry : AccountRegistry} (apart : action.apart = true)
      (kept : surfaces.registry.Sound → registry.Sound ∧ surfaces.registry.Later registry) :
      Moved surfaces action { surfaces with registry := registry } []
  | limited {action : SurfaceAction} {limiter : RateLimiter} (apart : action.apart = true) :
      Moved surfaces action { surfaces with limiter := limiter } []
  | issued {peer secret token : String} {account : AccountId} {issuedAtSecs ttlSecs : Nat} {reading : Reading} {limiter : RateLimiter}
      {claims : Claims}
      (minted : surfaces.registry.mintForAccount jwt gate account secret issuedAtSecs ttlSecs = .ok (token, claims)) :
      Moved surfaces (.issueToken peer account secret issuedAtSecs ttlSecs reading)
        { surfaces with limiter := limiter, issued := surfaces.issued ++ [(token, claims)] } [⟨account, .token⟩]
  | admitted {path token peer : String} {claims : Claims} {reading : Reading} {limiter : RateLimiter}
      (known : (token, claims) ∈ surfaces.issued) (verified : jwt.decode reading.nowSecs token = some claims)
      (honoured : surfaces.registry.honours claims = true) (permitted : claims.hasPermission .read = true) :
      Moved surfaces (.request path (some token) peer reading)
        { surfaces with limiter := limiter, requests := surfaces.requests ++ [(path, claims)] } [⟨claims.sub, .admission path⟩]
  | handled {path : String} {claims : Claims} {required : Permission} (member : (path, claims) ∈ surfaces.requests)
      (permitted : claims.hasPermission required = true) :
      Moved surfaces (.handle path claims required) surfaces [⟨claims.sub, .handler path required⟩]
  | finished {path : String} {claims : Claims} :
      Moved surfaces (.finish path claims) { surfaces with requests := surfaces.requests.erase (path, claims) } []
  | prepared {claims : Claims} {nowSecs : Nat} {bytes : Option (List UInt8)} {ticket : String}
      (member : (wsTicketPath, claims) ∈ surfaces.requests) :
      Moved surfaces (.prepareTicket claims nowSecs bytes)
        { surfaces with prepared := surfaces.prepared ++ [(ticket, ⟨claims, nowSecs + wsTicketTtlSecs⟩)] } []
  | gated {ticket : String} {entry : WsTicketEntry} {nowSecs : Nat} (member : (ticket, entry) ∈ surfaces.prepared)
      (free : surfaces.gate = none) :
      Moved surfaces (.enterGate ticket entry nowSecs)
        { surfaces with
          prepared := surfaces.prepared.erase (ticket, entry)
          gate := if (surfaces.tickets.admits nowSecs).1 then some (ticket, entry) else none
          tickets := surfaces.tickets.sweepExpired nowSecs } []
  | inserted {ticket : String} {entry : WsTicketEntry} (inside : surfaces.gate = some (ticket, entry)) :
      Moved surfaces .leaveGate
        { surfaces with
          gate := none
          tickets := surfaces.tickets.insert ticket entry
          minted := surfaces.minted ++ [(ticket, entry)] } []
  | missed {ticket : String} {nowSecs : Nat} {tickets : WsTicketStore}
      (kept : tickets = surfaces.tickets ∨ tickets = { surfaces.tickets with tickets := surfaces.tickets.tickets.erase ticket }) :
      Moved surfaces (.redeem ticket nowSecs)
        { surfaces with tickets := tickets, redeemed := surfaces.redeemed ++ [none] } []
  | redeemed {ticket : String} {nowSecs : Nat} {entry : WsTicketEntry} (found : surfaces.tickets.tickets[ticket]? = some entry)
      (early : nowSecs < entry.expiresAtSecs) :
      Moved surfaces (.redeem ticket nowSecs)
        { surfaces with
          tickets := { surfaces.tickets with tickets := surfaces.tickets.tickets.erase ticket }
          redeemed := surfaces.redeemed ++ [some entry.claims]
          taken := surfaces.taken ++ [(ticket, entry, nowSecs)] } []
  | joined {claims : Claims} {peer : String} {reading : Reading} {limiter : RateLimiter} (member : some claims ∈ surfaces.redeemed)
      (early : reading.nowSecs < claims.exp) (honoured : surfaces.registry.honours claims = true) :
      Moved surfaces (.handshake (some claims) peer reading)
        { surfaces with
          limiter := limiter
          redeemed := surfaces.redeemed.erase (some claims)
          requests := surfaces.requests ++ [(wsPath, claims)] } [⟨claims.sub, .admission wsPath⟩]
  | turnedAway {redeemed : Option Claims} {peer : String} {reading : Reading} {limiter : RateLimiter} :
      Moved surfaces (.handshake redeemed peer reading)
        { surfaces with limiter := limiter, redeemed := surfaces.redeemed.erase redeemed } []
  | opened {connection : Nat} {claims : Claims} (member : (wsPath, claims) ∈ surfaces.requests) (free : connection ∉ surfaces.sockets)
      (room : surfaces.sockets.size < maxWsConnections) :
      Moved surfaces (.openSocket connection claims)
        { surfaces with
          requests := surfaces.requests.erase (wsPath, claims)
          sockets := surfaces.sockets.insert connection claims } []
  | controlled {connection : Nat} {claims : Claims} {reading : Reading} {limiter : RateLimiter}
      (found : surfaces.sockets[connection]? = some claims) (permitted : claims.hasPermission .admin = true) :
      Moved surfaces (.control connection reading) { surfaces with limiter := limiter } [⟨claims.sub, .control connection⟩]
  | beaten {connection : Nat} {claims : Claims} {nowSecs : Nat} (found : surfaces.sockets[connection]? = some claims)
      (early : nowSecs < claims.exp) (honoured : surfaces.registry.honours claims = true) :
      Moved surfaces (.heartbeat connection nowSecs) surfaces [⟨claims.sub, .heartbeat connection⟩]
  | closed {action : SurfaceAction} {connection : Nat}
      (asked : action = .closeSocket connection ∨ ∃ nowSecs, action = .heartbeat connection nowSecs) :
      Moved surfaces action { surfaces with sockets := surfaces.sockets.erase connection } []
  | fixed {salt : String} {action : AcceptorAction} {acceptor : Acceptor} (alive : action ≠ .crash)
      (taken : surfaces.acceptor.step U (surfaces.registry.behind salt action) = some acceptor) :
      Moved surfaces (.fix salt action) { surfaces with acceptor := acceptor } (fixServed surfaces.acceptor acceptor action)

variable {jwt U gate} {surfaces next : Surfaces} {action : SurfaceAction} {served : List Served}

/-- One step, by cases. -/
theorem attempt_cases (taken : surfaces.attempt jwt U gate action = some (next, served)) : Moved jwt U gate surfaces action next served := by
  cases action with
  | provision salt provision =>
    simp only [Surfaces.attempt] at taken
    split at taken
    next registry done =>
      cases taken
      obtain ⟨account, -, inserted⟩ := AccountRegistry.provisionAccount_ok done
      exact .enrolled rfl fun sound => ⟨inserted.sound sound, inserted.later⟩
    · cases taken
  | insert account =>
    simp only [Surfaces.attempt] at taken
    split at taken
    next registry done =>
      cases taken
      have inserted := AccountRegistry.insertAccount_ok done
      exact .enrolled rfl fun sound => ⟨inserted.sound sound, inserted.later⟩
    · cases taken
  | revoke account =>
    simp only [Surfaces.attempt] at taken
    split at taken
    next epoch registry done =>
      cases taken
      refine .enrolled rfl fun sound => ?_
      obtain ⟨entry, after, -, -, -, rewritten⟩ := AccountRegistry.revoke_some sound done
      exact ⟨rewritten.sound sound, rewritten.later⟩
    · cases taken
  | rehash account fresh =>
    cases taken
    refine .enrolled rfl fun sound => ?_
    rcases AccountRegistry.persistRehash_cases account fresh sound with same | ⟨entry, after, rewritten⟩
    · rw [same]
      exact ⟨sound, .refl _⟩
    · exact ⟨rewritten.sound sound, rewritten.later⟩
  | issueToken peer account secret issuedAtSecs ttlSecs reading =>
    simp only [Surfaces.attempt] at taken
    split at taken
    · cases taken
      exact .limited rfl
    split at taken
    next minted done =>
      cases taken
      exact .issued done
    · cases taken
      exact .limited rfl
  | request path bearer peer reading =>
    simp only [Surfaces.attempt] at taken
    split at taken
    next known =>
      unfold Surfaces.admitting at taken
      split at taken
      next claims decision admitted =>
        cases taken
        obtain ⟨token, rfl, verified, honoured, permitted⟩ := AuthService.admitRequest_admitted admitted
        exact .admitted (known_mem known verified) verified honoured permitted
      all_goals
        cases taken
        exact .limited rfl
    · cases taken
  | handle path claims required =>
    simp only [Surfaces.attempt] at taken
    split at taken
    next allowed =>
      cases taken
      exact .handled allowed.1 allowed.2
    · cases taken
  | finish path claims =>
    cases taken
    exact .finished
  | prepareTicket claims nowSecs bytes =>
    simp only [Surfaces.attempt] at taken
    split at taken
    next member =>
      split at taken
      next minted made =>
        cases taken
        obtain ⟨ticket, entry⟩ := minted
        obtain rfl := prepare_ok made
        exact .prepared member
      · cases taken
    · cases taken
  | enterGate ticket entry nowSecs =>
    simp only [Surfaces.attempt] at taken
    split at taken
    next allowed =>
      cases taken
      exact .gated allowed.1 allowed.2
    · cases taken
  | leaveGate =>
    simp only [Surfaces.attempt] at taken
    split at taken
    next ticket entry inside =>
      cases taken
      exact .inserted inside
    · cases taken
  | redeem ticket nowSecs =>
    simp only [Surfaces.attempt, WsTicketStore.redeem] at taken
    cases found : surfaces.tickets.tickets[ticket]? with
    | none =>
      simp only [found] at taken
      cases taken
      exact .missed (Or.inl rfl)
    | some entry =>
      simp only [found] at taken
      split at taken
      next early =>
        cases taken
        exact .redeemed found early
      next late =>
        cases taken
        exact .missed (Or.inr rfl)
  | handshake redeemed peer reading =>
    simp only [Surfaces.attempt] at taken
    split at taken
    next member =>
      unfold Surfaces.admitting at taken
      split at taken
      next claims decision admitted =>
        cases taken
        obtain ⟨rfl, early, honoured⟩ := AuthService.admitRedeemed_admitted admitted
        exact .joined member early honoured
      all_goals
        cases taken
        exact .turnedAway
    · cases taken
  | openSocket connection claims =>
    simp only [Surfaces.attempt] at taken
    split at taken
    next allowed =>
      cases taken
      exact .opened allowed.1 allowed.2.1 allowed.2.2
    · cases taken
  | control connection reading =>
    simp only [Surfaces.attempt] at taken
    split at taken
    · cases taken
    next claims found =>
    split at taken
    next passed =>
      cases taken
      exact .controlled found (admitControl_ok passed)
    · cases taken
      exact .limited rfl
  | heartbeat connection nowSecs =>
    simp only [Surfaces.attempt] at taken
    split at taken
    · cases taken
    next claims found =>
    split at taken
    next passed =>
      cases taken
      obtain ⟨early, honoured⟩ := AuthService.revalidateSession_ok_iff.1 passed
      exact .beaten found early honoured
    · cases taken
      exact .closed (Or.inr ⟨_, rfl⟩)
  | closeSocket connection =>
    cases taken
    exact .closed (Or.inl rfl)
  | fix salt action =>
    cases action with
    | crash => cases taken
    | _ =>
      simp only [Surfaces.attempt] at taken
      split at taken
      next acceptor stepped =>
        cases taken
        exact .fixed AcceptorAction.noConfusion stepped
      · cases taken

end Steps

section Reads
variable {K V : Type} [Ord K] [Std.TransOrd K] [Std.LawfulEqOrd K] {map : Std.ExtTreeMap K V} {key other : K} {value found : V}

theorem of_getElem?_insert (read : (map.insert key value)[other]? = some found) :
    other = key ∧ found = value ∨ other ≠ key ∧ map[other]? = some found := by
  rw [Std.ExtTreeMap.getElem?_insert] at read
  split at read
  next same => exact Or.inl ⟨(Std.LawfulEqCmp.eq_of_compare same).symm, (Option.some.inj read).symm⟩
  next apart => exact Or.inr ⟨fun same => apart (same ▸ Std.ReflCmp.compare_self), read⟩

theorem of_getElem?_erase (read : (map.erase key)[other]? = some found) : other ≠ key ∧ map[other]? = some found := by
  rw [Std.ExtTreeMap.getElem?_erase] at read
  split at read
  next => cases read
  next apart => exact ⟨fun same => apart (same ▸ Std.ReflCmp.compare_self), read⟩

end Reads

theorem of_getElem?_sweepExpired {store : WsTicketStore} {nowSecs : Nat} {ticket : String} {entry : WsTicketEntry}
    (found : (store.sweepExpired nowSecs).tickets[ticket]? = some entry) :
    store.tickets[ticket]? = some entry ∧ nowSecs < entry.expiresAtSecs := by
  unfold WsTicketStore.sweepExpired at found
  rw [Std.ExtTreeMap.getElem?_filter', Option.filter_eq_some_iff, decide_eq_true_eq] at found
  exact found

/-- Whatever claims some task holds afterwards, some task held before, or they have been added. -/
structure Spread (added : Claims → Prop) (surfaces next : Surfaces) : Prop where
  requests : ∀ {path : String} {claims : Claims}, (path, claims) ∈ next.requests → surfaces.Holds claims ∨ added claims :=
    by exact fun member => Or.inl (.requested member)
  prepared : ∀ {ticket : String} {entry : WsTicketEntry}, (ticket, entry) ∈ next.prepared → surfaces.Holds entry.claims ∨ added entry.claims :=
    by exact fun member => Or.inl (.prepared member rfl)
  gate : ∀ {ticket : String} {entry : WsTicketEntry}, next.gate = some (ticket, entry) → surfaces.Holds entry.claims ∨ added entry.claims :=
    by exact fun inside => Or.inl (.gated inside rfl)
  tickets : ∀ {ticket : String} {entry : WsTicketEntry}, next.tickets.tickets[ticket]? = some entry → surfaces.Holds entry.claims ∨ added entry.claims :=
    by exact fun found => Or.inl (.stored found rfl)
  redeemed : ∀ {claims : Claims}, some claims ∈ next.redeemed → surfaces.Holds claims ∨ added claims :=
    by exact fun member => Or.inl (.redeemed member)
  sockets : ∀ {connection : Nat} {claims : Claims}, next.sockets[connection]? = some claims → surfaces.Holds claims ∨ added claims :=
    by exact fun found => Or.inl (.opened found)

theorem Spread.holds {added : Claims → Prop} {surfaces next : Surfaces} {claims : Claims} (spread : Spread added surfaces next)
    (held : next.Holds claims) : surfaces.Holds claims ∨ added claims := by
  cases held with
  | requested member => exact spread.requests member
  | prepared member same => exact same ▸ spread.prepared member
  | gated inside same => exact same ▸ spread.gate inside
  | stored found same => exact same ▸ spread.tickets found
  | redeemed member => exact spread.redeemed member
  | opened found => exact spread.sockets found

section Flow
variable {jwt : JwtAuth} [Ironfix] {U : Upstream} {gate : BootstrapGate} {surfaces next : Surfaces} {action : SurfaceAction}
  {served : List Served}

/-- A step gives no task claims that no task held, unless a token that has been issued carries them. -/
theorem Moved.spread (moved : Moved jwt U gate surfaces action next served) :
    Spread (fun claims => (∃ token, (token, claims) ∈ surfaces.issued) ∧ claims.hasPermission .read = true) surfaces next := by
  cases moved with
  | enrolled apart kept => exact {}
  | limited apart => exact {}
  | issued minted => exact {}
  | @admitted path token peer claims reading limiter known verified honoured permitted =>
    exact {
      requests := fun member => by
        rcases List.mem_append.1 member with old | new
        · exact Or.inl (.requested old)
        · cases List.mem_singleton.1 new
          exact Or.inr ⟨⟨token, known⟩, permitted⟩ }
  | handled member permitted => exact {}
  | finished => exact { requests := fun member => Or.inl (.requested (List.mem_of_mem_erase member)) }
  | prepared member =>
    exact {
      prepared := fun made => by
        rcases List.mem_append.1 made with old | new
        · exact Or.inl (.prepared old rfl)
        · cases List.mem_singleton.1 new
          exact Or.inl (.requested member) }
  | gated member free =>
    exact {
      prepared := fun left => Or.inl (.prepared (List.mem_of_mem_erase left) rfl)
      gate := fun inside => by
        split at inside
        · cases inside
          exact Or.inl (.prepared member rfl)
        · cases inside
      tickets := fun found => Or.inl (.stored (of_getElem?_sweepExpired found).1 rfl) }
  | inserted inside =>
    exact {
      gate := nofun
      tickets := fun found => by
        rcases of_getElem?_insert found with ⟨-, rfl⟩ | ⟨-, old⟩
        · exact Or.inl (.gated inside rfl)
        · exact Or.inl (.stored old rfl) }
  | missed kept =>
    exact {
      tickets := fun found => by
        rcases kept with rfl | rfl
        · exact Or.inl (.stored found rfl)
        · exact Or.inl (.stored (of_getElem?_erase found).2 rfl)
      redeemed := fun member => Or.inl (.redeemed (by simpa using member)) }
  | redeemed found early =>
    exact {
      tickets := fun left => Or.inl (.stored (of_getElem?_erase left).2 rfl)
      redeemed := fun member => by
        rcases List.mem_append.1 member with old | new
        · exact Or.inl (.redeemed old)
        · cases List.mem_singleton.1 new
          exact Or.inl (.stored found rfl) }
  | joined member early honoured =>
    exact {
      requests := fun held => by
        rcases List.mem_append.1 held with old | new
        · exact Or.inl (.requested old)
        · cases List.mem_singleton.1 new
          exact Or.inl (.redeemed member)
      redeemed := fun left => Or.inl (.redeemed (List.mem_of_mem_erase left)) }
  | turnedAway => exact { redeemed := fun left => Or.inl (.redeemed (List.mem_of_mem_erase left)) }
  | opened member free room =>
    exact {
      requests := fun left => Or.inl (.requested (List.mem_of_mem_erase left))
      sockets := fun found => by
        rcases of_getElem?_insert found with ⟨-, rfl⟩ | ⟨-, old⟩
        · exact Or.inl (.requested member)
        · exact Or.inl (.opened old) }
  | controlled found permitted => exact {}
  | beaten found early honoured => exact {}
  | closed asked => exact { sockets := fun left => Or.inl (.opened (of_getElem?_erase left).2) }
  | fixed alive taken => exact {}

end Flow

end Fauxchange.Auth
