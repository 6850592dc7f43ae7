import Fauxchange.Auth.Serving

/-! What a revoked account is still served: the requests it was admitted to before, the sockets that were open or admitted
before and have not come to a heartbeat, and FIX sessions that have heard nothing since. -/

namespace Fauxchange.Auth
open Exchange hiding VenueError
open Lib
open Fauxchange.Fix (Permission AcceptorAction Ironfix VenueFixSession Seated)

/-- Whether an action brings a message or a tick to the FIX session of a connection. -/
def SurfaceAction.hears (connection : Nat) : SurfaceAction → Bool
  | .fix _ (.dispatch _ (.decodeError _) _ _ _) => false
  | .fix _ (.dispatch other _ _ _ _) => other = connection
  | _ => false

/-- An account has been revoked. -/
def Surfaces.Revoked (surfaces : Surfaces) (account : AccountId) : Prop :=
  ∃ row, surfaces.registry.account account = some row ∧ 0 < row.revocationEpoch

/-- A socket that has not come to a heartbeat since it was there at the start, or since a handshake that was admitted by then
opened it. -/
def Lingers (start : Surfaces) (actions : List SurfaceAction) (connection : Nat) (claims : Claims) : Prop :=
  ∃ before since, actions = before ++ since ∧ (∀ nowSecs, .heartbeat connection nowSecs ∉ since) ∧
    (before = [] ∧ start.sockets[connection]? = some claims ∨
      before.getLast? = some (.openSocket connection claims) ∧ (wsPath, claims) ∈ start.requests)

/-- What an account that has been revoked at the start can still be served. -/
inductive LeftOver (account : AccountId) (start : Surfaces) (actions : List SurfaceAction) : Service → Prop where
  | handler {path : String} {required : Permission} {claims : Claims} (mine : claims.sub = account)
      (admitted : (path, claims) ∈ start.requests) : LeftOver account start actions (.handler path required)
  | control {connection : Nat} {claims : Claims} (mine : claims.sub = account)
      (lingers : Lingers start actions connection claims) : LeftOver account start actions (.control connection)
  | undecoded {connection : Nat} {session : VenueFixSession} (present : start.acceptor.sessions connection = some session)
      (mine : session.fsm.account = some account) (silent : ∀ action ∈ actions, action.hears connection = false) :
      LeftOver account start actions (.undecoded connection)

/-- What an account that has been revoked at the start still has: requests, sockets and sessions from before. -/
structure Residue (account : AccountId) (start : Surfaces) (actions : List SurfaceAction) (surfaces : Surfaces) : Prop where
  requests : ∀ {path claims}, claims.sub = account → (path, claims) ∈ surfaces.requests → (path, claims) ∈ start.requests
  sockets : ∀ {connection : Nat} {claims : Claims}, claims.sub = account → surfaces.sockets[connection]? = some claims →
    Lingers start actions connection claims
  sessions : ∀ {connection session}, surfaces.acceptor.sessions connection = some session → session.fsm.account = some account →
    (∃ first, start.acceptor.sessions connection = some first ∧ first.fsm.account = some account) ∧
      ∀ action ∈ actions, action.hears connection = false

section Residues
variable {account : AccountId} {start surfaces next : Surfaces} {actions : List SurfaceAction} {action : SurfaceAction}
  {served : List Served} {connection : Nat} {claims : Claims}

theorem Residue.refl (account : AccountId) (start : Surfaces) : Residue account start [] start where
  requests _ member := member
  sockets _ found := ⟨[], [], rfl, fun _ => List.not_mem_nil, Or.inl ⟨rfl, found⟩⟩
  sessions present mine := ⟨⟨_, present, mine⟩, fun _ member => nomatch member⟩

theorem Lingers.later (lingers : Lingers start actions connection claims)
    (other : ∀ nowSecs, action ≠ .heartbeat connection nowSecs) : Lingers start (actions ++ [action]) connection claims := by
  obtain ⟨before, since, rfl, unbeaten, origin⟩ := lingers
  refine ⟨before, since ++ [action], List.append_assoc .., fun nowSecs member => ?_, origin⟩
  rcases List.mem_append.1 member with old | new
  · exact unbeaten nowSecs old
  · exact other nowSecs (List.mem_singleton.1 new).symm

theorem not_honoured (vouched : surfaces.registry.Vouches claims)
    (revoked : surfaces.Revoked claims.sub) : surfaces.registry.honours claims = false := by
  by_contra honoured
  obtain ⟨row, held, -, live⟩ := vouched.live (Bool.eq_true_of_not_eq_false honoured)
  obtain ⟨other, found, epoch⟩ := revoked
  obtain rfl := Option.some.inj (held.symm.trans found)
  exact Nat.lt_irrefl 0 (live ▸ epoch)

theorem apart_hears (apart : action.apart = true) : action.hears connection = false := by
  cases action with
  | fix => cases apart
  | _ => rfl

theorem apart_heartbeat (apart : action.apart = true) (nowSecs : Nat) : action ≠ .heartbeat connection nowSecs := by
  rintro rfl
  cases apart

variable {jwt : JwtAuth} [Ironfix] {U : Upstream} {gate : BootstrapGate}

/-- A session of a revoked account that is seated after a step was so before, and has heard nothing. -/
theorem Credentialed.revoked_seated {salt : String} {asked : AcceptorAction} {after : VenueFixSession}
    (credentialed : Credentialed surfaces) (revoked : surfaces.Revoked account)
    (seated : Seated U surfaces.acceptor connection after (surfaces.registry.behind salt asked))
    (mine : after.fsm.account = some account) :
    (∃ session, surfaces.acceptor.sessions connection = some session ∧ session.fsm.account = some account) ∧
      (SurfaceAction.fix salt asked).hears connection = false := by
  obtain ⟨row, held, epoch⟩ := revoked
  generalize same : surfaces.registry.behind salt asked = seen at seated
  cases seated with
  | stayed present apart =>
    refine ⟨⟨after, present, mine⟩, ?_⟩
    cases asked with
    | dispatch other event venue outages room =>
      have elsewhere : other ≠ connection := by
        rintro rfl
        exact apart _ _ _ _ same.symm
      cases event with
      | decodeError error => rfl
      | message decoded => exact decide_eq_false elsewhere
      | tick => exact decide_eq_false elsewhere
    | accept => rfl
    | disconnect => rfl
    | crash => rfl
  | accepted peer nowMs fresh =>
    subst fresh
    cases mine
  | dispatched event venue outages room session present live reached =>
    obtain ⟨found, rfl, rfl⟩ := AccountRegistry.behind_dispatch same
    subst reached
    rcases credentialed.login (U := U) session event salt found outages with kept | ⟨other, there, alive, speaks⟩
    · have own : session.fsm.account = some account := (congrArg Fix.Login.account kept).symm.trans mine
      refine ⟨⟨session, present, own⟩, ?_⟩
      obtain ⟨keyed, ended⟩ := revoked_of_binds salt found (credentialed.sessions present) own held epoch
      have sitting := credentialed.orderly.sitting present
      cases event with
      | decodeError error => rfl
      | message decoded =>
        have gone := sitting.revoked_ends (U := U) room (.message decoded) outages keyed ended nofun
        cases gone.symm.trans live
      | tick =>
        have gone := sitting.revoked_ends (U := U) room .tick outages keyed ended nofun
        cases gone.symm.trans live
    · obtain rfl : account = other.id := Option.some.inj (mine.symm.trans speaks.account)
      obtain rfl := Option.some.inj (held.symm.trans there)
      exact absurd alive (Nat.ne_of_gt epoch)

theorem Residue.moved_requests {path : String} (residue : Residue account start actions surfaces) (credentialed : Credentialed surfaces)
    (revoked : surfaces.Revoked account) (moved : Moved jwt U gate surfaces action next served) (mine : claims.sub = account)
    (member : (path, claims) ∈ next.requests) : (path, claims) ∈ start.requests := by
  subst mine
  cases moved with
  | admitted known verified honoured permitted =>
    rcases List.mem_append.1 member with old | new
    · exact residue.requests rfl old
    · cases List.mem_singleton.1 new
      cases (not_honoured (credentialed.issued known) revoked).symm.trans honoured
  | joined held early honoured =>
    rcases List.mem_append.1 member with old | new
    · exact residue.requests rfl old
    · cases List.mem_singleton.1 new
      cases (not_honoured (credentialed.held (.redeemed held)).1 revoked).symm.trans honoured
  | finished => exact residue.requests rfl (List.mem_of_mem_erase member)
  | opened held free room => exact residue.requests rfl (List.mem_of_mem_erase member)
  | _ => exact residue.requests rfl member

theorem Residue.moved_sockets (residue : Residue account start actions surfaces) (credentialed : Credentialed surfaces)
    (revoked : surfaces.Revoked account) (moved : Moved jwt U gate surfaces action next served) (mine : claims.sub = account)
    (found : next.sockets[connection]? = some claims) : Lingers start (actions ++ [action]) connection claims := by
  subst mine
  cases moved with
  | enrolled apart kept => exact (residue.sockets rfl found).later (apart_heartbeat apart)
  | limited apart => exact (residue.sockets rfl found).later (apart_heartbeat apart)
  | @opened other own held free room =>
    rcases of_getElem?_insert found with ⟨rfl, rfl⟩ | ⟨-, old⟩
    · refine ⟨actions ++ [.openSocket connection claims], [], (List.append_nil _).symm, fun _ => List.not_mem_nil, Or.inr ⟨?_, ?_⟩⟩
      · exact List.getLast?_concat
      · exact residue.requests rfl held
    · exact (residue.sockets rfl old).later nofun
  | @beaten other own nowSecs there early honoured =>
    refine (residue.sockets rfl found).later fun late same => ?_
    cases same
    obtain rfl := Option.some.inj (found.symm.trans there)
    cases (not_honoured (credentialed.held (.opened there)).1 revoked).symm.trans honoured
  | @closed asked other origin =>
    obtain ⟨apart, old⟩ := of_getElem?_erase found
    refine (residue.sockets rfl old).later fun late same => ?_
    rcases origin with asked | ⟨nowSecs, asked⟩
    · cases same.symm.trans asked
    · cases same.symm.trans asked
      exact apart rfl
  | _ => exact (residue.sockets rfl found).later nofun

theorem Residue.moved_sessions {session : VenueFixSession} (residue : Residue account start actions surfaces)
    (credentialed : Credentialed surfaces) (revoked : surfaces.Revoked account)
    (moved : Moved jwt U gate surfaces action next served) (present : next.acceptor.sessions connection = some session)
    (mine : session.fsm.account = some account) :
    (∃ first, start.acceptor.sessions connection = some first ∧ first.fsm.account = some account) ∧
      ∀ asked ∈ actions ++ [action], asked.hears connection = false := by
  have extended : (∃ before, surfaces.acceptor.sessions connection = some before ∧ before.fsm.account = some account) ∧
      action.hears connection = false := by
    cases moved with
    | enrolled apart kept => exact ⟨⟨session, present, mine⟩, apart_hears apart⟩
    | limited apart => exact ⟨⟨session, present, mine⟩, apart_hears apart⟩
    | fixed alive taken => exact credentialed.revoked_seated revoked (Fix.Acceptor.step_seated taken present) mine
    | closed origin =>
      refine ⟨⟨session, present, mine⟩, ?_⟩
      rcases origin with rfl | ⟨nowSecs, rfl⟩
      · rfl
      · rfl
    | _ => exact ⟨⟨session, present, mine⟩, rfl⟩
  obtain ⟨⟨before, there, own⟩, unheard⟩ := extended
  obtain ⟨origin, silent⟩ := residue.sessions there own
  refine ⟨origin, fun asked member => ?_⟩
  rcases List.mem_append.1 member with old | new
  · exact silent asked old
  · rw [List.mem_singleton.1 new]
    exact unheard

/-- No step adds to what a revoked account still has. -/
theorem Residue.moved (residue : Residue account start actions surfaces) (credentialed : Credentialed surfaces)
    (revoked : surfaces.Revoked account) (moved : Moved jwt U gate surfaces action next served) :
    Residue account start (actions ++ [action]) next where
  requests := residue.moved_requests credentialed revoked moved
  sockets := residue.moved_sockets credentialed revoked moved
  sessions := residue.moved_sessions credentialed revoked moved

theorem Credentialed.revoked (credentialed : Credentialed surfaces) (revoked : surfaces.Revoked account)
    (moved : Moved jwt U gate surfaces action next served) : next.Revoked account := by
  obtain ⟨row, held, epoch⟩ := revoked
  obtain ⟨after, there, -, -, -, -, stays⟩ := (moved.registry credentialed.sound).2 account row held
  exact ⟨after, there, stays epoch⟩

end Residues

section Runs
variable {jwt : JwtAuth} [Ironfix] {U : Upstream} {gate : BootstrapGate} {account : AccountId} {start surfaces : Surfaces}
  {actions : List SurfaceAction}

theorem Residue.run (credentialed : Credentialed start) (revoked : start.Revoked account)
    (run : runFrom (Surfaces.step jwt · U gate) start actions = some surfaces) :
    Credentialed surfaces ∧ surfaces.Revoked account ∧ Residue account start actions surfaces := by
  let property := fun done (state : Surfaces) => Credentialed state ∧ state.Revoked account ∧ Residue account start done state
  have preserved : ∀ done state action next, property done state → state.step jwt U gate action = some next →
      property (done ++ [action]) next := by
    rintro done state action next ⟨holds, withdrawn, residue⟩ taken
    obtain ⟨served, moved⟩ := step_moved taken
    exact ⟨holds.moved moved, holds.revoked withdrawn moved, residue.moved holds withdrawn moved⟩
  have initially : property [] start := ⟨credentialed, revoked, .refl account start⟩
  exact runFrom_history preserved initially run

end Runs

end Fauxchange.Auth
