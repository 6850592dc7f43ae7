import Fauxchange.Fix.Leases

/-! What one step of the acceptor does to one key: it serves the session that is bound to it, or admits one, or
leaves it alone. -/

namespace Fauxchange.Fix
open Exchange Lib Fallible FixSessionStore

/-- A message is looked at under its own reply identity, and nothing else has changed. -/
structure Heard (dispatch heard : Dispatch) : Prop where
  key : heard.fsm.key = dispatch.fsm.key
  phase : heard.fsm.phase = dispatch.fsm.phase
  counters : heard.fsm.counters = dispatch.fsm.counters
  lease : heard.lease = dispatch.lease
  leases : heard.leases = dispatch.leases
  store : heard.store = dispatch.store
  calls : heard.calls = dispatch.calls

theorem SessionEvent.heard_same (event : SessionEvent) (venue : AppState) (dispatch : Dispatch) :
    Heard dispatch (event.heard venue dispatch) := by
  cases event with
  | message decoded =>
    unfold SessionEvent.heard
    dsimp only
    split
    next => exact ⟨rfl, rfl, rfl, rfl, rfl, rfl, rfl⟩
    next => exact ⟨rfl, rfl, rfl, rfl, rfl, rfl, rfl⟩
  | decodeError error => exact ⟨rfl, rfl, rfl, rfl, rfl, rfl, rfl⟩
  | tick => exact ⟨rfl, rfl, rfl, rfl, rfl, rfl, rfl⟩

theorem Heard.apart {key : SessionKey} {dispatch heard reached : Dispatch} (same : Heard dispatch heard)
    (apart : Apart key heard reached) : Apart key dispatch reached :=
  ⟨same.store ▸ apart.slot, same.store ▸ apart.history, same.calls ▸ apart.calls⟩

theorem Heard.claims {α : Type} {key : SessionKey} {dispatch heard reached : Dispatch} {result : Except Halt α}
    (same : Heard dispatch heard) (claims : Claims key heard result reached) : Claims key dispatch result reached where
  free := same.leases ▸ claims.free
  lease := claims.lease
  leases := same.leases ▸ claims.leases
  apart elsewhere := same.apart (claims.apart elsewhere)
  ended := claims.ended

/-- What one dispatch does to the session and to the leases. -/
theorem Reacted.leased {α : Type} {event : SessionEvent} {venue : AppState} {dispatch reached : Dispatch}
    {result : Except Halt α} (reacted : Reacted event venue dispatch result reached)
    (waiting : dispatch.fsm.phase = .awaitingLogon → dispatch.fsm.key = none) :
    (reached.lease = dispatch.lease ∧ reached.leases = dispatch.leases ∧ reached.fsm.key = dispatch.fsm.key ∧
        dispatch.Onward reached) ∨
      dispatch.fsm.phase = .awaitingLogon ∧ ∃ key, Claims key dispatch result reached := by
  have same := event.heard_same venue dispatch
  have kept : reached.standing.ties = (event.heard venue dispatch).standing.ties →
      (event.heard venue dispatch).Onward reached →
      reached.lease = dispatch.lease ∧ reached.leases = dispatch.leases ∧ reached.fsm.key = dispatch.fsm.key ∧
        dispatch.Onward reached := by
    intro ties onward
    refine ⟨(congrArg Standing.lease ties).trans same.lease, (congrArg Standing.leases ties).trans same.leases,
      (congrArg Standing.key ties).trans same.key, ?_⟩
    unfold Dispatch.Onward at onward ⊢
    rw [same.phase] at onward
    exact onward
  cases reacted with
  | sent sends => exact Or.inl (kept (congrArg Standing.ties sends.standing) sends.onward)
  | turned asked bound turn => exact Or.inl (kept turn.acts.ties turn.acts.onward)
  | logged asked awaiting admission =>
    cases admission with
    | refused sends => exact Or.inl (kept (congrArg Standing.ties sends.standing) sends.onward)
    | joined key joined =>
      have claims := joined.claims (same.key.trans (waiting awaiting))
      exact Or.inr ⟨awaiting, key, same.claims claims⟩

/-- A session whose lease is among the live ones. -/
structure Sitting (leases : List SessionKey) (session : VenueFixSession) : Prop where
  waiting : session.fsm.phase.stage = 0 → session.fsm.key = none ∧ session.lease = none
  serving : session.fsm.phase.stage = 1 → ∃ key, session.fsm.key = some key
  held : ∀ {key}, session.fsm.key = some key → session.lease = some key
  leased : ∀ {key}, session.lease = some key → key ∈ leases

/-- Every session sits on its own lease. -/
structure Orderly (acceptor : Acceptor) : Prop where
  sitting : ∀ {connection session}, acceptor.sessions connection = some session → Sitting acceptor.leases session
  alone : ∀ {connection other session rival key}, acceptor.sessions connection = some session →
    acceptor.sessions other = some rival → session.lease = some key → rival.lease = some key → connection = other

theorem orderly_new (backend : Backend) (config : SessionConfig) : Orderly (.new backend config) := ⟨nofun, nofun⟩

section Steps
variable {acceptor : Acceptor} {connection other room : Nat} {session rival : VenueFixSession}

theorem seat_self (seated : Option VenueFixSession) : acceptor.seat connection seated connection = seated := if_pos rfl

theorem seat_of_ne (seated : Option VenueFixSession) (apart : other ≠ connection) :
    acceptor.seat connection seated other = acceptor.sessions other := if_neg apart

theorem mem_released {key : SessionKey} {lease : Option SessionKey} {leases : List SessionKey} (held : key ∈ leases)
    (apart : lease ≠ some key) : key ∈ Acceptor.released lease leases := by
  cases lease with
  | none => exact held
  | some mine =>
    refine List.mem_filter.2 ⟨held, decide_eq_true fun same => apart ?_⟩
    rw [same]

/-- The sessions that stay seated keep their leases. -/
theorem Orderly.reseated (orderly : Orderly acceptor) {next : Acceptor} {seated : Option VenueFixSession}
    (sessions : next.sessions = acceptor.seat connection seated)
    (others : ∀ {other rival key}, other ≠ connection → acceptor.sessions other = some rival → rival.lease = some key →
      key ∈ next.leases ∧ ∀ {session}, seated = some session → session.lease ≠ some key)
    (own : ∀ {session}, seated = some session → Sitting next.leases session) : Orderly next where
  sitting := by
    intro other rival present
    rw [sessions] at present
    by_cases mine : other = connection
    · rw [mine, seat_self] at present
      exact own present
    · rw [seat_of_ne seated mine] at present
      have sitting := orderly.sitting present
      exact { sitting with leased := fun held => (others mine present held).1 }
  alone := by
    intro first second session rival key one two held same
    rw [sessions] at one two
    by_cases mine : first = connection
    · by_cases yours : second = connection
      · rw [mine, yours]
      · rw [mine, seat_self] at one
        rw [seat_of_ne seated yours] at two
        exact absurd held ((others yours two same).2 one)
    · by_cases yours : second = connection
      · rw [seat_of_ne seated mine] at one
        rw [yours, seat_self] at two
        exact absurd same ((others mine one held).2 two)
      · rw [seat_of_ne seated mine] at one
        rw [seat_of_ne seated yours] at two
        exact orderly.alone one two held same

theorem Sitting.onward {leases : List SessionKey} {dispatch reached : Dispatch} (sitting : Sitting leases dispatch.toVenueFixSession)
    (lease : reached.lease = dispatch.lease) (key : reached.fsm.key = dispatch.fsm.key) (onward : dispatch.Onward reached) :
    Sitting leases reached.toVenueFixSession where
  waiting := by
    intro start
    rw [lease, key]
    rcases onward with same | closed
    · exact sitting.waiting (same.symm.trans start)
    · rw [closed] at start
      cases start
  serving := by
    intro start
    rw [key]
    rcases onward with same | closed
    · exact sitting.serving (same.symm.trans start)
    · rw [closed] at start
      cases start
  held := by
    rw [lease, key]
    exact sitting.held
  leased := by
    rw [lease]
    exact sitting.leased

/-- A session that outlives its logon sits on the lease of its key. -/
theorem Claims.sitting {key : SessionKey} {dispatch reached : Dispatch} {result : Except Halt Reaction}
    (claims : Claims key dispatch result reached) (live : outlives result room = true) :
    Sitting (key :: dispatch.leases) reached.toVenueFixSession := by
  rcases claims.ended with ⟨halt, stopped⟩ | ⟨closed, unbound⟩ | ⟨bound, past⟩
  · rw [stopped] at live
    cases live
  · refine ⟨fun start => ?_, fun start => ?_, fun held => ?_, fun held => ?_⟩
    · rw [closed] at start
      cases start
    · rw [closed] at start
      cases start
    · cases unbound.symm.trans held
    · cases claims.lease.symm.trans held
      exact List.mem_cons_self
  · refine ⟨fun start => absurd start past, fun _ => ⟨key, bound⟩, fun held => ?_, fun held => ?_⟩
    · cases bound.symm.trans held
      exact claims.lease
    · cases claims.lease.symm.trans held
      exact List.mem_cons_self

variable [Ironfix] {U : Upstream} {event : SessionEvent} {venue : AppState} {outages : List (Option String)}

/-- The outcome of one dispatch of a seated session. -/
def Acceptor.outcome (U : Upstream) (acceptor : Acceptor) (session : VenueFixSession) (event : SessionEvent)
    (venue : AppState) (outages : List (Option String)) : Except Halt Reaction × Dispatch :=
  (event.handle U venue).exec (acceptor.load session outages)

theorem Sitting.reacted (sitting : Sitting acceptor.leases session) :
    Reacted event venue (acceptor.load session outages) (acceptor.outcome U session event venue outages).1
      (acceptor.outcome U session event venue outages).2 :=
  (event.handle_reacted (fun _ => True) sitting.serving ⟨fun _ _ _ => trivial, fun _ _ _ _ => trivial⟩
    fun _ _ _ _ _ _ _ _ => trivial).1

theorem Orderly.dispatched (orderly : Orderly acceptor) (present : acceptor.sessions connection = some session) :
    Orderly (acceptor.unload connection room (acceptor.outcome U session event venue outages)) := by
  have sitting := orderly.sitting present
  have reacted : Reacted event venue (acceptor.load session outages) (acceptor.outcome U session event venue outages).1
      (acceptor.outcome U session event venue outages).2 := sitting.reacted
  have leased := reacted.leased fun awaiting => (sitting.waiting (by rw [show session.fsm.phase = _ from awaiting]; rfl)).1
  revert leased
  rcases acceptor.outcome U session event venue outages with ⟨result, reached⟩
  intro leased
  have rivals : ∀ {other rival key}, other ≠ connection → acceptor.sessions other = some rival →
      rival.lease = some key → key ∈ reached.leases ∧ reached.lease ≠ some key := by
    intro other rival key apart seated held
    have among := (orderly.sitting seated).leased held
    rcases leased with ⟨lease, leases, -, -⟩ | ⟨-, mine, claims⟩
    · rw [lease, leases]
      exact ⟨among, fun same => apart (orderly.alone seated present held same)⟩
    · rw [claims.lease, claims.leases]
      refine ⟨List.mem_cons_of_mem _ among, fun same => claims.free ?_⟩
      rw [Option.some.inj same]
      exact among
  unfold Acceptor.unload
  cases live : outlives result room with
  | true =>
    refine orderly.reseated rfl ?_ ?_
    · intro other rival key apart seated held
      obtain ⟨among, differs⟩ := rivals apart seated held
      exact ⟨among, fun same => Option.some.inj same ▸ differs⟩
    · intro session same
      cases same
      rcases leased with ⟨lease, leases, key, onward⟩ | ⟨-, mine, claims⟩
      · rw [leases]
        exact sitting.onward lease key onward
      · rw [claims.leases]
        exact claims.sitting live
  | false =>
    refine orderly.reseated rfl ?_ nofun
    intro other rival key apart seated held
    obtain ⟨among, differs⟩ := rivals apart seated held
    exact ⟨mem_released among differs, nofun⟩

theorem Orderly.step {action : AcceptorAction} {next : Acceptor} (orderly : Orderly acceptor)
    (taken : acceptor.step U action = some next) : Orderly next := by
  cases action with
  | accept connection peer nowMs =>
    unfold Acceptor.step at taken
    cases empty : acceptor.sessions connection with
    | some session => simp [empty] at taken
    | none =>
      simp only [empty, Option.some.injEq] at taken
      subst taken
      refine orderly.reseated rfl ?_ ?_
      · intro other rival key apart seated held
        exact ⟨(orderly.sitting seated).leased held, fun same => by cases same; nofun⟩
      · intro session same
        cases same
        exact ⟨fun _ => ⟨rfl, rfl⟩, nofun, nofun, nofun⟩
  | dispatch connection event venue outages room =>
    unfold Acceptor.step at taken
    cases present : acceptor.sessions connection with
    | none => simp [present] at taken
    | some session =>
      simp only [present, Option.some.injEq] at taken
      subst taken
      exact orderly.dispatched present
  | disconnect connection =>
    unfold Acceptor.step at taken
    cases present : acceptor.sessions connection with
    | none => simp [present] at taken
    | some session =>
      simp only [present, Option.some.injEq] at taken
      subst taken
      refine orderly.reseated rfl ?_ nofun
      intro other rival key apart seated held
      refine ⟨mem_released ((orderly.sitting seated).leased held) fun same => ?_, nofun⟩
      exact apart (orderly.alone seated present held same)
  | crash =>
    cases taken
    exact ⟨nofun, nofun⟩

end Steps

/-- A live session is bound to a key. -/
def Acceptor.Serves (acceptor : Acceptor) (key : SessionKey) (session : VenueFixSession) : Prop :=
  ∃ connection, acceptor.sessions connection = some session ∧ session.fsm.key = some key

/-- The key that the session of a step is bound to beforehand. -/
def Acceptor.keyAt (acceptor : Acceptor) : AcceptorAction → Option SessionKey
  | .dispatch connection _ _ _ _ => (acceptor.sessions connection).bind fun session => session.fsm.key
  | _ => none

/-- A step hands a message to the session that serves a key. -/
def Acceptor.Hands (acceptor : Acceptor) (key : SessionKey) (session : VenueFixSession) (message : DecodedMessage)
    (venue : AppState) (action : AcceptorAction) : Prop :=
  ∃ connection outages room, action = .dispatch connection (.message message) venue outages room ∧
    acceptor.sessions connection = some session ∧ session.fsm.key = some key

/-- A session bound to a key only sends, or takes one message. -/
def Served {α : Type} (venue : AppState) (key : SessionKey) (event : SessionEvent) (heard : Dispatch) (result : Except Halt α)
    (reached : Dispatch) : Prop :=
  Sends heard reached ∨ ∃ message, event = .message message ∧ Turn venue key message heard result reached

/-- What one step of the acceptor does to one key. -/
inductive KeyStep [Ironfix] (U : Upstream) (key : SessionKey) (action : AcceptorAction) (acceptor next : Acceptor) : Prop where
  | idle (sessions : ∀ {session}, next.Serves key session → acceptor.Serves key session)
      (slot : next.store.slot key = acceptor.store.slot key) (history : next.store.history key = acceptor.store.history key)
      (calls : callsOf key next.calls = callsOf key acceptor.calls)
  | lost (crashed : action = .crash) (volatile : acceptor.store.backend = .inMemory)
      (sessions : ∀ {session}, ¬ next.Serves key session) (store : next.store = .new .inMemory)
      (calls : next.calls = acceptor.calls)
  | served {connection room : Nat} {event : SessionEvent} {venue : AppState} {outages : List (Option String)}
      {session : VenueFixSession} {result : Except Halt Reaction} {reached : Dispatch}
      (asked : action = .dispatch connection event venue outages room)
      (present : acceptor.sessions connection = some session) (bound : session.fsm.key = some key)
      (outcome : acceptor.outcome U session event venue outages = (result, reached))
      (turn : Served venue key event (event.heard venue (acceptor.load session outages)) result reached)
      (store : next.store = reached.store) (calls : next.calls = reached.calls)
      (sessions : ∀ {other}, next.Serves key other → other = reached.toVenueFixSession ∧ ∃ reaction, result = .ok reaction)
  | logged {connection room : Nat} {event : SessionEvent} {venue : AppState} {outages : List (Option String)}
      {session : VenueFixSession} {result : Except Halt Reaction} {reached : Dispatch} {logon : Logon}
      (asked : action = .dispatch connection event venue outages room) (brought : event.logon? = some logon)
      (present : acceptor.sessions connection = some session) (waiting : session.fsm.phase = .awaitingLogon)
      (free : ∀ {other}, ¬ acceptor.Serves key other)
      (outcome : acceptor.outcome U session event venue outages = (result, reached))
      (joined : Joined logon venue key (event.heard venue (acceptor.load session outages)) result reached)
      (store : next.store = reached.store) (calls : next.calls = reached.calls)
      (sessions : ∀ {other}, next.Serves key other → other = reached.toVenueFixSession ∧ ∃ reaction, result = .ok reaction)

section Keys
variable {key : SessionKey} {acceptor : Acceptor} {connection room : Nat}
  {session : VenueFixSession} {event : SessionEvent} {venue : AppState} {outages : List (Option String)}

theorem outlives_ok {result : Except Halt Reaction} (live : outlives result room = true) : ∃ reaction, result = .ok reaction := by
  cases result with
  | error halt => cases live
  | ok reaction => exact ⟨reaction, rfl⟩

/-- After a dispatch, a key is served by the session of the dispatch or by one that has served it before. -/
theorem unload_serves {result : Except Halt Reaction} {reached : Dispatch} {other : VenueFixSession}
    (serves : (acceptor.unload connection room (result, reached)).Serves key other) :
    (other = reached.toVenueFixSession ∧ outlives result room = true ∧ reached.fsm.key = some key) ∨
      ∃ seat, seat ≠ connection ∧ acceptor.sessions seat = some other ∧ other.fsm.key = some key := by
  obtain ⟨seat, present, bound⟩ := serves
  change acceptor.seat connection (if outlives result room then some reached.toVenueFixSession else none) seat = _ at present
  by_cases mine : seat = connection
  · rw [mine, seat_self] at present
    cases live : outlives result room with
    | true =>
      rw [live, if_pos rfl] at present
      cases present
      exact Or.inl ⟨rfl, rfl, bound⟩
    | false =>
      rw [live, if_neg Bool.false_ne_true] at present
      cases present
  · rw [seat_of_ne _ mine] at present
    exact Or.inr ⟨seat, mine, present, bound⟩

variable [Ironfix] {U : Upstream}

/-- A dispatch that leaves the session without the key, and the key alone. -/
theorem KeyStep.of_apart {result : Except Halt Reaction} {reached : Dispatch} {action : AcceptorAction}
    (apart : Apart key (acceptor.load session outages) reached)
    (unbound : outlives result room = true → reached.fsm.key ≠ some key) :
    KeyStep U key action acceptor (acceptor.unload connection room (result, reached)) := by
  refine .idle (fun serves => ?_) apart.slot apart.history apart.calls
  rcases unload_serves serves with ⟨-, live, bound⟩ | ⟨seat, -, present, bound⟩
  · exact absurd bound (unbound live)
  · exact ⟨seat, present, bound⟩

/-- One dispatch, seen from one key. -/
theorem Orderly.dispatched_key (orderly : Orderly acceptor) (present : acceptor.sessions connection = some session) :
    KeyStep U key (.dispatch connection event venue outages room) acceptor
      (acceptor.unload connection room (acceptor.outcome U session event venue outages)) := by
  have sitting := orderly.sitting present
  have reacted : Reacted event venue (acceptor.load session outages) (acceptor.outcome U session event venue outages).1
      (acceptor.outcome U session event venue outages).2 := sitting.reacted
  have same := event.heard_same venue (acceptor.load session outages)
  have waiting : session.fsm.phase = .awaitingLogon → session.fsm.key = none := fun awaiting =>
    (sitting.waiting (by rw [awaiting]; rfl)).1
  revert reacted
  cases outcome : acceptor.outcome U session event venue outages with
  | mk result reached =>
  intro reacted
  dsimp only at reacted
  by_cases bound : session.fsm.key = some key
  · have sessions : ∀ {other}, (acceptor.unload connection room (result, reached)).Serves key other →
        other = reached.toVenueFixSession ∧ ∃ reaction, result = .ok reaction := by
      intro other serves
      rcases unload_serves serves with ⟨same, live, -⟩ | ⟨seat, apart, seated, held⟩
      · exact ⟨same, outlives_ok live⟩
      · exact absurd (orderly.alone seated present ((orderly.sitting seated).held held) (sitting.held bound)) apart
    refine .served rfl present bound outcome ?_ rfl rfl sessions
    cases reacted with
    | sent sends => exact Or.inl sends
    | @turned other message asked held turn =>
      obtain rfl : other = key := Option.some.inj (held.symm.trans bound)
      exact Or.inr ⟨message, asked, turn⟩
    | logged asked awaiting admission => cases (waiting awaiting).symm.trans bound
  · have stays : reached.standing.ties = (event.heard venue (acceptor.load session outages)).standing.ties →
        reached.fsm.key ≠ some key := fun ties held =>
      bound (((congrArg Standing.key ties).trans same.key).symm.trans held)
    have unheard : (event.heard venue (acceptor.load session outages)).fsm.key ≠ some key := same.key ▸ bound
    cases reacted with
    | sent sends =>
      exact .of_apart (same.apart (sends.apart unheard)) fun _ => stays (congrArg Standing.ties sends.standing)
    | @turned other message asked held turn =>
      have elsewhere : other ≠ key := fun same => bound (same ▸ held)
      exact .of_apart (same.apart (turn.acts.apart (same.key.trans held) elsewhere)) fun _ => stays turn.acts.ties
    | @logged logon asked awaiting admission =>
      cases admission with
      | refused sends =>
        exact .of_apart (same.apart (sends.apart unheard)) fun _ => stays (congrArg Standing.ties sends.standing)
      | joined other joined =>
        have claims := same.claims (joined.claims (same.key.trans (waiting awaiting)))
        have ended : outlives result room = true → reached.fsm.key = some key → other = key := by
          intro live held
          rcases claims.ended with ⟨halt, stopped⟩ | ⟨-, unbound⟩ | ⟨mine, -⟩
          · rw [stopped] at live
            cases live
          · cases unbound.symm.trans held
          · exact Option.some.inj (mine.symm.trans held)
        by_cases mine : other = key
        · subst mine
          have free : ∀ {rival}, ¬ acceptor.Serves other rival := fun ⟨seat, seated, held⟩ =>
            claims.free ((orderly.sitting seated).leased ((orderly.sitting seated).held held))
          refine .logged rfl asked present awaiting free outcome joined rfl rfl fun serves => ?_
          rcases unload_serves serves with ⟨same, live, -⟩ | ⟨seat, -, seated, held⟩
          · exact ⟨same, outlives_ok live⟩
          · exact absurd ⟨seat, seated, held⟩ free
        · exact .of_apart (claims.apart mine) fun live held => mine (ended live held)

/-- One step, seen from one key. -/
theorem Orderly.keyStep {action : AcceptorAction} {next : Acceptor} (orderly : Orderly acceptor)
    (taken : acceptor.step U action = some next) (key : SessionKey) : KeyStep U key action acceptor next := by
  cases action with
  | accept connection peer nowMs =>
    unfold Acceptor.step at taken
    cases empty : acceptor.sessions connection with
    | some session => simp [empty] at taken
    | none =>
      simp only [empty, Option.some.injEq] at taken
      subst taken
      refine .idle (fun serves => ?_) rfl rfl rfl
      obtain ⟨seat, present, bound⟩ := serves
      change acceptor.seat connection (some (.new peer acceptor.config nowMs)) seat = _ at present
      by_cases mine : seat = connection
      · rw [mine, seat_self] at present
        cases present
        cases bound
      · rw [seat_of_ne _ mine] at present
        exact ⟨seat, present, bound⟩
  | dispatch connection event venue outages room =>
    unfold Acceptor.step at taken
    cases present : acceptor.sessions connection with
    | none => simp [present] at taken
    | some session =>
      simp only [present, Option.some.injEq] at taken
      subst taken
      exact orderly.dispatched_key present
  | disconnect connection =>
    unfold Acceptor.step at taken
    cases present : acceptor.sessions connection with
    | none => simp [present] at taken
    | some session =>
      simp only [present, Option.some.injEq] at taken
      subst taken
      refine .idle (fun serves => ?_) rfl rfl rfl
      obtain ⟨seat, seated, bound⟩ := serves
      change acceptor.seat connection none seat = _ at seated
      by_cases mine : seat = connection
      · rw [mine, seat_self] at seated
        cases seated
      · rw [seat_of_ne _ mine] at seated
        exact ⟨seat, seated, bound⟩
  | crash =>
    have vacant : ∀ {session}, ¬ next.Serves key session := by
      intro session serves
      cases taken
      obtain ⟨seat, seated, -⟩ := serves
      cases seated
    cases taken
    cases backend : acceptor.store.backend with
    | inMemory =>
      refine .lost rfl backend vacant ?_ rfl
      simp only [FixSessionStore.restarted, backend]
    | postgres =>
      have same : acceptor.store.restarted = acceptor.store := by
        simp only [FixSessionStore.restarted, backend]
      exact .idle (fun serves => absurd serves vacant) (congrArg (fun store => store.slot key) same)
        (congrArg (fun store => store.history key) same) rfl

end Keys

end Fauxchange.Fix
