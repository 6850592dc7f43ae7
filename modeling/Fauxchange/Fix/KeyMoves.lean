import Fauxchange.Fix.InboundRuns

/-! One step of the acceptor, as the numbers of one key see it: what it submits, and which numbers a journaled
reset assigns anew. -/

namespace Fauxchange.Fix
open Exchange Lib Fallible FixSessionStore

/-- The submissions of a key that a step adds. -/
def Acceptor.fresh (key : SessionKey) (acceptor next : Acceptor) : List ExchangeCall :=
  (callsOf key next.calls).drop (callsOf key acceptor.calls).length

/-- A reset that a step journals. -/
def FixSessionStore.renews (key : SessionKey) (trigger : ResetTrigger) (store after : FixSessionStore) : Bool :=
  ((after.history key).drop (store.history key).length).any fun write =>
    match write with
    | .reset _ event _ => event.trigger = trigger
    | _ => false

/-- A number keeps its message unless a reset assigns it anew: a logon reset all of them, another one those from the
new expectation on. -/
def FixSessionStore.stands (key : SessionKey) (number : Nat) (store after : FixSessionStore) : Bool :=
  ¬ store.renews key .logonReset after ∧ (store.renews key .sequenceReset after → number < after.target key)

section Numbers
variable {key : SessionKey} {acceptor next : Acceptor} {store after : FixSessionStore} {trigger : ResetTrigger} {number : Nat}

theorem fresh_same (calls : callsOf key next.calls = callsOf key acceptor.calls) : acceptor.fresh key next = [] := by
  unfold Acceptor.fresh
  rw [calls, List.drop_length]

theorem fresh_append {call : ExchangeCall} (mine : call.key = some key) (calls : next.calls = acceptor.calls ++ [call]) :
    acceptor.fresh key next = [call] := by
  unfold Acceptor.fresh callsOf
  rw [calls, List.filter_append, List.filter_singleton, decide_eq_true mine, cond_true, List.drop_left]

theorem Journaled.renews (journal : Journaled key trigger store after) : store.renews key trigger after = true := by
  obtain ⟨event, counters, more, member, same, history⟩ := journal
  unfold FixSessionStore.renews
  rw [history, List.drop_left]
  exact List.any_eq_true.2 ⟨_, member, decide_eq_true same⟩

theorem not_stands_logon (journal : Journaled key .logonReset store after) : store.stands key number after = false := by
  unfold FixSessionStore.stands
  simp [journal.renews]

theorem stands_reset (journal : Journaled key .sequenceReset store after) (stands : store.stands key number after = true) :
    number < after.target key := by
  unfold FixSessionStore.stands at stands
  simp only [decide_eq_true_eq] at stands
  exact stands.2 journal.renews

end Numbers

/-- A message submits at most once, under its own number. -/
theorem InboundTurn.called {α : Type} {venue : AppState} {key : SessionKey} {message : DecodedMessage} {heard reached : Dispatch}
    {result : Except Halt α} (turn : InboundTurn venue key message heard result reached) :
    reached.calls = heard.calls ∨
      ∃ call, call.key = some key ∧ call.stamp.msgSeq = heard.expected ∧ reached.calls = heard.calls ++ [call] := by
  cases turn with
  | stays still => exact Or.inl still.calls
  | consumes numbered plain expected target calls => exact Or.inl calls
  | withholds numbered mutation expected target calls => exact Or.inl calls
  | submits numbered mutation call mine stamped expected target calls => exact Or.inr ⟨call, mine, stamped, calls⟩
  | fills reset asked gapFill forward expected target calls => exact Or.inl calls
  | resets reset asked administrative expected target calls journal => exact Or.inl calls
  | breaks stopped target calls => exact Or.inl calls

/-- What one step does to the numbers of a key. -/
inductive KeyMove [Ironfix] (U : Upstream) (key : SessionKey) (action : AcceptorAction) (acceptor next : Acceptor) : Prop where
  | idle (sessions : ∀ {after}, next.Serves key after → ∃ session, acceptor.Serves key session ∧
        after.fsm.counters.nextTargetSeq = session.fsm.counters.nextTargetSeq)
      (target : next.store.target key = acceptor.store.target key) (fresh : acceptor.fresh key next = [])
  | lost (crashed : action = .crash) (volatile : acceptor.store.backend = .inMemory)
      (sessions : ∀ {session}, ¬ next.Serves key session) (fresh : acceptor.fresh key next = [])
  | turned {connection room : Nat} {venue : AppState} {outages : List (Option String)} {message : DecodedMessage}
      {session : VenueFixSession} {result : Except Halt Reaction} {reached : Dispatch}
      (asked : action = .dispatch connection (.message message) venue outages room)
      (present : acceptor.sessions connection = some session) (bound : session.fsm.key = some key)
      (outcome : acceptor.outcome U session (.message message) venue outages = (result, reached))
      (turn : InboundTurn venue key message (acceptor.load session outages) result reached)
      (store : next.store = reached.store) (calls : next.calls = reached.calls)
      (sessions : ∀ {after}, next.Serves key after → after = reached.toVenueFixSession ∧ ∃ reaction, result = .ok reaction)
  | logged {connection room : Nat} {event : SessionEvent} {venue : AppState} {outages : List (Option String)}
      {session : VenueFixSession} {result : Except Halt Reaction} {reached : Dispatch} {logon : Logon}
      (asked : action = .dispatch connection event venue outages room) (brought : event.logon? = some logon)
      (present : acceptor.sessions connection = some session) (waiting : session.fsm.phase = .awaitingLogon)
      (keyed : logon.For venue key) (free : ∀ {other}, ¬ acceptor.Serves key other)
      (inbound : InboundLogon key logon (acceptor.load session outages) result reached)
      (store : next.store = reached.store) (fresh : acceptor.fresh key next = [])
      (sessions : ∀ {after}, next.Serves key after → after = reached.toVenueFixSession ∧ reached.fsm.key = some key ∧
        ∃ reaction, result = .ok reaction)

section Steps
variable [Ironfix] {U : Upstream} {key : SessionKey} {action : AcceptorAction} {acceptor next : Acceptor}

theorem Orderly.keyMove (orderly : Orderly acceptor) (taken : acceptor.step U action = some next) (key : SessionKey) :
    KeyMove U key action acceptor next := by
  cases orderly.keyStep taken key with
  | idle sessions slot history calls =>
    exact .idle (fun serves => ⟨_, sessions serves, rfl⟩) (congrArg (fun slot => slot.counters.nextTargetSeq) slot)
      (fresh_same calls)
  | lost crashed volatile sessions store calls => exact .lost crashed volatile sessions (fresh_same (by rw [calls]))
  | @served connection room event venue outages session result reached asked present bound outcome turn store calls sessions =>
    rcases turn.inbound with still | ⟨message, rfl, inbound⟩
    · refine .idle (fun serves => ⟨session, ⟨connection, present, bound⟩, ?_⟩) ?_ (fresh_same ?_)
      · rw [(sessions serves).1]
        exact still.expected
      · rw [store]
        exact still.target
      · rw [calls, still.calls]
        rfl
    · exact .turned asked present bound outcome inbound store calls sessions
  | @logged connection room event venue outages session result reached logon asked brought present waiting free outcome
      joined store calls sessions =>
    have unbound := (orderly.sitting present).waiting (by rw [waiting]; rfl)
    have inbound := (event.heard_same venue (acceptor.load session outages)).joined unbound.1 joined
    refine .logged asked brought present waiting joined.keyed free inbound store (fresh_same ?_) fun serves => ?_
    · have same : reached.calls = acceptor.calls := by
        cases inbound with
        | refuses ended target calls => exact calls
        | abandons asked stopped calls journal => exact calls
        | resumes asked numbered expected target calls => exact calls
        | renews asked expected target calls journal => exact calls
      rw [calls, same]
    · obtain ⟨rfl, finished⟩ := sessions serves
      obtain ⟨_, -, bound⟩ := serves
      exact ⟨rfl, bound, finished⟩

end Steps

end Fauxchange.Fix
