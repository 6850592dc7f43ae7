import Fauxchange.Exchange.ReferenceBook
import Fauxchange.Fix.InboundMoves
import Fauxchange.Fix.OutboundRuns

/-! The inbound expectation of one key over whole runs: what takes it past a number, and what takes it back. -/

namespace Fauxchange.Fix
open Exchange Lib Fallible FixSessionStore

section Hearing
variable {key : SessionKey} {event : SessionEvent} {venue : AppState} {dispatch reached : Dispatch}

/-- The reply identity has no part in the numbers. -/
theorem InboundTurn.of_heard {α : Type} {message : DecodedMessage} {result : Except Halt α} {header : StandardHeader} {now : Nat}
    (turn : InboundTurn venue key message (dispatch.heard header now) result reached) :
    InboundTurn venue key message dispatch result reached := by
  cases turn with
  | stays still => exact .stays ⟨still.expected, still.target, still.calls⟩
  | consumes numbered plain expected target calls => exact .consumes numbered ⟨plain.handled, plain.ordinary⟩ expected target calls
  | withholds numbered mutation expected target calls => exact .withholds numbered mutation expected target calls
  | submits numbered mutation call mine stamped expected target calls =>
    exact .submits numbered mutation call mine stamped expected target calls
  | fills reset asked gapFill forward expected target calls =>
    exact .fills reset asked gapFill forward expected target calls
  | resets reset asked administrative expected target calls journal =>
    exact .resets reset asked administrative expected target calls journal
  | breaks stopped target calls => exact .breaks stopped target calls

/-- A dispatch of a bound session leaves the numbers alone, or takes one message. -/
theorem Served.inbound {α : Type} {result : Except Halt α}
    (served : Served venue key event (event.heard venue dispatch) result reached) :
    Still key dispatch reached ∨
      ∃ message, event = .message message ∧ InboundTurn venue key message dispatch result reached := by
  have same := event.heard_same venue dispatch
  rcases served with sends | ⟨message, asked, turn⟩
  · have still : Still key (event.heard venue dispatch) reached := sends.still
    refine Or.inl ⟨still.expected.trans ?_, still.target.trans ?_, still.calls.trans same.calls⟩
    · exact congrArg SessionCounters.nextTargetSeq same.counters
    · exact congrArg (FixSessionStore.target key) same.store
  · refine Or.inr ⟨message, asked, ?_⟩
    subst asked
    have inbound := turn.inbound
    unfold SessionEvent.heard at inbound
    dsimp only at inbound
    split at inbound
    next => exact inbound
    next => exact inbound.of_heard

theorem Heard.joined {α : Type} {logon : Logon} {heard : Dispatch} {result : Except Halt α} (same : Heard dispatch heard)
    (unbound : dispatch.fsm.key = none) (joined : Joined logon venue key heard result reached) :
    InboundLogon key logon dispatch result reached := by
  have store := same.store
  have calls := same.calls
  cases joined.inbound (same.key.trans unbound) with
  | refuses ended target asked => exact .refuses ended (store ▸ target) (calls ▸ asked)
  | abandons renewed stopped asked journal => exact .abandons renewed stopped (calls ▸ asked) (store ▸ journal)
  | resumes kept numbered expected target asked =>
    exact .resumes kept (store ▸ numbered) (store ▸ expected) target (calls ▸ asked)
  | renews renewed expected target asked journal =>
    exact .renews renewed expected target (calls ▸ asked) (store ▸ journal)

theorem Joined.keyed {α : Type} {logon : Logon} {result : Except Halt α}
    (joined : Joined logon venue key dispatch result reached) : logon.For venue key := by
  cases joined with
  | dismissed claim ended sends => exact claim.keyed
  | broken counters claim bind stopped resume count quiet => exact claim.keyed
  | admitted counters claim bind resume count save opens sends => exact claim.keyed

end Hearing

/-- Only one live session serves a key. -/
theorem Orderly.serves_unique {key : SessionKey} {acceptor : Acceptor} {session other : VenueFixSession}
    (orderly : Orderly acceptor) (serves : acceptor.Serves key session) (also : acceptor.Serves key other) :
    other = session := by
  obtain ⟨seat, present, bound⟩ := serves
  obtain ⟨place, seated, held⟩ := also
  have same := orderly.alone present seated ((orderly.sitting present).held bound) ((orderly.sitting seated).held held)
  subst same
  exact Option.some.inj (seated.symm.trans present)

/-- The store never expects more of a key than its live session does. -/
structure Ahead (key : SessionKey) (acceptor : Acceptor) : Prop where
  orderly : Orderly acceptor
  behind : ∀ {session}, acceptor.Serves key session →
    acceptor.store.target key ≤ session.fsm.counters.nextTargetSeq

theorem ahead_new (key : SessionKey) (backend : Backend) (config : SessionConfig) : Ahead key (.new backend config) :=
  ⟨orderly_new backend config, fun ⟨_, seated, _⟩ => nomatch seated⟩

section Running
variable [Ironfix] {U : Upstream} {key : SessionKey} {acceptor next : Acceptor} {action : AcceptorAction}

theorem Ahead.step (ahead : Ahead key acceptor) (taken : acceptor.step U action = some next) : Ahead key next := by
  refine ⟨ahead.orderly.step taken, ?_⟩
  cases ahead.orderly.keyStep taken key with
  | idle sessions slot history calls =>
    intro session serves
    unfold FixSessionStore.target
    rw [slot]
    exact ahead.behind (sessions serves)
  | lost crashed volatile sessions store calls => exact fun serves => absurd serves sessions
  | @served connection room event venue outages session result reached asked present bound outcome turn store calls sessions =>
    intro after serves
    obtain ⟨rfl, reaction, rfl⟩ := sessions serves
    have behind : acceptor.store.target key ≤ session.fsm.counters.nextTargetSeq := ahead.behind ⟨connection, present, bound⟩
    change next.store.target key ≤ reached.expected
    rw [store]
    rcases turn.inbound with still | ⟨message, -, inbound⟩
    · rw [still.expected, still.target]
      exact behind
    cases inbound with
    | stays still =>
      rw [still.expected, still.target]
      exact behind
    | consumes numbered plain expected target calls => exact (target.trans expected.symm).le
    | withholds numbered mutation expected target calls =>
      rw [expected, target]
      exact Nat.le_succ_of_le behind
    | submits numbered mutation call mine stamped expected target calls =>
      rw [expected]
      rcases target with same | ⟨-, -, moved⟩
      · rw [same]
        exact Nat.le_succ_of_le behind
      · exact moved.le
    | fills reset asked gapFill forward expected target calls => exact (target.trans expected.symm).le
    | resets reset asked administrative expected target calls journal => exact (target.trans expected.symm).le
    | breaks stopped target calls => cases stopped.choose_spec
  | @logged connection room event venue outages session result reached logon asked brought present waiting free outcome
      joined store calls sessions =>
    intro after serves
    obtain ⟨rfl, reaction, rfl⟩ := sessions serves
    obtain ⟨seat, -, bound⟩ := serves
    have unbound := (ahead.orderly.sitting present).waiting (by rw [waiting]; rfl)
    change next.store.target key ≤ reached.expected
    rw [store]
    cases (event.heard_same venue (acceptor.load session outages)).joined unbound.1 joined with
    | refuses ended target calls =>
      rcases ended with ⟨halt, wrong⟩ | free
      · cases wrong
      · cases free.symm.trans bound
    | abandons asked stopped calls journal => cases stopped.choose_spec
    | resumes asked numbered expected target calls => exact target.le
    | renews asked expected target calls journal => exact target.le

theorem Ahead.reached {backend : Backend} {config : SessionConfig} {actions : List AcceptorAction} (key : SessionKey)
    (run : runFrom (Acceptor.step U) (.new backend config) actions = some acceptor) : Ahead key acceptor :=
  runFrom_preserved (fun _ _ _ ahead taken => ahead.step taken) (ahead_new key backend config) run

end Running

/-- A step brings a message to the session that serves a key. -/
def Brings [Ironfix] (U : Upstream) (key : SessionKey) (action : AcceptorAction) (acceptor : Acceptor)
    (message : DecodedMessage) (result : Except Halt Reaction) : Prop :=
  ∃ connection session venue outages room, action = .dispatch connection (.message message) venue outages room ∧
    acceptor.sessions connection = some session ∧ session.fsm.key = some key ∧
    (acceptor.outcome U session (.message message) venue outages).1 = result

/-- A step brings a logon for a key. -/
def AcceptorAction.LogsOn (key : SessionKey) (logon : Logon) (action : AcceptorAction) : Prop :=
  ∃ connection event venue outages room, action = .dispatch connection event venue outages room ∧
    event.logon? = some logon ∧ logon.For venue key

/-- The number of a message that a session takes in order. -/
def InOrder (expected : Nat) (message : DecodedMessage) (number : Nat) : Prop :=
  (headerOf message).msgSeqNum = expected ∧ number = expected

/-- The numbers that a gap fill covers from the expected one on. -/
def GapFilled (expected : Nat) (message : DecodedMessage) (number : Nat) : Prop :=
  ∃ reset, message = .sequenceReset reset ∧ reset.gapFillFlag = some true ∧ expected ≤ number ∧ number < reset.newSeqNo

/-- What accounts for the moves of the inbound expectation of a key in one step, in its live session and in the
store. -/
structure Accounted [Ironfix] (U : Upstream) (key : SessionKey) (action : AcceptorAction) (acceptor next : Acceptor) : Prop where
  passes : ∀ {session after number}, acceptor.Serves key session → next.Serves key after →
    session.fsm.counters.nextTargetSeq ≤ number → number < after.fsm.counters.nextTargetSeq →
    (∃ message reaction, Brings U key action acceptor message (.ok reaction) ∧
      (InOrder session.fsm.counters.nextTargetSeq message number ∨
        GapFilled session.fsm.counters.nextTargetSeq message number)) ∨
      Journaled key .sequenceReset acceptor.store next.store
  returns : ∀ {session after}, acceptor.Serves key session → next.Serves key after →
    after.fsm.counters.nextTargetSeq < session.fsm.counters.nextTargetSeq →
    Journaled key .sequenceReset acceptor.store next.store
  resumes : ∀ {after}, (∀ session, ¬ acceptor.Serves key session) → next.Serves key after →
    ∃ logon, action.LogsOn key logon ∧
      (after.fsm.counters.nextTargetSeq = resumedTarget (acceptor.store.slot key).counters logon.header.msgSeqNum ∨
        Journaled key .logonReset acceptor.store next.store)
  saves : ∀ {number}, acceptor.store.target key ≤ number → number < next.store.target key →
    (∃ session, acceptor.Serves key session ∧ number < session.fsm.counters.nextTargetSeq) ∨
      (∃ session message result, acceptor.Serves key session ∧ Brings U key action acceptor message result ∧
        (InOrder session.fsm.counters.nextTargetSeq message number ∨
          GapFilled session.fsm.counters.nextTargetSeq message number)) ∨
      (∃ logon, action.LogsOn key logon ∧ logon.header.msgSeqNum = number ∧ acceptor.store.target key = number) ∨
      (∃ trigger, Journaled key trigger acceptor.store next.store) ∨ action = .crash ∧ acceptor.store.backend = .inMemory
  keeps : next.store.target key < acceptor.store.target key →
    (∃ trigger, Journaled key trigger acceptor.store next.store) ∨
      action = .crash ∧ acceptor.store.backend = .inMemory

section Turns
variable {venue : AppState} {key : SessionKey} {message : DecodedMessage} {heard reached : Dispatch} {number : Nat}

/-- The expectation of a session that goes on passes the number of a message in order, what a gap fill covers, or
what a journaled reset leaves out. -/
theorem InboundTurn.passes {reaction : Reaction} (turn : InboundTurn venue key message heard (.ok reaction : Except Halt Reaction) reached)
    (reaches : heard.expected ≤ number) (passed : number < reached.expected) :
    (InOrder heard.expected message number ∨ GapFilled heard.expected message number) ∨
      Journaled key .sequenceReset heard.store reached.store := by
  cases turn with
  | stays still =>
    have same := still.expected
    omega
  | consumes numbered plain expected target calls => exact Or.inl (Or.inl ⟨numbered, by omega⟩)
  | withholds numbered mutation expected target calls => exact Or.inl (Or.inl ⟨numbered, by omega⟩)
  | submits numbered mutation call mine stamped expected target calls => exact Or.inl (Or.inl ⟨numbered, by omega⟩)
  | fills reset asked gapFill forward expected target calls =>
    exact Or.inl (Or.inr ⟨reset, asked, gapFill, reaches, by omega⟩)
  | resets reset asked administrative expected target calls journal => exact Or.inr journal
  | breaks stopped target calls => cases stopped.choose_spec

theorem InboundTurn.returns {reaction : Reaction} (turn : InboundTurn venue key message heard (.ok reaction : Except Halt Reaction) reached)
    (back : reached.expected < heard.expected) : Journaled key .sequenceReset heard.store reached.store := by
  cases turn with
  | stays still =>
    have same := still.expected
    omega
  | consumes numbered plain expected target calls => omega
  | withholds numbered mutation expected target calls => omega
  | submits numbered mutation call mine stamped expected target calls => omega
  | fills reset asked gapFill forward expected target calls => omega
  | resets reset asked administrative expected target calls journal => exact journal
  | breaks stopped target calls => cases stopped.choose_spec

/-- The store follows the session that it is saved from. -/
theorem InboundTurn.saves {result : Except Halt Reaction} (turn : InboundTurn venue key message heard result reached)
    (reaches : heard.store.target key ≤ number) (passed : number < reached.store.target key) :
    number < heard.expected ∨ (InOrder heard.expected message number ∨ GapFilled heard.expected message number) ∨
      Journaled key .sequenceReset heard.store reached.store := by
  by_cases already : number < heard.expected
  · exact Or.inl already
  refine Or.inr ?_
  cases turn with
  | stays still =>
    have same := still.target
    omega
  | consumes numbered plain expected target calls => exact Or.inl (Or.inl ⟨numbered, by omega⟩)
  | withholds numbered mutation expected target calls => omega
  | submits numbered mutation call mine stamped expected target calls =>
    rcases target with same | ⟨-, -, moved⟩
    · omega
    · exact Or.inl (Or.inl ⟨numbered, by omega⟩)
  | fills reset asked gapFill forward expected target calls =>
    exact Or.inl (Or.inr ⟨reset, asked, gapFill, by omega, by omega⟩)
  | resets reset asked administrative expected target calls journal => exact Or.inr journal
  | breaks stopped target calls => omega

theorem InboundTurn.keeps {result : Except Halt Reaction} (turn : InboundTurn venue key message heard result reached)
    (behind : heard.store.target key ≤ heard.expected) (back : reached.store.target key < heard.store.target key) :
    Journaled key .sequenceReset heard.store reached.store := by
  cases turn with
  | stays still =>
    have same := still.target
    omega
  | consumes numbered plain expected target calls => omega
  | withholds numbered mutation expected target calls => omega
  | submits numbered mutation call mine stamped expected target calls => omega
  | fills reset asked gapFill forward expected target calls => omega
  | resets reset asked administrative expected target calls journal => exact journal
  | breaks stopped target calls => omega

end Turns

section Accounting
variable [Ironfix] {U : Upstream} {key : SessionKey} {acceptor next : Acceptor} {action : AcceptorAction}

/-- Where the numbers stay, there is nothing to account for. -/
theorem Accounted.of_kept
    (sessions : ∀ {session after}, acceptor.Serves key session → next.Serves key after →
      after.fsm.counters.nextTargetSeq = session.fsm.counters.nextTargetSeq)
    (served : ∀ {after}, next.Serves key after → ∃ session, acceptor.Serves key session)
    (target : next.store.target key = acceptor.store.target key) : Accounted U key action acceptor next where
  passes serves also reached passed := by
    rw [sessions serves also] at passed
    omega
  returns serves also back := by
    rw [sessions serves also] at back
    omega
  resumes vacant also := by
    obtain ⟨session, serves⟩ := served also
    exact absurd serves (vacant session)
  saves reached passed := by
    rw [target] at passed
    omega
  keeps back := by
    rw [target] at back
    omega

/-- One step of the acceptor, from a state in which the store is behind the session. -/
theorem Ahead.accounted (ahead : Ahead key acceptor) (taken : acceptor.step U action = some next) :
    Accounted U key action acceptor next := by
  cases ahead.orderly.keyStep taken key with
  | idle sessions slot history calls =>
    refine .of_kept ?_ (fun serves => ⟨_, sessions serves⟩) (congrArg (fun slot => slot.counters.nextTargetSeq) slot)
    intro session after serves also
    rw [ahead.orderly.serves_unique serves (sessions also)]
  | lost crashed volatile sessions store calls =>
    have vacant : ∀ {after}, ¬ next.Serves key after := sessions
    exact ⟨fun _ also => absurd also vacant, fun _ also => absurd also vacant, fun _ also => absurd also vacant,
      fun _ _ => Or.inr (Or.inr (Or.inr (Or.inr ⟨crashed, volatile⟩))), fun _ => Or.inr ⟨crashed, volatile⟩⟩
  | @served connection room event venue outages session result reached asked present bound outcome turn store calls sessions =>
    have serves : acceptor.Serves key session := ⟨connection, present, bound⟩
    have only : ∀ {other}, acceptor.Serves key other → other = session := fun also => ahead.orderly.serves_unique serves also
    rcases turn.inbound with still | ⟨message, rfl, inbound⟩
    · refine .of_kept ?_ (fun _ => ⟨session, serves⟩) (by rw [store]; exact still.target)
      intro other after also later
      rw [only also, (sessions later).1]
      exact still.expected
    have brings : Brings U key action acceptor message result :=
      ⟨connection, session, venue, outages, room, asked, present, bound, by rw [outcome]⟩
    refine ⟨?_, ?_, fun vacant => absurd serves (vacant session), ?_, ?_⟩
    · intro other after number also later reaches passed
      obtain ⟨rfl, reaction, rfl⟩ := sessions later
      rw [only also] at reaches ⊢
      rw [store]
      exact (inbound.passes reaches passed).imp_left fun covered => ⟨message, reaction, brings, covered⟩
    · intro other after also later back
      obtain ⟨rfl, reaction, rfl⟩ := sessions later
      rw [only also] at back
      rw [store]
      exact inbound.returns back
    · intro number reaches passed
      rw [store] at passed ⊢
      rcases inbound.saves reaches passed with already | covered | journal
      · exact Or.inl ⟨session, serves, already⟩
      · exact Or.inr (Or.inl ⟨session, message, result, serves, brings, covered⟩)
      · exact Or.inr (Or.inr (Or.inr (Or.inl ⟨_, journal⟩)))
    · intro back
      rw [store] at back ⊢
      exact Or.inl ⟨_, inbound.keeps (ahead.behind serves) back⟩
  | @logged connection room event venue outages session result reached logon asked brought present waiting free outcome
      joined store calls sessions =>
    have unbound := (ahead.orderly.sitting present).waiting (by rw [waiting]; rfl)
    have same := event.heard_same venue (acceptor.load session outages)
    have logs : action.LogsOn key logon := ⟨connection, event, venue, outages, room, asked, brought, joined.keyed⟩
    have inbound := same.joined unbound.1 joined
    refine ⟨fun also => absurd also free, fun also => absurd also free, ?_, ?_, ?_⟩
    · intro after _ later
      obtain ⟨rfl, reaction, rfl⟩ := sessions later
      obtain ⟨seat, -, bound⟩ := later
      rw [store]
      refine ⟨logon, logs, ?_⟩
      cases inbound with
      | refuses ended target calls =>
        rcases ended with ⟨halt, wrong⟩ | free
        · cases wrong
        · cases free.symm.trans bound
      | abandons asked stopped calls journal => exact Or.inr journal
      | resumes asked numbered expected target calls => exact Or.inl expected
      | renews asked expected target calls journal => exact Or.inr journal
    · intro number reaches passed
      rw [store] at passed ⊢
      refine Or.inr (Or.inr ?_)
      cases inbound with
      | refuses ended target calls => exact absurd (target ▸ passed) (not_lt.2 reaches)
      | abandons asked stopped calls journal => exact Or.inr (Or.inl ⟨_, journal⟩)
      | renews asked expected target calls journal => exact Or.inr (Or.inl ⟨_, journal⟩)
      | resumes asked numbered expected target calls =>
        refine Or.inl ⟨logon, logs, ?_⟩
        rw [target, expected, resumedTarget] at passed
        split at passed
        next own =>
          have last : acceptor.store.target key = number := Nat.le_antisymm reaches (Nat.le_of_lt_succ passed)
          exact ⟨own.trans last, last⟩
        next => exact absurd passed (not_lt.2 reaches)
    · intro back
      rw [store] at back ⊢
      cases inbound with
      | refuses ended target calls => exact absurd (target ▸ back) (lt_irrefl _)
      | abandons asked stopped calls journal => exact Or.inl ⟨_, journal⟩
      | renews asked expected target calls journal => exact Or.inl ⟨_, journal⟩
      | resumes asked numbered expected target calls =>
        rw [target, expected, resumedTarget] at back
        split at back
        next own => exact absurd back (not_lt.2 (Nat.le_succ _))
        next => exact absurd back (lt_irrefl _)

/-- In every step of every run, whatever the messages, outages, disconnects and crashes: the expectation of a
session passes a number only when the message with that number is taken in order, when a gap fill covers it,
whatever number the gap fill itself carries, or together with a journaled reset, and it goes back only together
with one. A logon resumes what the store expects, or renews it and is journaled, and the store follows its
sessions. -/
theorem inbound_accounted (key : SessionKey) (backend : Backend) (config : SessionConfig) (actions : List AcceptorAction)
    (run : runFrom (Acceptor.step U) (.new backend config) actions = some acceptor)
    (taken : acceptor.step U action = some next) : Accounted U key action acceptor next :=
  (Ahead.reached key run).accounted taken

end Accounting

/-- A gap fill counts only where its own number is the expected one. -/
def InOrderOnly [Ironfix] (U : Upstream) (key : SessionKey) (action : AcceptorAction) (acceptor next : Acceptor) : Prop :=
  ∀ session after number, acceptor.Serves key session → next.Serves key after →
    session.fsm.counters.nextTargetSeq ≤ number → number < after.fsm.counters.nextTargetSeq →
    ∃ message reaction, Brings U key action acceptor message (.ok reaction) ∧
      (InOrder session.fsm.counters.nextTargetSeq message number ∨
        GapFilled session.fsm.counters.nextTargetSeq message number ∧
          (headerOf message).msgSeqNum = session.fsm.counters.nextTargetSeq)

def admittedAlice : List AcceptorAction := [.accept 0 "10.0.0.1" 0, aliceSends (aliceLogon 1)]

/-- A gap fill up to five, under the number nine. -/
def earlyGapFill : DecodedMessage := .sequenceReset ⟨aliceHeader 9, 5, some true⟩

/-- The expectation of the session at the first connection. -/
def expectedAtFirst (acceptor : Acceptor) : Option (Option SessionKey × Nat) :=
  (acceptor.sessions 0).map fun session => (session.fsm.key, session.fsm.counters.nextTargetSeq)

theorem expectedAtFirst_serves {acceptor : Acceptor} {key : SessionKey} {expected : Nat}
    (first : expectedAtFirst acceptor = some (some key, expected)) :
    ∃ session, acceptor.Serves key session ∧ session.fsm.counters.nextTargetSeq = expected := by
  obtain ⟨session, present, same⟩ := Option.map_eq_some_iff.1 first
  obtain ⟨bound, counted⟩ := Prod.mk.inj same
  exact ⟨session, ⟨0, present, bound⟩, counted⟩

theorem earlyGapFill_moves : ((runFrom referenceStep (.new .postgres ⟨30000, 60⟩) admittedAlice).bind fun acceptor =>
    (referenceStep acceptor (aliceSends earlyGapFill)).map fun next => (expectedAtFirst acceptor, expectedAtFirst next)) =
    some (some (some aliceKey, 2), some (some aliceKey, 5)) := by decide +kernel

theorem earlyGapFill_accounted : ∃ acceptor next,
    runFrom referenceStep (.new .postgres ⟨30000, 60⟩) admittedAlice = some acceptor ∧
      referenceStep acceptor (aliceSends earlyGapFill) = some next ∧ expectedAtFirst next = some (some aliceKey, 5) ∧
      @Accounted referenceWire referenceUpstream aliceKey (aliceSends earlyGapFill) acceptor next := by
  obtain ⟨acceptor, run, rest⟩ := Option.bind_eq_some_iff.1 earlyGapFill_moves
  obtain ⟨next, taken, same⟩ := Option.map_eq_some_iff.1 rest
  exact ⟨acceptor, next, run, taken, (Prod.mk.inj same).2,
    @inbound_accounted referenceWire _ _ _ _ aliceKey _ _ _ run taken⟩

theorem earlyGapFill_skips : ∃ acceptor next,
    runFrom referenceStep (.new .postgres ⟨30000, 60⟩) admittedAlice = some acceptor ∧
      referenceStep acceptor (aliceSends earlyGapFill) = some next ∧
      ¬ @InOrderOnly referenceWire referenceUpstream aliceKey (aliceSends earlyGapFill) acceptor next := by
  obtain ⟨acceptor, run, rest⟩ := Option.bind_eq_some_iff.1 earlyGapFill_moves
  obtain ⟨next, taken, same⟩ := Option.map_eq_some_iff.1 rest
  obtain ⟨before, later⟩ := Prod.mk.inj same
  obtain ⟨session, serves, expected⟩ := expectedAtFirst_serves before
  obtain ⟨after, also, reached⟩ := expectedAtFirst_serves later
  refine ⟨acceptor, next, run, taken, fun inOrder => ?_⟩
  obtain ⟨message, reaction, ⟨_, _, _, _, _, asked, -⟩, covered⟩ :=
    inOrder session after 3 serves also (by omega) (by omega)
  cases asked
  rw [expected] at covered
  rcases covered with ⟨numbered, -⟩ | ⟨-, numbered⟩ <;> cases numbered

end Fauxchange.Fix
