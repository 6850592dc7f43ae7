import Fauxchange.Fix.Refused

/-! The deferred consumption of a submitted mutation: the store expects its number again until its exchange effect
is committed. -/

namespace Fauxchange.Fix
open Exchange Lib Fallible FixSessionStore

/-- The numbers that a step submits without an effect that it knows to be committed. -/
def Acceptor.opened (acceptor : Acceptor) (action : AcceptorAction) (next : Acceptor) : List (SessionKey × Nat) :=
  match acceptor.keyAt action with
  | some key => ((acceptor.fresh key next).filter fun call => call.accepted ≠ some true).map fun call => (key, call.stamp.msgSeq)
  | none => []

theorem mem_opened {acceptor next : Acceptor} {action : AcceptorAction} {key : SessionKey} {number : Nat}
    (member : (key, number) ∈ acceptor.opened action next) :
    ∃ call ∈ acceptor.fresh key next, call.accepted ≠ some true ∧ call.stamp.msgSeq = number := by
  unfold Acceptor.opened at member
  split at member
  next =>
    obtain ⟨call, fresh, same⟩ := List.mem_map.1 member
    obtain ⟨fresh, unaccepted⟩ := List.mem_filter.1 fresh
    cases same
    exact ⟨call, fresh, of_decide_eq_true unaccepted, rfl⟩
  next => cases member

/-- A step submits a number and its effect is committed. -/
def Acceptor.settles (acceptor : Acceptor) (next : Acceptor) (entry : SessionKey × Nat) : Bool :=
  (acceptor.fresh entry.1 next).any fun call => call.stamp.msgSeq = entry.2 ∧ call.accepted = some true

/-- An acceptor with the numbers that have been submitted without a committed effect. -/
structure DeferralWatch where
  acceptor : Acceptor
  pending : List (SessionKey × Nat)

/-- A step of the acceptor, or the exchange commits an effect whose answer the session did not get. -/
inductive DeferralAction where
  | takes (action : AcceptorAction)
  | commits (key : SessionKey) (number : Nat)

def DeferralAction.taken? : DeferralAction → Option AcceptorAction
  | takes action => some action
  | commits _ _ => none

/-- A step leaves a pending number to be resent: no logon resumes past it, no sequence reset passes it, and no
message after it is taken in order, but a mutation of which the exchange commits nothing. -/
structure Acceptor.Awaits (acceptor : Acceptor) (key : SessionKey) (number : Nat) (action : AcceptorAction) : Prop where
  logons : ∀ logon, acceptor.Resumes key logon action →
    resumedTarget (acceptor.store.slot key).counters logon.header.msgSeqNum ≤ number
  resets : ∀ session reset venue, acceptor.Hands key session (.sequenceReset reset) venue action →
    reset.newSeqNo ≤ number ∨ reset.gapFillFlag = some true ∧ reset.newSeqNo < session.fsm.counters.nextTargetSeq
  messages : ∀ session message venue, acceptor.Hands key session message venue action →
    (∀ reset, message ≠ .sequenceReset reset) → (headerOf message).msgSeqNum = session.fsm.counters.nextTargetSeq → (headerOf message).msgSeqNum < number ∨
      Defers session.fsm message ∧ ((headerOf message).msgSeqNum = number ∨ venue.Declines)
  crashes : action = .crash → acceptor.store.backend = .inMemory → firstSeqNum ≤ number

namespace DeferralWatch

def new (backend : Backend) (config : SessionConfig) : DeferralWatch := ⟨.new backend config, []⟩

def step [Ironfix] (U : Upstream) (watch : DeferralWatch) : DeferralAction → Option DeferralWatch
  | .takes action =>
    (watch.acceptor.step U action).map fun next =>
      { acceptor := next
        pending := (watch.pending.filter fun entry => watch.acceptor.store.stands entry.1 entry.2 next.store ∧
            ¬ watch.acceptor.settles next entry) ++ watch.acceptor.opened action next }
  | .commits key number => some { watch with pending := watch.pending.filter fun entry => entry ≠ (key, number) }

/-- A step leaves every pending number to be resent. -/
def AwaitsAll (watch : DeferralWatch) : DeferralAction → Prop
  | .takes action => ∀ entry ∈ watch.pending, watch.acceptor.Awaits entry.1 entry.2 action
  | .commits _ _ => True

/-- The store expects every pending number again, or an earlier one. -/
structure Deferred (watch : DeferralWatch) : Prop where
  ahead : ∀ key, Ahead key watch.acceptor
  expects : ∀ {key number}, (key, number) ∈ watch.pending → watch.acceptor.store.target key ≤ number

theorem deferred_new (backend : Backend) (config : SessionConfig) : Deferred (new backend config) :=
  ⟨fun key => ahead_new key backend config, fun member => nomatch member⟩

section Steps
variable [Ironfix] {U : Upstream} {watch : DeferralWatch} {action : AcceptorAction} {next : Acceptor} {key : SessionKey}
  {number : Nat}

/-- A pending number that stays pending is still expected. -/
theorem Deferred.kept (deferred : watch.Deferred) (taken : watch.acceptor.step U action = some next)
    (member : (key, number) ∈ watch.pending) (awaits : watch.acceptor.Awaits key number action)
    (stands : watch.acceptor.store.stands key number next.store = true)
    (unsettled : watch.acceptor.settles next (key, number) = false) : next.store.target key ≤ number := by
  have expects := deferred.expects member
  cases (deferred.ahead key).orderly.keyMove taken key with
  | idle sessions target fresh => exact target.le.trans expects
  | lost crashed volatile sessions fresh =>
    subst crashed
    simp only [Acceptor.step, Option.some.injEq] at taken
    subst taken
    have renewed : watch.acceptor.store.restarted = .new .inMemory := by simp only [FixSessionStore.restarted, volatile]
    change watch.acceptor.store.restarted.target key ≤ number
    rw [renewed, FixSessionStore.target, slot_new]
    exact awaits.crashes rfl volatile
  | @turned connection room venue outages message session result reached asked present bound outcome turn store calls sessions =>
    have hands : watch.acceptor.Hands key session message venue action := ⟨connection, outages, room, asked, present, bound⟩
    rw [store]
    cases turn with
    | stays still => exact still.target.le.trans expects
    | consumes numbered plain expected target same =>
      rcases awaits.messages session message venue hands plain.ordinary numbered with earlier | ⟨mutation, -⟩
      · rw [target, ← numbered]
        exact earlier
      · exact absurd mutation plain.handled
    | withholds numbered mutation expected target same => exact target.le.trans expects
    | submits numbered mutation call mine stamped expected target called =>
      rcases target with same | ⟨accepted, willing, moved⟩
      · exact same.le.trans expects
      · rcases awaits.messages session message venue hands mutation.ordinary numbered with earlier | ⟨-, own | declines⟩
        · rw [moved, ← numbered]
          exact earlier
        · have settled : watch.acceptor.settles next (key, number) = true := by
            unfold Acceptor.settles
            rw [fresh_append mine (calls.trans called)]
            simp [accepted, stamped, ← numbered, own]
          rw [settled] at unsettled
          cases unsettled
        · exact absurd declines willing
    | fills reset asked' gapFill forward expected target same =>
      subst asked'
      rcases awaits.resets session reset venue hands with below | ⟨-, behind⟩
      · rw [target]
        exact below
      · exact absurd behind (not_lt.2 forward)
    | resets reset asked' administrative expected target same journal =>
      subst asked'
      rcases awaits.resets session reset venue hands with below | ⟨gapFill, -⟩
      · rw [target]
        exact below
      · exact absurd gapFill administrative
    | breaks stopped target same => exact target.le.trans expects
  | @logged connection room event venue outages session result reached logon asked brought present waiting keyed free inbound
      store fresh sessions =>
    rw [store] at stands ⊢
    cases inbound with
    | refuses ended target calls => exact target.le.trans expects
    | abandons renewed stopped calls journal => cases (not_stands_logon journal).symm.trans stands
    | renews renewed expected target calls journal => cases (not_stands_logon journal).symm.trans stands
    | resumes kept numbered expected target calls =>
      rw [target, expected]
      exact awaits.logons logon ⟨connection, session, event, venue, outages, room, asked, present, waiting, brought, keyed,
        kept, fun _ => free, numbered⟩

/-- A number that a step submits in vain is expected again. -/
theorem Deferred.opened (deferred : watch.Deferred) (taken : watch.acceptor.step U action = some next)
    (member : (key, number) ∈ watch.acceptor.opened action next) : next.store.target key ≤ number := by
  obtain ⟨call, fresh, unaccepted, rfl⟩ := mem_opened member
  cases (deferred.ahead key).orderly.keyMove taken key with
  | idle sessions target none => rw [none] at fresh; cases fresh
  | lost crashed volatile sessions none => rw [none] at fresh; cases fresh
  | logged asked brought present waiting keyed free inbound store none sessions => rw [none] at fresh; cases fresh
  | @turned connection room venue outages message session result reached asked present bound outcome turn store calls sessions =>
    have silent : reached.calls = (watch.acceptor.load session outages).calls → False := by
      intro same
      rw [fresh_same (congrArg (callsOf key) (calls.trans same))] at fresh
      cases fresh
    rw [store]
    cases turn with
    | submits numbered mutation own mine stamped expected target called =>
      rw [fresh_append mine (calls.trans called)] at fresh
      obtain rfl := List.mem_singleton.1 fresh
      rcases target with same | ⟨accepted, -⟩
      · rw [same, stamped]
        exact (deferred.ahead key).behind ⟨connection, present, bound⟩
      · exact absurd accepted unaccepted
    | stays still => exact (silent still.calls).elim
    | consumes numbered plain expected target same => exact (silent same).elim
    | withholds numbered mutation expected target same => exact (silent same).elim
    | fills reset asked' gapFill forward expected target same => exact (silent same).elim
    | resets reset asked' administrative expected target same journal => exact (silent same).elim
    | breaks stopped target same => exact (silent same).elim

theorem Deferred.step {act : DeferralAction} {later : DeferralWatch} (deferred : watch.Deferred) (awaits : watch.AwaitsAll act)
    (taken : watch.step U act = some later) : later.Deferred := by
  cases act with
  | commits key number =>
    cases taken
    exact ⟨deferred.ahead, fun member => deferred.expects (List.mem_filter.1 member).1⟩
  | takes action =>
    obtain ⟨next, moved, rfl⟩ := Option.map_eq_some_iff.1 taken
    refine ⟨fun key => (deferred.ahead key).step moved, fun {key number} member => ?_⟩
    rcases List.mem_append.1 member with old | fresh
    · obtain ⟨member, stays⟩ := List.mem_filter.1 old
      obtain ⟨stands, unsettled⟩ := of_decide_eq_true stays
      exact deferred.kept moved member (awaits _ member) stands (Bool.eq_false_iff.2 unsettled)
    · exact deferred.opened moved fresh

end Steps

end DeferralWatch

section Running
variable [Ironfix] {U : Upstream}

/-- In every run that leaves its pending numbers to be resent, whatever fails and crashes: the durable expectation
exceeds the number of a submitted mutation only once its effect is committed. -/
theorem pending_expected (backend : Backend) (config : SessionConfig) (actions : List DeferralAction) (watch : DeferralWatch)
    (awaits : Throughout (DeferralWatch.step U) DeferralWatch.AwaitsAll (.new backend config) actions)
    (run : runFrom (DeferralWatch.step U) (.new backend config) actions = some watch)
    (key : SessionKey) (number : Nat) (member : (key, number) ∈ watch.pending) :
    watch.acceptor.store.target key ≤ number := by
  have deferred : watch.Deferred :=
    runFrom_invariant (fun _ _ _ deferred awaits taken => deferred.step awaits taken)
      (DeferralWatch.deferred_new backend config) awaits run
  exact deferred.expects member

end Running

/-- A step of no bound session leaves a pending number alone, unless a logon resumes past it. -/
theorem Acceptor.awaits_of_unbound {acceptor : Acceptor} {key : SessionKey} {number : Nat} {action : AcceptorAction}
    (unbound : acceptor.keyAt action = none) (durable : acceptor.store.backend = .postgres)
    (logons : ∀ logon ∈ action.logon?, resumedTarget (acceptor.store.slot key).counters logon.header.msgSeqNum ≤ number) :
    acceptor.Awaits key number action := by
  have unhanded : ∀ session message venue, ¬ acceptor.Hands key session message venue action := by
    rintro session message venue ⟨connection, outages, room, rfl, present, bound⟩
    rw [Acceptor.keyAt, present, Option.bind_some, bound] at unbound
    cases unbound
  refine ⟨?_, fun session reset venue hands => absurd hands (unhanded _ _ _),
    fun session message venue hands => absurd hands (unhanded _ _ _), fun _ volatile => ?_⟩
  · rintro logon ⟨connection, session, event, venue, outages, room, rfl, -, -, brought, -⟩
    exact logons logon brought
  · cases durable.symm.trans volatile

/-- The journal of the exchange is unavailable. -/
def failingVenue : AppState := { aliceVenue with submit := fun _ _ => some (.error .journalUnavailable) }

def failedOrder : List DeferralAction :=
  [.takes (.accept 0 "10.0.0.1" 0), .takes (aliceSends (aliceLogon 1)),
    .takes (.dispatch 0 (.message aliceOrder) failingVenue [] 16)]

/-- The session comes back, and the venue waits for the order again. -/
def resumedAfterFailure : List DeferralAction :=
  failedOrder ++ [.takes (.disconnect 0), .takes (.accept 0 "10.0.0.1" 0), .takes (aliceSends (aliceLogon 3))]

/-- The session goes on with a heartbeat. -/
def heartbeatAfterFailure : List DeferralAction :=
  failedOrder ++ [.takes (aliceSends (.heartbeat ⟨aliceHeader 3, none⟩))]

abbrev referenceDeferrals := @DeferralWatch.step referenceWire referenceUpstream

theorem resumedAfterFailure_expected : ∃ watch,
    runFrom referenceDeferrals (.new .postgres ⟨30000, 60⟩) resumedAfterFailure = some watch ∧
      watch.pending = [(aliceKey, 2)] ∧ watch.acceptor.store.target aliceKey ≤ 2 := by
  have left : (runFrom referenceDeferrals (.new .postgres ⟨30000, 60⟩) resumedAfterFailure).map DeferralWatch.pending =
      some [(aliceKey, 2)] := by decide +kernel
  have unbound : Throughout referenceDeferrals (fun watch act => ∀ action ∈ act.taken?, ∀ entry ∈ watch.pending,
      watch.acceptor.keyAt action = none ∧ watch.acceptor.store.backend = .postgres ∧ ∀ logon ∈ action.logon?,
        resumedTarget (watch.acceptor.store.slot entry.1).counters logon.header.msgSeqNum ≤ entry.2)
      (.new .postgres ⟨30000, 60⟩) resumedAfterFailure := by decide +kernel
  obtain ⟨watch, run, pending⟩ := Option.map_eq_some_iff.1 left
  refine ⟨watch, run, pending, @pending_expected referenceWire _ _ _ _ watch (unbound.weaken ?_) run aliceKey 2 ?_⟩
  · intro watch act quiet
    cases act with
    | commits key number => trivial
    | takes action =>
      intro entry member
      obtain ⟨unbound, durable, logons⟩ := quiet action rfl entry member
      exact Acceptor.awaits_of_unbound unbound durable logons
  · rw [pending]
    exact List.mem_singleton_self _

theorem heartbeatAfterFailure_skips : ∃ watch,
    runFrom referenceDeferrals (.new .postgres ⟨30000, 60⟩) heartbeatAfterFailure = some watch ∧
      watch.acceptor.calls.map ExchangeCall.accepted = [some false] ∧ (aliceKey, 2) ∈ watch.pending ∧
      ¬ watch.acceptor.store.target aliceKey ≤ 2 := by
  have skipped : (runFrom referenceDeferrals (.new .postgres ⟨30000, 60⟩) heartbeatAfterFailure).map (fun watch =>
      (watch.acceptor.calls.map ExchangeCall.accepted, watch.pending, watch.acceptor.store.target aliceKey)) =
      some ([some false], [(aliceKey, 2)], 4) := by decide +kernel
  obtain ⟨watch, run, same⟩ := Option.map_eq_some_iff.1 skipped
  obtain ⟨refused, rest⟩ := Prod.mk.inj same
  obtain ⟨pending, target⟩ := Prod.mk.inj rest
  refine ⟨watch, run, refused, ?_, ?_⟩
  · rw [pending]
    exact List.mem_singleton_self _
  · rw [target]
    decide

end Fauxchange.Fix
