import Fauxchange.Fix.KeyMoves

/-! A message that is refused before anything is submitted, and what a later resend of it meets. -/

namespace Fauxchange.Fix
open Exchange Lib Fallible FixSessionStore

/-- Where a handler finishes, the message is consumed. -/
def Consumes (m : SessionM Reaction) (dispatch : Dispatch) : Prop :=
  ∀ reaction reached, exec m dispatch = (.ok reaction, reached) → reached.expected = dispatch.expected + 1

section Consumption
variable {venue : AppState} {key : SessionKey} {message : DecodedMessage} {dispatch : Dispatch}

theorem speaks_all (dispatch : Dispatch) : Speaks (fun _ => True) dispatch :=
  ⟨fun _ _ _ => trivial, fun _ _ _ _ => trivial⟩

theorem Yields.expected {α : Type} {shown : α → List Frame} {m : SessionM α} (yields : Yields (fun _ => True) shown m)
    (dispatch : Dispatch) : (exec m dispatch).2.expected = dispatch.expected :=
  congrArg Standing.inbound (yields dispatch (speaks_all dispatch)).1.standing

theorem Submits.expected {seq : Nat} {reached : Dispatch} (submits : Submits venue key seq dispatch reached) :
    reached.expected = dispatch.expected := by
  cases submits with
  | withheld sends => exact congrArg Standing.inbound sends.standing
  | @called middle call mine moved after =>
    have first : middle.expected = dispatch.expected := congrArg Standing.inbound moved.standing
    exact (congrArg Standing.inbound after.standing).trans first
  | @committed middle rendered saved call mine accepted willing moved render save after =>
    have first : middle.expected = dispatch.expected := congrArg Standing.inbound moved.standing
    have second : rendered.expected = middle.expected := congrArg Standing.inbound render.standing
    have last : reached.expected = saved.expected := congrArg Standing.inbound after.standing
    rw [last, save.expected, second, first]

/-- A reply, then the consumption. -/
theorem Yields.consumes {m : SessionM Reaction} (yields : Yields (fun _ => True) Reaction.frames m)
    (bound : dispatch.fsm.key = some key) :
    Consumes (do
      let reaction ← m
      consumeInbound
      Pure.pure reaction) dispatch := by
  intro reaction reached finished
  have standing := (yields dispatch (speaks_all dispatch)).1.standing
  rw [exec_bind] at finished
  revert finished standing
  rcases exec m dispatch with ⟨halt | replied, middle⟩
  · nofun
  · intro finished standing
    have held : middle.fsm.key = some key := (congrArg Standing.key standing).trans bound
    have start : middle.expected = dispatch.expected := congrArg Standing.inbound standing
    dsimp only at finished
    rcases consumeInbound_run held with ⟨halt, ran⟩ | ⟨advanced, advance, ⟨halt, stopped, ran, -⟩ | ⟨saved, left, ran, save, quiet⟩⟩
    · rw [exec_bind_error ran] at finished
      cases finished
    · rw [exec_bind_error ran] at finished
      cases finished
    · rw [exec_bind_ok ran] at finished
      cases finished
      have last : reached.expected = saved.expected := congrArg Standing.inbound quiet.standing
      rw [last, save.expected, advance.2.expected]
      exact congrArg (· + 1) start

/-- The consumption, then a reply. -/
theorem Yields.consumed_consumes {m : SessionM Reaction} (yields : Yields (fun _ => True) Reaction.frames m)
    (bound : dispatch.fsm.key = some key) :
    Consumes (do
      consumeInbound
      m) dispatch := by
  intro reaction reached finished
  rcases consumeInbound_run bound with ⟨halt, ran⟩ | ⟨advanced, advance, ⟨halt, stopped, ran, -⟩ | ⟨saved, left, ran, save, quiet⟩⟩
  · rw [exec_bind_error ran] at finished
    cases finished
  · rw [exec_bind_error ran] at finished
    cases finished
  · rw [exec_bind_ok ran] at finished
    have replied := yields.expected left
    rw [finished] at replied
    have last : left.expected = saved.expected := congrArg Standing.inbound quiet.standing
    rw [replied, last, save.expected, advance.2.expected]
    rfl

/-- The consumption in memory, then the route of a mutation. -/
theorem Routes.consumes {seq : Nat} {m : SessionM Reaction} (routes : Routes venue (fun _ => True) key seq m)
    (bound : dispatch.fsm.key = some key) :
    Consumes (do
      advanceInboundInMemory
      m) dispatch := by
  intro reaction reached finished
  rcases advanceInboundInMemory_run dispatch with ⟨halt, ran⟩ | ⟨advanced, ran, advance⟩
  · rw [exec_bind_error ran] at finished
    cases finished
  · rw [exec_bind_ok ran] at finished
    have held : advanced.fsm.key = some key := (congrArg Standing.key advance.2.standing).trans bound
    have submits := (routes advanced held (speaks_all advanced)).1
    rw [finished] at submits
    have first : reached.expected = advanced.expected := submits.expected
    rw [first]
    exact advance.2.expected

variable [Ironfix] {U : Upstream}

/-- An application message in order is consumed where it is answered, whatever the answer. -/
theorem gateApplication_consumes (bound : dispatch.fsm.key = some key) :
    Consumes (gateApplication message venue.nowMs >>= respond U venue) dispatch := by
  unfold Consumes
  rw [gateApplication_respond]
  split
  next => exact permissionReject_yields.consumes bound
  next =>
    split
    next => exact sessionReject_yields.consumes bound
    next =>
      split
      next mutation => exact (routeOrder_routes mutation).consumes bound
      next read => exact (routeOrder_yields (by simpa using read)).consumed_consumes bound

theorem handleInSequence_consumes (bound : dispatch.fsm.key = some key)
    (expected : (headerOf message).msgSeqNum = dispatch.expected) :
    Consumes (handleInSequence message venue.nowMs >>= respond U venue) dispatch := by
  have reaches : ¬ dispatch.fsm.counters.nextTargetSeq < (headerOf message).msgSeqNum := not_lt.2 expected.le
  have fresh : ¬ (headerOf message).msgSeqNum < dispatch.fsm.counters.nextTargetSeq := not_lt.2 expected.ge
  unfold Consumes
  rw [handleInSequence_respond, if_neg reaches, if_neg fresh]
  split
  next => exact gateApplication_consumes bound
  next => exact dispatchActiveBody_yields.consumes bound

/-- A session that is logged out closes. -/
theorem logoutClose_control {now : Nat} {reason : String} {reaction : Reaction} {reached : Dispatch}
    (finished : exec (logoutClose now reason) dispatch = (.ok reaction, reached)) : reaction.control = .close := by
  unfold logoutClose setFsm at finished
  rw [exec_modify_bind] at finished
  obtain ⟨frame, middle, -, finished⟩ := exec_bind_eq_ok finished
  cases finished
  rfl

/-- The pending market data neither consumes nor closes, and it follows the answer. -/
theorem appendMarketData_keeps {reaction shown : Reaction} {now : Nat} {reached : Dispatch}
    (finished : exec (appendMarketData venue reaction now) dispatch = (.ok shown, reached)) :
    shown.control = reaction.control ∧ reached.expected = dispatch.expected ∧
      ∃ later, shown.frames = reaction.frames ++ later := by
  have yields : Yields (fun _ => True) Reaction.frames (appendMarketData venue reaction now) :=
    appendMarketData_yields fun _ _ => trivial
  have expected := yields.expected dispatch
  rw [finished] at expected
  have appended : shown.control = reaction.control ∧ ∃ later, shown.frames = reaction.frames ++ later := by
    unfold appendMarketData at finished
    rw [exec_get_bind] at finished
    split at finished
    next =>
      cases finished
      exact ⟨rfl, [], (List.append_nil _).symm⟩
    next =>
      obtain ⟨frames, middle, -, finished⟩ := exec_bind_eq_ok finished
      cases finished
      exact ⟨rfl, frames, rfl⟩
  exact ⟨appended.1, expected, appended.2⟩

/-- What becomes of a message once it is heard in a session that has not been revoked. -/
def answerHeard (U : Upstream) (venue : AppState) : DecodedMessage → SessionM Reaction
  | .sequenceReset reset => handleSequenceReset reset venue.nowMs
  | message => handleInSequence message venue.nowMs >>= respond U venue

theorem answerHeard_ordinary (ordinary : ∀ reset, message ≠ .sequenceReset reset) :
    answerHeard U venue message = (handleInSequence message venue.nowMs >>= respond U venue) := by
  cases message with
  | sequenceReset reset => exact absurd rfl (ordinary reset)
  | _ => rfl

/-- A session that serves its messages closes, or answers what it has heard. -/
theorem onMessage_serving (serving : dispatch.fsm.phase.stage = 1) {reaction : Reaction} {reached : Dispatch}
    (finished : exec (onMessage U venue message) dispatch = (.ok reaction, reached)) :
    reaction.control = .close ∨ ∃ replied middle,
      exec (answerHeard U venue message) (dispatch.heard (headerOf message) venue.nowMs) = (.ok replied, middle) ∧
        reaction.control = replied.control ∧ reached.expected = middle.expected ∧
        ∃ later, reaction.frames = replied.frames ++ later := by
  unfold onMessage at finished
  obtain ⟨replied, middle, handled, finished⟩ := exec_bind_eq_ok finished
  have appended := appendMarketData_keeps finished
  rw [reactTo_serving serving] at handled
  unfold handleActive onInbound setFsm at handled
  rw [bind_assoc, exec_modify_bind] at handled
  cases revoked : dispatch.revoked venue with
  | true =>
    rw [revoked] at handled
    simp only [if_true, bind_assoc, pure_bind, bind_pure, respond] at handled
    exact Or.inl (appended.1.trans (logoutClose_control handled))
  | false =>
    rw [revoked] at handled
    simp only [Bool.false_eq_true, if_false] at handled
    refine Or.inr ⟨replied, middle, ?_, appended⟩
    cases message with
    | sequenceReset reset =>
      simp only [bind_assoc, pure_bind, bind_pure, respond] at handled
      exact handled
    | _ => exact handled

/-- A message in order, in a session that serves its messages. A sequence reset is taken whatever its number. -/
theorem onMessage_consumes (bound : dispatch.fsm.key = some key) (serving : dispatch.fsm.phase.stage = 1)
    (ordinary : ∀ reset, message ≠ .sequenceReset reset) (expected : (headerOf message).msgSeqNum = dispatch.expected)
    {reaction : Reaction} {reached : Dispatch} (finished : exec (onMessage U venue message) dispatch = (.ok reaction, reached)) :
    reaction.control = .close ∨ reached.expected = dispatch.expected + 1 := by
  refine (onMessage_serving serving finished).imp_right ?_
  rintro ⟨replied, middle, handled, -, same, -⟩
  rw [answerHeard_ordinary ordinary] at handled
  have consumes : Consumes (handleInSequence message venue.nowMs >>= respond U venue)
      (dispatch.heard (headerOf message) venue.nowMs) := handleInSequence_consumes bound expected
  exact same.trans (consumes _ _ handled)

end Consumption

/-- A reply that turns a mutation down. -/
def Frame.refuses : Frame → Bool
  | .message (.executionReport report) => report.ordStatus = .rejected
  | .message (.orderCancelReject _) => true
  | .message (.orderMassCancelReport report) => report.massCancelResponse = .rejected
  | _ => false

/-- The number of a mutation that a step takes in order and turns down without a submission. -/
def Acceptor.refusal [Ironfix] (U : Upstream) (acceptor : Acceptor) : AcceptorAction → Option (SessionKey × Nat)
  | .dispatch connection (.message message) venue outages _ => do
    let session ← acceptor.sessions connection
    let key ← session.fsm.key
    let outcome := acceptor.outcome U session (.message message) venue outages
    if isOrderEntryMutation message ∧ (headerOf message).msgSeqNum = session.fsm.counters.nextTargetSeq ∧
        outcome.2.calls = acceptor.calls ∧ (shownFrames outcome.1).any Frame.refuses then
      some (key, (headerOf message).msgSeqNum)
    else none
  | _ => none

theorem refusal_eq_some [Ironfix] {U : Upstream} {acceptor : Acceptor} {action : AcceptorAction} {key : SessionKey}
    {number : Nat} (refusal : acceptor.refusal U action = some (key, number)) :
    ∃ connection message venue outages room session, action = .dispatch connection (.message message) venue outages room ∧
      acceptor.sessions connection = some session ∧ session.fsm.key = some key ∧ isOrderEntryMutation message = true ∧
      (headerOf message).msgSeqNum = session.fsm.counters.nextTargetSeq ∧ (headerOf message).msgSeqNum = number ∧
      (shownFrames (acceptor.outcome U session (.message message) venue outages).1).any Frame.refuses = true := by
  unfold Acceptor.refusal at refusal
  split at refusal
  next connection message venue outages room =>
    obtain ⟨session, present, rest⟩ := Option.bind_eq_some_iff.1 refusal
    obtain ⟨bound, held, rest⟩ := Option.bind_eq_some_iff.1 rest
    dsimp only at rest
    split at rest
    next turned =>
      cases rest
      exact ⟨connection, message, venue, outages, room, session, rfl, present, held, turned.1, turned.2.1, rfl, turned.2.2.2⟩
    next => cases rest
  next => cases refusal

/-- An acceptor with the numbers that it has turned down, and those of them that were submitted later. -/
structure RefusalWatch where
  acceptor : Acceptor
  refused : List (SessionKey × Nat)
  repeated : List (SessionKey × Nat)

/-- A logon that resumes the numbers of a key. -/
def Acceptor.Resumes (acceptor : Acceptor) (key : SessionKey) (logon : Logon) (action : AcceptorAction) : Prop :=
  ∃ connection session event venue outages room, action = .dispatch connection event venue outages room ∧
    acceptor.sessions connection = some session ∧ session.fsm.phase = .awaitingLogon ∧ event.logon? = some logon ∧
    logon.For venue key ∧ logon.resetSeqNumFlag ≠ some true ∧ (∀ other, ¬ acceptor.Serves key other) ∧
    acceptor.store.target key ≤ logon.header.msgSeqNum

namespace RefusalWatch

def new (backend : Backend) (config : SessionConfig) : RefusalWatch := ⟨.new backend config, [], []⟩

def step [Ironfix] (U : Upstream) (watch : RefusalWatch) (action : AcceptorAction) : Option RefusalWatch :=
  (watch.acceptor.step U action).map fun next =>
    { acceptor := next
      refused := (watch.refused.filter fun entry => watch.acceptor.store.stands entry.1 entry.2 next.store) ++
        (watch.acceptor.refusal U action).toList
      repeated := watch.repeated ++ watch.refused.filter fun entry =>
        (watch.acceptor.fresh entry.1 next).any fun call => call.stamp.msgSeq = entry.2 }

/-- A session resumes past every number that has been turned down. -/
def ResumesPast (watch : RefusalWatch) (action : AcceptorAction) : Prop :=
  ∀ key logon, watch.acceptor.Resumes key logon action → ∀ number, (key, number) ∈ watch.refused →
    number < resumedTarget (watch.acceptor.store.slot key).counters logon.header.msgSeqNum

/-- Every live session expects more than what it has turned down, and nothing of that was submitted. -/
structure Final (watch : RefusalWatch) : Prop where
  orderly : Orderly watch.acceptor
  past : ∀ {key number session}, (key, number) ∈ watch.refused → watch.acceptor.Serves key session →
    number < session.fsm.counters.nextTargetSeq
  once : watch.repeated = []

theorem final_new (backend : Backend) (config : SessionConfig) : Final (new backend config) :=
  ⟨orderly_new backend config, fun member => (nomatch member), rfl⟩

section Steps
variable [Ironfix] {U : Upstream} {watch : RefusalWatch} {action : AcceptorAction} {next : Acceptor} {key : SessionKey}
  {number : Nat} {after : VenueFixSession}

/-- A number that was turned down before the step stays behind the session. -/
theorem Final.kept (final : watch.Final) (taken : watch.acceptor.step U action = some next) (resumes : watch.ResumesPast action)
    (member : (key, number) ∈ watch.refused) (stands : watch.acceptor.store.stands key number next.store = true)
    (serves : next.Serves key after) : number < after.fsm.counters.nextTargetSeq := by
  cases final.orderly.keyMove taken key with
  | idle sessions target fresh =>
    obtain ⟨session, earlier, same⟩ := sessions serves
    rw [same]
    exact final.past member earlier
  | lost crashed volatile sessions fresh => exact absurd serves sessions
  | @turned connection room venue outages message session result reached asked present bound outcome turn store calls sessions =>
    have past : number < (watch.acceptor.load session outages).expected := final.past member ⟨connection, present, bound⟩
    obtain ⟨rfl, reaction, rfl⟩ := sessions serves
    change number < reached.expected
    cases turn with
    | stays still => rw [still.expected]; exact past
    | consumes numbered plain expected target calls => rw [expected]; exact Nat.lt_succ_of_lt past
    | withholds numbered mutation expected target calls => rw [expected]; exact Nat.lt_succ_of_lt past
    | submits numbered mutation call mine stamped expected target calls => rw [expected]; exact Nat.lt_succ_of_lt past
    | fills reset asked gapFill forward expected target calls => rw [expected]; exact past.trans_le forward
    | resets reset asked administrative expected target calls journal =>
      rw [store] at stands
      rw [expected, ← target]
      exact stands_reset journal stands
    | breaks stopped target calls => cases stopped.choose_spec
  | @logged connection room event venue outages session result reached logon asked brought present waiting keyed free inbound
      store fresh sessions =>
    obtain ⟨rfl, bound, reaction, rfl⟩ := sessions serves
    change number < reached.expected
    cases inbound with
    | refuses ended target calls =>
      rcases ended with ⟨halt, wrong⟩ | unbound
      · cases wrong
      · cases unbound.symm.trans bound
    | abandons asked stopped calls journal => cases stopped.choose_spec
    | resumes kept numbered expected target calls =>
      rw [expected]
      exact resumes key logon ⟨connection, session, event, venue, outages, room, asked, present, waiting, brought, keyed,
        kept, fun _ => free, numbered⟩ number member
    | renews renewed expected target calls journal =>
      rw [store] at stands
      cases (not_stands_logon journal).symm.trans stands

/-- A number that was turned down is not submitted. -/
theorem Final.unsubmitted (final : watch.Final) (taken : watch.acceptor.step U action = some next)
    (member : (key, number) ∈ watch.refused) : ∀ call ∈ watch.acceptor.fresh key next, call.stamp.msgSeq ≠ number := by
  have none : watch.acceptor.fresh key next = [] → ∀ call ∈ watch.acceptor.fresh key next, call.stamp.msgSeq ≠ number := by
    intro fresh
    rw [fresh]
    exact List.forall_mem_nil _
  cases final.orderly.keyMove taken key with
  | idle sessions target fresh => exact none fresh
  | lost crashed volatile sessions fresh => exact none fresh
  | logged asked brought present waiting keyed free inbound store fresh sessions => exact none fresh
  | @turned connection room venue outages message session result reached asked present bound outcome turn store calls sessions =>
    have past : number < (watch.acceptor.load session outages).expected := final.past member ⟨connection, present, bound⟩
    rcases turn.called with same | ⟨call, mine, stamped, called⟩
    · exact none (fresh_same (congrArg (callsOf key) (calls.trans same)))
    · rw [fresh_append mine (calls.trans called)]
      exact List.forall_mem_singleton.2 (stamped ▸ past.ne')

/-- A number that a step turns down is behind the session that goes on. -/
theorem Final.refused (final : watch.Final) (taken : watch.acceptor.step U action = some next)
    (refusal : watch.acceptor.refusal U action = some (key, number)) (serves : next.Serves key after) :
    number < after.fsm.counters.nextTargetSeq := by
  obtain ⟨connection, message, venue, outages, room, session, rfl, present, bound, mutation, expected, numbered, shown⟩ :=
    refusal_eq_some refusal
  have sitting := final.orderly.sitting present
  simp only [Acceptor.step, present, Option.some.injEq] at taken
  subst taken
  change (watch.acceptor.unload connection room (watch.acceptor.outcome U session (.message message) venue outages)).Serves
    key after at serves
  cases outcome : watch.acceptor.outcome U session (.message message) venue outages with
  | mk result reached =>
  rw [outcome] at shown serves
  rcases unload_serves serves with ⟨rfl, live, -⟩ | ⟨seat, apart, seated, held⟩
  · obtain ⟨reaction, rfl⟩ := outlives_ok live
    have ran : exec (onMessage U venue message) (watch.acceptor.load session outages) = (.ok reaction, reached) := outcome
    have serving : session.fsm.phase.stage = 1 := by
      cases phase : session.fsm.phase with
      | active => rfl
      | awaitingResend => rfl
      | awaitingLogon =>
        cases (sitting.waiting (by rw [phase]; rfl)).1.symm.trans bound
      | closing =>
        rw [onMessage_closing phase] at ran
        cases ran
        cases shown
    have ordinary (reset : SequenceReset) : message ≠ .sequenceReset reset := by
      rintro rfl
      cases mutation
    have inOrder : (headerOf message).msgSeqNum = (watch.acceptor.load session outages).expected := expected
    rcases onMessage_consumes bound serving ordinary inOrder ran with closed | consumed
    · simp [outlives, closed] at live
    · change number < reached.expected
      rw [consumed]
      exact Nat.lt_succ_of_le (numbered.symm.trans expected).le
  · exact absurd (final.orderly.alone seated present ((final.orderly.sitting seated).held held) (sitting.held bound)) apart

theorem Final.step {later : RefusalWatch} (final : watch.Final) (resumes : watch.ResumesPast action)
    (taken : watch.step U action = some later) : later.Final := by
  obtain ⟨next, moved, rfl⟩ := Option.map_eq_some_iff.1 taken
  refine ⟨final.orderly.step moved, fun member serves => ?_, ?_⟩
  · rcases List.mem_append.1 member with old | fresh
    · obtain ⟨member, stands⟩ := List.mem_filter.1 old
      exact final.kept moved resumes member stands serves
    · exact final.refused moved (Option.mem_toList.1 fresh) serves
  · have none : (watch.refused.filter fun entry =>
        (watch.acceptor.fresh entry.1 next).any fun call => call.stamp.msgSeq = entry.2) = [] := by
      refine List.filter_eq_nil_iff.2 fun entry member submitted => ?_
      obtain ⟨call, fresh, numbered⟩ := List.any_eq_true.1 submitted
      exact final.unsubmitted moved member call fresh (of_decide_eq_true numbered)
    dsimp only
    rw [final.once, none]
    rfl

end Steps

end RefusalWatch

section Running
variable [Ironfix] {U : Upstream}

/-- In every run in which each session resumes past the numbers that were turned down before a submission, none
of them is submitted later, whatever is resent, disconnected and lost. -/
theorem refusals_final (backend : Backend) (config : SessionConfig) (actions : List AcceptorAction) (watch : RefusalWatch)
    (resumes : Throughout (RefusalWatch.step U) RefusalWatch.ResumesPast (.new backend config) actions)
    (run : runFrom (RefusalWatch.step U) (.new backend config) actions = some watch) :
    watch.repeated = [] ∧ ∀ key number session, (key, number) ∈ watch.refused → watch.acceptor.Serves key session →
      number < session.fsm.counters.nextTargetSeq := by
  have final : watch.Final :=
    runFrom_invariant (fun _ _ _ final resumes taken => final.step resumes taken)
      (RefusalWatch.final_new backend config) resumes run
  exact ⟨final.once, fun _ _ _ member serves => final.past member serves⟩

end Running

/-- The logon that an action brings. -/
def AcceptorAction.logon? : AcceptorAction → Option Logon
  | .dispatch _ event _ _ _ => event.logon?
  | _ => none

/-- The store expects more than every number that was turned down, whenever a logon comes. -/
theorem RefusalWatch.resumesPast_of_saved {watch : RefusalWatch} {action : AcceptorAction}
    (saved : action.logon?.isSome → ∀ entry ∈ watch.refused, entry.2 < watch.acceptor.store.target entry.1) :
    watch.ResumesPast action := by
  rintro key logon ⟨connection, session, event, venue, outages, room, rfl, -, -, brought, -⟩ number member
  have below := saved (by rw [AcceptorAction.logon?, brought]; rfl) _ member
  refine below.trans_le ?_
  unfold resumedTarget
  split
  next => exact Nat.le_succ _
  next => exact le_rfl

def aliceOrder : DecodedMessage :=
  .newOrderSingle ⟨aliceHeader 2, "A-1", none, "BTC-20351231-50000-C", .buy, .fromEpochMs 0, .limit, some 10, 5, .gtc, none⟩

/-- The account has used up its rate. -/
def throttledVenue : AppState := { aliceVenue with allowed := fun key => match key with
  | .account _ _ _ => false
  | .peer _ => true }

def placingVenue : AppState := { aliceVenue with submit := fun _ _ => some (.ok (.committed 1 0 (.added [] 5 []))) }

/-- An order is turned down for its rate; the session comes back, and the order is resent as the venue asks. -/
def throttledSession : List AcceptorAction :=
  [.accept 0 "10.0.0.1" 0, aliceSends (aliceLogon 1), .dispatch 0 (.message aliceOrder) throttledVenue [] 16,
    .disconnect 0, .accept 0 "10.0.0.1" 0, aliceSends (aliceLogon 3),
    .dispatch 0 (.message aliceOrder) placingVenue [] 16]

/-- The same, with a test request before the session is lost. -/
def settledSession : List AcceptorAction :=
  [.accept 0 "10.0.0.1" 0, aliceSends (aliceLogon 1), .dispatch 0 (.message aliceOrder) throttledVenue [] 16,
    aliceSends (.testRequest ⟨aliceHeader 3, "A"⟩), .disconnect 0, .accept 0 "10.0.0.1" 0, aliceSends (aliceLogon 4),
    .dispatch 0 (.message aliceOrder) placingVenue [] 16]

abbrev referenceRefusals := @RefusalWatch.step referenceWire referenceUpstream

/-- The starts of the ranges that the venue has asked for. -/
def resendsAsked (acceptor : Acceptor) : List Nat :=
  acceptor.emitted.filterMap fun sent =>
    match sent.2 with
    | .message (.resendRequest resend) => some resend.beginSeqNo
    | _ => none

theorem settledSession_final : ∃ watch,
    runFrom referenceRefusals (.new .postgres ⟨30000, 60⟩) settledSession = some watch ∧
      watch.refused = [(aliceKey, 2)] ∧ watch.repeated = [] := by
  have turned : (runFrom referenceRefusals (.new .postgres ⟨30000, 60⟩) settledSession).map RefusalWatch.refused =
      some [(aliceKey, 2)] := by decide +kernel
  have saved : Throughout referenceRefusals (fun watch action => action.logon?.isSome → ∀ entry ∈ watch.refused,
      entry.2 < watch.acceptor.store.target entry.1) (.new .postgres ⟨30000, 60⟩) settledSession := by decide +kernel
  obtain ⟨watch, run, refused⟩ := Option.map_eq_some_iff.1 turned
  exact ⟨watch, run, refused, (@refusals_final referenceWire _ _ _ _ watch
    (saved.weaken fun _ _ => RefusalWatch.resumesPast_of_saved) run).1⟩

theorem throttledSession_executes : ∃ watch,
    runFrom referenceRefusals (.new .postgres ⟨30000, 60⟩) throttledSession = some watch ∧
      resendsAsked watch.acceptor = [2] ∧ watch.acceptor.calls.map ExchangeCall.accepted = [some true] ∧
      ¬ watch.repeated = [] := by
  have executed : (runFrom referenceRefusals (.new .postgres ⟨30000, 60⟩) throttledSession).map (fun watch =>
      (resendsAsked watch.acceptor, watch.acceptor.calls.map ExchangeCall.accepted, watch.repeated)) =
      some ([2], [some true], [(aliceKey, 2)]) := by decide +kernel
  obtain ⟨watch, run, same⟩ := Option.map_eq_some_iff.1 executed
  obtain ⟨asked, rest⟩ := Prod.mk.inj same
  obtain ⟨accepted, repeated⟩ := Prod.mk.inj rest
  exact ⟨watch, run, asked, accepted, by rw [repeated]; exact List.cons_ne_nil _ _⟩

end Fauxchange.Fix
