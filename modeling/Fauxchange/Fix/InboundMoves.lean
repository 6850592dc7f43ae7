import Fauxchange.Fix.KeySteps

/-! How one dispatch moves the inbound expectation of a key, in memory and in the store, and what it submits. -/

namespace Fauxchange.Fix
open Exchange Lib Fallible FixSessionStore

/-- The next number that a session expects. -/
def Dispatch.expected (dispatch : Dispatch) : Nat := dispatch.fsm.counters.nextTargetSeq

/-- The next number that the store expects of a key. -/
def FixSessionStore.target (key : SessionKey) (store : FixSessionStore) : Nat := (store.slot key).counters.nextTargetSeq

/-- A reset of the numbers of a key is in the journal, and was not before. -/
def Journaled (key : SessionKey) (trigger : ResetTrigger) (store after : FixSessionStore) : Prop :=
  ∃ event counters more, .reset key event counters ∈ more ∧ event.trigger = trigger ∧
    after.history key = store.history key ++ more

/-- The numbers and the submissions are as they were. -/
structure Still (key : SessionKey) (dispatch reached : Dispatch) : Prop where
  expected : reached.expected = dispatch.expected
  target : reached.store.target key = dispatch.store.target key
  calls : reached.calls = dispatch.calls

section Stillness
variable {key : SessionKey} {dispatch middle reached : Dispatch} {store after : FixSessionStore} {write : StoreWrite}

theorem FixSessionStore.Agree.target (agree : Agree store after) (key : SessionKey) :
    after.target key = store.target key := by
  unfold FixSessionStore.target
  rw [agree.slot]

theorem Still.trans (first : Still key dispatch middle) (later : Still key middle reached) : Still key dispatch reached :=
  ⟨later.expected.trans first.expected, later.target.trans first.target, later.calls.trans first.calls⟩

theorem Quiet.still (quiet : Quiet dispatch reached) : Still key dispatch reached :=
  ⟨congrArg Standing.inbound quiet.standing, quiet.store.target key, congrArg Standing.calls quiet.standing⟩

/-- A frame is stored without touching the inbound expectation of any key. -/
theorem Sent.still {frame : Frame} (sent : Sent frame dispatch reached) : Still key dispatch reached where
  expected := congrArg Standing.inbound sent.standing
  calls := congrArg Standing.calls sent.standing
  target := by
    cases held : dispatch.fsm.key with
    | none => exact (sent.unbound held).target key
    | some bound =>
      obtain ⟨size, wrote⟩ := sent.stored bound held
      unfold FixSessionStore.target
      by_cases own : bound = key
      · subst own
        rw [show reached.store.slot bound = _ from wrote.slot_self]
        rfl
      · rw [show reached.store.slot key = _ from wrote.slot_of_ne own]

theorem Sends.still (sends : Sends dispatch reached) : Still key dispatch reached :=
  sends.preserves (Still key dispatch) (fun quiet still => still.trans quiet.still) (fun sent still => still.trans sent.still)
    ⟨rfl, rfl, rfl⟩

theorem FixSessionStore.Agree.grown (agree : Agree store after) (key : SessionKey) :
    store.history key <+: after.history key := by
  rw [agree.history]

theorem FixSessionStore.Wrote.grown (wrote : Wrote write store after) (key : SessionKey) :
    store.history key <+: after.history key := by
  by_cases own : write.key = key
  · subst own
    rw [wrote.history_self]
    exact List.prefix_append _ _
  · rw [wrote.history_of_ne own]

/-- The record of a key only grows. -/
theorem Sends.grown (sends : Sends dispatch reached) (key : SessionKey) :
    dispatch.store.history key <+: reached.store.history key := by
  refine sends.preserves (fun now => dispatch.store.history key <+: now.store.history key) ?_ ?_ List.prefix_rfl
  · exact fun quiet grown => grown.trans (quiet.store.grown key)
  · intro frame before after sent grown
    refine grown.trans ?_
    cases held : before.fsm.key with
    | none => exact (sent.unbound held).grown key
    | some bound =>
      obtain ⟨size, wrote⟩ := sent.stored bound held
      exact wrote.grown key

/-- A journaled reset stays in the journal. -/
theorem journaled_of_wrote {event : SequenceResetEvent} {counters : SessionCounters} {last : FixSessionStore}
    (wrote : Wrote (.reset key event counters) store after) (later : after.history key <+: last.history key) :
    Journaled key event.trigger store last := by
  obtain ⟨more, whole⟩ := later
  refine ⟨event, counters, .reset key event counters :: more, List.mem_cons_self, rfl, ?_⟩
  rw [← whole, show after.history key = _ from wrote.history_self, List.append_assoc]
  rfl

theorem FixSessionStore.Agree.journaled {last : FixSessionStore} {trigger other : ResetTrigger}
    (agree : Agree store after) (same : other = trigger) (journal : Journaled key other after last) :
    Journaled key trigger store last := by
  subst same
  unfold Journaled at journal ⊢
  rw [agree.history] at journal
  exact journal

end Stillness

/-- What a message does to the numbers of the key that it is served under. -/
inductive InboundTurn {α : Type} (venue : AppState) (key : SessionKey) (message : DecodedMessage) (heard : Dispatch)
    (result : Except Halt α) (reached : Dispatch) : Prop where
  | stays (still : Still key heard reached)
  | consumes (numbered : (headerOf message).msgSeqNum = heard.expected) (plain : Plain heard.fsm message)
      (expected : reached.expected = heard.expected + 1) (target : reached.store.target key = heard.expected + 1)
      (calls : reached.calls = heard.calls)
  | withholds (numbered : (headerOf message).msgSeqNum = heard.expected) (mutation : Defers heard.fsm message)
      (expected : reached.expected = heard.expected + 1) (target : reached.store.target key = heard.store.target key)
      (calls : reached.calls = heard.calls)
  | submits (numbered : (headerOf message).msgSeqNum = heard.expected) (mutation : Defers heard.fsm message)
      (call : ExchangeCall) (mine : call.key = some key) (stamped : call.stamp.msgSeq = heard.expected)
      (expected : reached.expected = heard.expected + 1)
      (target : reached.store.target key = heard.store.target key ∨
        call.accepted = some true ∧ ¬ venue.Declines ∧ reached.store.target key = heard.expected + 1)
      (calls : reached.calls = heard.calls ++ [call])
  | fills (reset : SequenceReset) (asked : message = .sequenceReset reset) (gapFill : reset.gapFillFlag = some true)
      (forward : heard.expected ≤ reset.newSeqNo) (expected : reached.expected = reset.newSeqNo)
      (target : reached.store.target key = reset.newSeqNo) (calls : reached.calls = heard.calls)
  | resets (reset : SequenceReset) (asked : message = .sequenceReset reset)
      (administrative : reset.gapFillFlag ≠ some true) (expected : reached.expected = reset.newSeqNo)
      (target : reached.store.target key = reset.newSeqNo) (calls : reached.calls = heard.calls)
      (journal : Journaled key .sequenceReset heard.store reached.store)
  | breaks (stopped : ∃ halt, result = .error halt) (target : reached.store.target key = heard.store.target key)
      (calls : reached.calls = heard.calls)

section Turns
variable {venue : AppState} {key : SessionKey} {message : DecodedMessage} {dispatch before advanced saved reached : Dispatch}

theorem Moved.calls_expect {next : Nat} (move : Moved (Standing.expect next) dispatch reached) :
    reached.calls = dispatch.calls := congrArg Standing.calls move.standing

theorem Moved.expected {next : Nat} (move : Moved (Standing.expect next) dispatch reached) : reached.expected = next :=
  congrArg Standing.inbound move.standing

theorem Writes.calls {write : StoreWrite} (writes : Writes write dispatch reached) : reached.calls = dispatch.calls :=
  congrArg Standing.calls writes.standing

theorem Writes.expected {write : StoreWrite} (writes : Writes write dispatch reached) :
    reached.expected = dispatch.expected := congrArg Standing.inbound writes.standing

/-- Counters that are saved as they are in memory take the expectation with them. -/
theorem Writes.target (save : Writes (.counters key dispatch.fsm.counters) dispatch reached) :
    reached.store.target key = dispatch.expected := by
  unfold FixSessionStore.target
  rw [show reached.store.slot key = _ from save.store.slot_self]
  rfl

theorem Turn.inbound {α : Type} {result : Except Halt α} (turn : Turn venue key message dispatch result reached) :
    InboundTurn venue key message dispatch result reached := by
  cases turn with
  | answered sends => exact .stays sends.still
  | @consumed before advanced saved expected plain sends advance save after =>
    have first : Still key dispatch before := sends.still
    have last : Still key saved reached := after.still
    have advancing : advanced.expected = dispatch.expected + 1 := by
      rw [advance.2.expected]
      exact congrArg (· + 1) first.expected
    refine .consumes expected plain ?_ ?_ ?_
    · rw [last.expected, save.expected, advancing]
    · rw [last.target, save.target, advancing]
    · rw [last.calls, save.calls, advance.2.calls_expect, first.calls]
  | @deferred advanced expected mutation advance submits =>
    have advancing : advanced.expected = dispatch.expected + 1 := advance.2.expected
    cases submits with
    | withheld sends =>
      have last : Still key advanced reached := sends.still
      refine .withholds expected mutation ?_ ?_ ?_
      · rw [last.expected, advancing]
      · rw [last.target, advance.2.store.target]
      · rw [last.calls, advance.2.calls_expect]
    | @called middle call mine moved after =>
      have last : Still key middle reached := after.still
      refine .submits expected mutation call mine.1 (mine.2.trans expected) ?_ (Or.inl ?_) ?_
      · rw [last.expected, show middle.expected = _ from congrArg Standing.inbound moved.standing]
        exact advancing
      · rw [last.target, moved.store.target, advance.2.store.target]
      · rw [last.calls, show middle.calls = _ from congrArg Standing.calls moved.standing]
        exact congrArg (· ++ [call]) advance.2.calls_expect
    | @committed middle rendered saved call mine accepted willing moved render save after =>
      have first : Still key middle rendered := render.still
      have last : Still key saved reached := after.still
      have rendering : rendered.expected = dispatch.expected + 1 := by
        rw [first.expected, show middle.expected = _ from congrArg Standing.inbound moved.standing]
        exact advancing
      refine .submits expected mutation call mine.1 (mine.2.trans expected) ?_ (Or.inr ⟨accepted, willing, ?_⟩) ?_
      · rw [last.expected, save.expected, rendering]
      · rw [last.target, save.target, rendering]
      · rw [last.calls, save.calls, first.calls, show middle.calls = _ from congrArg Standing.calls moved.standing]
        exact congrArg (· ++ [call]) advance.2.calls_expect
  | @filled moved saved reset asked gapFill forward move save after =>
    have last : Still key saved reached := after.still
    refine .fills reset asked gapFill forward ?_ ?_ ?_
    · rw [last.expected, save.expected, move.expected]
    · rw [last.target, save.target, move.expected]
    · rw [last.calls, save.calls, move.calls_expect]
  | @reset moved saved reset event asked administrative move save after journaled =>
    have last : Still key saved reached := after.still
    refine .resets reset asked administrative ?_ ?_ ?_ ?_
    · rw [last.expected, save.expected, move.expected]
    · rw [last.target, ← move.expected]
      unfold FixSessionStore.target
      rw [show saved.store.slot key = _ from save.store.slot_self]
      rfl
    · rw [last.calls, save.calls, move.calls_expect]
    · exact move.store.journaled journaled.1 (journaled_of_wrote save.store (after.grown key))
  | @broken before moved next stopped sends move after =>
    have first : Still key dispatch before := sends.still
    have last : Still key moved reached := after.still
    refine .breaks stopped ?_ ?_
    · rw [last.target, move.store.target, first.target]
    · rw [last.calls, move.calls_expect, first.calls]

end Turns

/-- What a logon does to the numbers of the key whose lease it takes. -/
inductive InboundLogon {α : Type} (key : SessionKey) (logon : Logon) (heard : Dispatch) (result : Except Halt α)
    (reached : Dispatch) : Prop where
  | refuses (ended : (∃ halt, result = .error halt) ∨ reached.fsm.key = none)
      (target : reached.store.target key = heard.store.target key) (calls : reached.calls = heard.calls)
  | abandons (asked : logon.resetSeqNumFlag = some true) (stopped : ∃ halt, result = .error halt)
      (calls : reached.calls = heard.calls) (journal : Journaled key .logonReset heard.store reached.store)
  | resumes (asked : logon.resetSeqNumFlag ≠ some true)
      (numbered : heard.store.target key ≤ logon.header.msgSeqNum)
      (expected : reached.expected = resumedTarget (heard.store.slot key).counters logon.header.msgSeqNum)
      (target : reached.store.target key = reached.expected) (calls : reached.calls = heard.calls)
  | renews (asked : logon.resetSeqNumFlag = some true) (expected : reached.expected = firstSeqNum + 1)
      (target : reached.store.target key = reached.expected) (calls : reached.calls = heard.calls)
      (journal : Journaled key .logonReset heard.store reached.store)

section Logons
variable {key : SessionKey} {logon : Logon} {venue : AppState} {counters : SessionCounters}
  {dispatch claimed bound resumed counted reached : Dispatch}

/-- The store that a logon meets once the session is bound is the one that it found. -/
theorem bound_agree (claim : Claimed logon venue key dispatch claimed) (bind : Moved (Standing.bound key) claimed bound) :
    Agree dispatch.store bound.store :=
  ⟨bind.store.1.trans claim.moved.store.1, bind.store.2.1.trans claim.moved.store.2.1,
    bind.store.2.2.trans claim.moved.store.2.2⟩

theorem bound_calls (claim : Claimed logon venue key dispatch claimed) (bind : Moved (Standing.bound key) claimed bound)
    (resume : bound = resumed ∨ Resumes logon key counters bound resumed)
    (count : resumed = counted ∨ Counts counters resumed counted) : counted.calls = dispatch.calls := by
  have resuming : resumed.standing = bound.standing :=
    resume.elim (fun same => by rw [same]) fun resumes => resumes.standing
  have counting : counted.calls = resumed.calls :=
    count.elim (fun same => by rw [same]) fun counts => congrArg Standing.calls counts.standing
  rw [counting, show resumed.calls = bound.calls from congrArg Standing.calls resuming,
    show bound.calls = claimed.calls from congrArg Standing.calls bind.standing]
  exact congrArg Standing.calls claim.moved.standing

theorem Counts.agree (count : resumed = counted ∨ Counts counters resumed counted) : Agree resumed.store counted.store :=
  count.elim (fun same => same ▸ ⟨rfl, rfl, rfl⟩) Counts.store

theorem Joined.inbound {α : Type} {result : Except Halt α} (joined : Joined logon venue key dispatch result reached)
    (unbound : dispatch.fsm.key = none) : InboundLogon key logon dispatch result reached := by
  cases joined with
  | @dismissed claimed claim ended sends =>
    have last : Still key claimed reached := sends.still
    have held : reached.fsm.key = none :=
      (congrArg Standing.key (sends.standing.trans claim.moved.standing)).trans unbound
    refine .refuses (Or.inr held) ?_ ?_
    · rw [last.target, claim.moved.store.target]
    · rw [last.calls]
      exact congrArg Standing.calls claim.moved.standing
  | @broken claimed bound resumed counted counters claim bind stopped resume count quiet =>
    have last : Still key counted reached := quiet.still
    have calls : reached.calls = dispatch.calls := by
      rw [last.calls]
      exact bound_calls claim bind resume count
    have same : bound.store.target key = dispatch.store.target key := (bound_agree claim bind).target key
    have counting := (Counts.agree count).target key
    rcases resume with rfl | resumes
    · exact .refuses (Or.inl stopped) (by rw [last.target, counting, same]) calls
    · cases resumes with
      | kept asked unmoved numbered initial =>
        exact .refuses (Or.inl stopped) (by rw [last.target, counting, unmoved, same]) calls
      | renewed event asked journal trigger initial =>
        refine .abandons asked stopped calls ?_
        have later : resumed.store.history key <+: reached.store.history key :=
          ((Counts.agree count).grown key).trans (quiet.store.grown key)
        exact (bound_agree claim bind).journaled trigger (journaled_of_wrote journal.store later)
  | @admitted claimed bound resumed counted saved opened counters claim bind resume count save opens sends =>
    have last : Still key opened reached := sends.still
    have calls : reached.calls = dispatch.calls := by
      rw [last.calls, show opened.calls = saved.calls from congrArg Standing.calls opens.standing, save.calls]
      exact bound_calls claim bind (Or.inr resume) (Or.inr count)
    have expected : reached.expected = counters.nextTargetSeq := by
      rw [last.expected, show opened.expected = saved.expected from congrArg Standing.inbound opens.standing, save.expected]
      exact congrArg SessionCounters.nextTargetSeq count.counters
    have target : reached.store.target key = reached.expected := by
      rw [last.target, opens.store.target, expected]
      unfold FixSessionStore.target
      rw [show saved.store.slot key = _ from save.store.slot_self]
      rfl
    have found := (bound_agree claim bind).slot key
    cases resume with
    | kept asked unmoved numbered initial =>
      rw [found] at numbered initial
      exact .resumes asked numbered (by rw [expected, initial]) target calls
    | renewed event asked journal trigger initial =>
      refine .renews asked (by rw [expected, initial]) target calls ?_
      have later : resumed.store.history key <+: reached.store.history key :=
        (((count.store.grown key).trans (save.store.grown key)).trans (opens.store.grown key)).trans (sends.grown key)
      exact (bound_agree claim bind).journaled trigger (journaled_of_wrote journal.store later)

end Logons

end Fauxchange.Fix
