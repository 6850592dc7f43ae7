import Fauxchange.Fix.Turns

/-! What a logon does: it is refused, or it takes the lease of its key and resumes the stored counters or
renews them. -/

namespace Fauxchange.Fix
open Exchange Lib Fallible FixSessionStore

def Standing.claiming (key : SessionKey) (standing : Standing) : Standing :=
  { standing with lease := some key, leases := key :: standing.leases }

def Standing.bound (key : SessionKey) (standing : Standing) : Standing :=
  { standing with account := some key.account, key := some key }

/-- The inbound expectation after a logon that renews nothing. -/
def resumedTarget (stored : SessionCounters) (logonSeq : Nat) : Nat :=
  if logonSeq = stored.nextTargetSeq then stored.nextTargetSeq + 1 else stored.nextTargetSeq

/-- A logon is for a key: it carries the comp ids of the key and the credentials of its account. -/
structure Logon.For (logon : Logon) (venue : AppState) (key : SessionKey) : Prop where
  sender : key.senderCompId = logon.header.senderCompId.val
  target : key.targetCompId = logon.header.targetCompId.val
  account : ((venue.verifyFixPassword logon.username logon.password).bind venue.account).map Account.id = some key.account

/-- The lease of the key that a logon is for, which no live session held. -/
structure Claimed (logon : Logon) (venue : AppState) (key : SessionKey) (dispatch claimed : Dispatch) : Prop where
  keyed : logon.For venue key
  free : key ∉ dispatch.leases
  moved : Moved (Standing.claiming key) dispatch claimed

/-- The counters of a session become those of its logon. -/
structure Counts (counters : SessionCounters) (dispatch reached : Dispatch) : Prop where
  standing : reached.standing = dispatch.standing.expect counters.nextTargetSeq
  counters : reached.fsm.counters = counters
  store : Agree dispatch.store reached.store

/-- The session serves its messages. -/
structure Opened (dispatch reached : Dispatch) : Prop where
  standing : reached.standing = dispatch.standing
  outbound : reached.outbound = dispatch.outbound
  store : Agree dispatch.store reached.store
  serving : reached.fsm.phase.stage = 1

/-- The counters that a logon resumes from: the stored ones, or the initial ones after a journaled reset. -/
inductive Resumes (logon : Logon) (key : SessionKey) (counters : SessionCounters) (dispatch reached : Dispatch) : Prop where
  | kept (asked : logon.resetSeqNumFlag ≠ some true) (same : reached = dispatch)
      (numbered : (dispatch.store.slot key).counters.nextTargetSeq ≤ logon.header.msgSeqNum)
      (resumed : counters = ⟨(dispatch.store.slot key).counters.nextSenderSeq,
        resumedTarget (dispatch.store.slot key).counters logon.header.msgSeqNum⟩)
  | renewed (event : SequenceResetEvent) (asked : logon.resetSeqNumFlag = some true)
      (journal : Writes (.reset key event .default) dispatch reached)
      (trigger : event.trigger = .logonReset)
      (resumed : counters = ⟨firstSeqNum, firstSeqNum + 1⟩)

/-- What a logon does once it has taken the lease of its key. -/
inductive Joined {α : Type} (logon : Logon) (venue : AppState) (key : SessionKey) (dispatch : Dispatch)
    (result : Except Halt α) (reached : Dispatch) : Prop where
  | dismissed {claimed : Dispatch} (claim : Claimed logon venue key dispatch claimed)
      (ended : (∃ halt, result = .error halt) ∨ reached.fsm.phase = .closing) (sends : Sends claimed reached)
  | broken {claimed bound resumed counted : Dispatch} (counters : SessionCounters)
      (claim : Claimed logon venue key dispatch claimed) (bind : Moved (Standing.bound key) claimed bound)
      (stopped : ∃ halt, result = .error halt) (resume : bound = resumed ∨ Resumes logon key counters bound resumed)
      (count : resumed = counted ∨ Counts counters resumed counted) (quiet : Quiet counted reached)
  | admitted {claimed bound resumed counted saved opened : Dispatch} (counters : SessionCounters)
      (claim : Claimed logon venue key dispatch claimed) (bind : Moved (Standing.bound key) claimed bound)
      (resume : Resumes logon key counters bound resumed) (count : Counts counters resumed counted)
      (save : Writes (.counters key counters) counted saved) (opens : Opened saved opened) (sends : Sends opened reached)

/-- What a logon does to a session that awaits it. -/
inductive Admission {α : Type} (logon : Logon) (venue : AppState) (dispatch : Dispatch) (result : Except Halt α)
    (reached : Dispatch) : Prop where
  | refused (sends : Sends dispatch reached)
  | joined (key : SessionKey) (joined : Joined logon venue key dispatch result reached)

section Composition
variable {logon : Logon} {venue : AppState} {dispatch middle reached : Dispatch}

theorem Moved.quiet {change : Standing → Standing} (moved : Moved change dispatch middle) (quiet : Quiet middle reached) :
    Moved change dispatch reached where
  standing := quiet.standing.trans moved.standing
  outbound := quiet.outbound.trans moved.outbound
  onward := moved.onward.trans quiet.onward
  store := by
    obtain ⟨slots, committed, backend⟩ := quiet.store
    exact ⟨slots.trans moved.store.1, committed.trans moved.store.2.1, backend.trans moved.store.2.2⟩

/-- Whatever a finished logon is followed by, if it only sends. -/
theorem Joined.trans {α β : Type} {key : SessionKey} {value : α} {result : Except Halt β}
    (joined : Joined logon venue key dispatch (.ok value : Except Halt α) middle) (later : Sends middle reached) :
    Joined logon venue key dispatch result reached := by
  cases joined with
  | dismissed claim ended sends =>
    refine .dismissed claim (Or.inr ?_) (sends.trans later)
    rcases ended with ⟨halt, wrong⟩ | closed
    · cases wrong
    · exact later.onward.elim (fun same => SessionPhase.eq_closing (by rw [same, closed]; rfl)) id
  | broken counters claim bind stopped resume count quiet =>
    obtain ⟨halt, wrong⟩ := stopped
    cases wrong
  | admitted counters claim bind resume count save opens sends =>
    exact .admitted counters claim bind resume count save opens (sends.trans later)

theorem Admission.trans {α β : Type} {value : α} {result : Except Halt β}
    (admission : Admission logon venue dispatch (.ok value : Except Halt α) middle) (later : Sends middle reached) :
    Admission logon venue dispatch result reached := by
  cases admission with
  | refused sends => exact .refused (sends.trans later)
  | joined key joined => exact .joined key (joined.trans later)

end Composition

section Claiming
variable {key : SessionKey} {dispatch : Dispatch}

/-- The lease is taken where no live session holds it. -/
theorem tryClaim_run (key : SessionKey) (dispatch : Dispatch) :
    exec (tryClaim key) dispatch = (.ok false, dispatch) ∨
      key ∉ dispatch.leases ∧ ∃ claimed, exec (tryClaim key) dispatch = (.ok true, claimed) ∧
        Moved (Standing.claiming key) dispatch claimed := by
  unfold tryClaim
  rw [exec_transition]
  by_cases held : key ∈ dispatch.leases
  · rw [if_pos held]
    exact Or.inl rfl
  · rw [if_neg held]
    exact Or.inr ⟨held, _, rfl, rfl, rfl, Or.inl rfl, rfl, rfl, rfl⟩

end Claiming

section Resuming
variable {logon : Logon} {key : SessionKey} {dispatch : Dispatch}

/-- A logon below the stored expectation does not get here. -/
theorem resumeCounters_run (now : Nat)
    (numbered : logon.resetSeqNumFlag = some true ∨
      (dispatch.store.slot key).counters.nextTargetSeq ≤ logon.header.msgSeqNum) :
    ∃ reached, (∃ halt, exec (resumeCounters key (dispatch.store.slot key).counters (logon.resetSeqNumFlag.getD false)
          logon.header.msgSeqNum now) dispatch = (.error halt, reached) ∧ Quiet dispatch reached) ∨
      ∃ counters gap, exec (resumeCounters key (dispatch.store.slot key).counters (logon.resetSeqNumFlag.getD false)
          logon.header.msgSeqNum now) dispatch = (.ok (counters, gap), reached) ∧
        Resumes logon key counters dispatch reached := by
  unfold resumeCounters
  by_cases asked : logon.resetSeqNumFlag = some true
  · rw [asked, Option.getD_some, if_pos rfl]
    obtain ⟨store, ⟨ran, wrote⟩ | ⟨⟨halt, ran⟩, agree⟩⟩ := onStore_write (.reset key
      ⟨now, .logonReset, (dispatch.store.slot key).counters.nextSenderSeq,
        (dispatch.store.slot key).counters.nextTargetSeq, firstSeqNum, firstSeqNum⟩ .default) dispatch
    · refine ⟨{ dispatch with store := store }, Or.inr ⟨_, _, exec_bind_ok ran, ?_⟩⟩
      exact .renewed _ asked ⟨rfl, rfl, Or.inl rfl, wrote⟩ rfl rfl
    · exact ⟨_, Or.inl ⟨halt, exec_bind_error ran, rfl, rfl, Or.inl rfl, agree⟩⟩
  · have unset : logon.resetSeqNumFlag.getD false = false := by
      cases flag : logon.resetSeqNumFlag with
      | none => rfl
      | some set =>
        cases set with
        | false => rfl
        | true => exact absurd flag asked
    have reaches := numbered.resolve_left asked
    rw [unset, if_neg Bool.false_ne_true]
    by_cases same : logon.header.msgSeqNum = (dispatch.store.slot key).counters.nextTargetSeq
    · rw [if_pos same]
      cases counted : checkedNext logon.header.msgSeqNum with
      | none => exact ⟨dispatch, Or.inl ⟨_, rfl, .refl dispatch⟩⟩
      | some next =>
        obtain ⟨below, rfl⟩ := checkedNext_eq_some.1 counted
        refine ⟨dispatch, Or.inr ⟨_, _, rfl, .kept asked rfl reaches ?_⟩⟩
        rw [resumedTarget, if_pos same, same]
    · rw [if_neg same]
      refine ⟨dispatch, Or.inr ⟨_, _, rfl, .kept asked rfl reaches ?_⟩⟩
      rw [resumedTarget, if_neg same]

end Resuming

/-- The frames of every key that a header names are allowed. -/
def Named (good : Frame → Prop) (header : StandardHeader) (store : FixSessionStore) : Prop :=
  ∀ key : SessionKey, key.senderCompId = header.senderCompId.val → key.targetCompId = header.targetCompId.val →
    ∀ entry ∈ (store.slot key).outbound, good entry.frame

section Speaking
variable {good : Frame → Prop} {logon : Logon} {venue : AppState} {key : SessionKey} {dispatch reached : Dispatch}

theorem Counts.speaks {counters : SessionCounters} (counts : Counts counters dispatch reached)
    (speaks : Speaks good dispatch) : Speaks good reached := by
  refine speaks.kept (by rw [counts.standing]; rfl) fun bound held entry member => Or.inl ?_
  rw [counts.store.slot] at member
  exact member

theorem Opened.speaks (opens : Opened dispatch reached) (speaks : Speaks good dispatch) : Speaks good reached := by
  refine speaks.kept (congrArg Standing.identity opens.standing) fun bound held entry member => Or.inl ?_
  rw [opens.store.slot] at member
  exact member

theorem Resumes.speaks {counters : SessionCounters} (resumes : Resumes logon key counters dispatch reached)
    (speaks : Speaks good dispatch) : Speaks good reached := by
  cases resumes with
  | kept asked same numbered resumed => exact same ▸ speaks
  | renewed event asked journal trigger resumed => exact journal.speaks (fun _ => rfl) speaks

/-- A session that is bound may say what it could, and what the log of its key holds. -/
theorem Speaks.bound (speaks : Speaks good dispatch) (bind : Moved (Standing.bound key) dispatch reached)
    (logged : ∀ entry ∈ (dispatch.store.slot key).outbound, good entry.frame) : Speaks good reached := by
  have held : reached.fsm.key = some key := congrArg Standing.key bind.standing
  have venue : reached.fsm.venueComp = dispatch.fsm.venueComp := congrArg Standing.venueComp bind.standing
  have client : reached.fsm.clientComp = dispatch.fsm.clientComp := congrArg Standing.clientComp bind.standing
  refine ⟨fun frame => venue ▸ client ▸ speaks.own frame, fun other same entry member => ?_⟩
  cases held.symm.trans same
  rw [bind.store.slot] at member
  exact logged entry member

/-- A logon leaves the session with the frames of its own key and identity. -/
theorem Admission.speaks {α : Type} {result : Except Halt α} (admission : Admission logon venue dispatch result reached)
    (speaks : Speaks good dispatch) (named : Named good logon.header dispatch.store) : Speaks good reached := by
  have claiming : ∀ {key claimed}, Claimed logon venue key dispatch claimed → Speaks good claimed :=
    fun claim => claim.moved.speaks (fun _ => rfl) speaks
  have binding : ∀ {key claimed bound}, Claimed logon venue key dispatch claimed →
      Moved (Standing.bound key) claimed bound → Speaks good bound := by
    intro key claimed bound claim bind
    refine (claiming claim).bound bind fun entry member => ?_
    rw [claim.moved.store.slot] at member
    exact named key claim.keyed.sender claim.keyed.target entry member
  rcases admission with sends | ⟨key, joined⟩
  · exact sends.speaks speaks
  cases joined with
  | dismissed claim ended sends => exact sends.speaks (claiming claim)
  | broken counters claim bind stopped resume count quiet =>
    refine quiet.sends.speaks ?_
    have bound := binding claim bind
    have resumed := resume.elim (fun same => same ▸ bound) fun resumes => resumes.speaks bound
    exact count.elim (fun same => same ▸ resumed) fun counts => counts.speaks resumed
  | admitted counters claim bind resume count save opens sends =>
    exact sends.speaks (opens.speaks (save.speaks (fun _ => rfl) (count.speaks (resume.speaks (binding claim bind)))))

/-- What a logon may do, with the frames that it shows. -/
def Admits (good : Frame → Prop) (logon : Logon) (venue : AppState) (dispatch : Dispatch)
    (outcome : Except Halt Reaction × Dispatch) : Prop :=
  Admission logon venue dispatch outcome.1 outcome.2 ∧ ∀ reaction, outcome.1 = .ok reaction → ∀ frame ∈ reaction.frames, good frame

theorem Yields.refuses {m : SessionM Reaction} (yields : Yields good Reaction.frames m) (speaks : Speaks good dispatch) :
    Admits good logon venue dispatch (exec m dispatch) :=
  ⟨.refused (yields dispatch speaks).1, (yields dispatch speaks).2⟩

end Speaking

section Admitting
variable [Ironfix] {good : Frame → Prop} {logon : Logon} {venue : AppState} {dispatch : Dispatch}

theorem acknowledgeLogon_yields {heartBtIntSecs : Nat} {resetFlag : Bool} {gapBegin : Option Nat} {now : Nat} :
    Yields good Reaction.frames (acknowledgeLogon heartBtIntSecs resetFlag gapBegin now) := by
  refine .bind (emit_yields fun _ => rfl) fun ack first => ?_
  cases gapBegin with
  | none => exact .pure first
  | some begin =>
    refine .bind (emit_yields fun _ => rfl) fun resend other => .pure ?_
    exact List.forall_mem_cons.2 ⟨first ack List.mem_cons_self, other⟩

/-- A refusal of the logon closes the session. -/
theorem logoutClose_closes {now : Nat} {reason : String} (dispatch : Dispatch) :
    (exec (logoutClose now reason) dispatch).2.fsm.phase = .closing := by
  have said : Yields (fun _ => True) Reaction.frames (do
      let frame ← emit now fun header => .message (.logout ⟨header, some reason⟩)
      pure (.emitClose [frame])) :=
    .bind (emit_yields fun _ => rfl) fun _ allowed => .pure allowed
  have sends := (said { dispatch with fsm := { dispatch.fsm with phase := .closing } }
    ⟨fun _ _ _ => trivial, fun _ _ _ _ => trivial⟩).1
  unfold logoutClose setFsm
  rw [exec_modify_bind]
  exact sends.onward.elim SessionPhase.eq_closing id

/-- The second half of an admission, once the session is bound to its key. -/
def resumeSession (key : SessionKey) (stored : SessionCounters) (resetFlag : Bool) (logonSeq heartBtIntSecs now : Nat) :
    SessionM Reaction := do
  let (counters, gapBegin) ← resumeCounters key stored resetFlag logonSeq now
  setFsm fun fsm => { fsm with counters := counters }
  onStore fun store => store.saveCounters key counters
  setFsm fun fsm => { fsm with phase := if gapBegin.isSome then .awaitingResend else .active }
  acknowledgeLogon heartBtIntSecs resetFlag gapBegin now

theorem resumeSession_admits {key : SessionKey} {claimed bound : Dispatch} (heartBtIntSecs now : Nat)
    (claim : Claimed logon venue key dispatch claimed) (bind : Moved (Standing.bound key) claimed bound)
    (numbered : logon.resetSeqNumFlag = some true ∨
      (bound.store.slot key).counters.nextTargetSeq ≤ logon.header.msgSeqNum)
    (speaks : Speaks good bound) :
    Admits good logon venue dispatch (exec (resumeSession key (bound.store.slot key).counters (logon.resetSeqNumFlag.getD false)
      logon.header.msgSeqNum heartBtIntSecs now) bound) := by
  unfold resumeSession
  obtain ⟨resumed, ⟨halt, stopped, quiet⟩ | ⟨counters, gap, ran, resume⟩⟩ := resumeCounters_run now numbered
  · rw [exec_bind_error stopped]
    exact ⟨.joined _ <| .broken .default claim bind ⟨halt, rfl⟩ (Or.inl rfl) (Or.inl rfl) quiet, fun _ wrong => by cases wrong⟩
  · rw [exec_bind_ok ran]
    dsimp only
    rw [setFsm, exec_modify_bind]
    have count : Counts counters resumed { resumed with fsm := { resumed.fsm with counters := counters } } :=
      ⟨rfl, rfl, rfl, rfl, rfl⟩
    obtain ⟨store, ⟨saved, wrote⟩ | ⟨⟨halt, stopped⟩, agree⟩⟩ := onStore_write (.counters key counters)
      { resumed with fsm := { resumed.fsm with counters := counters } }
    · rw [exec_bind_ok (show exec (onStore fun store => store.saveCounters key counters) _ = _ from saved), setFsm,
        exec_modify_bind]
      have save : Writes (.counters key counters) { resumed with fsm := { resumed.fsm with counters := counters } }
          { resumed with
            fsm := { resumed.fsm with counters := counters }
            store := store } := ⟨rfl, rfl, Or.inl rfl, wrote⟩
      have serving : (if gap.isSome then SessionPhase.awaitingResend else .active).stage = 1 := by split <;> rfl
      have opens : Opened
          { resumed with
            fsm := { resumed.fsm with counters := counters }
            store := store }
          { resumed with
            fsm := { resumed.fsm with
              counters := counters
              phase := if gap.isSome then .awaitingResend else .active }
            store := store } := ⟨rfl, rfl, ⟨rfl, rfl, rfl⟩, serving⟩
      have yields : Yields good Reaction.frames
          (acknowledgeLogon heartBtIntSecs (logon.resetSeqNumFlag.getD false) gap now) := acknowledgeLogon_yields
      have said := yields _
        (opens.speaks (save.speaks (fun _ => rfl) (count.speaks (resume.speaks speaks))))
      exact ⟨.joined _ <| .admitted counters claim bind resume count save opens said.1, said.2⟩
    · rw [exec_bind_error (show exec (onStore fun store => store.saveCounters key counters) _ = _ from stopped)]
      exact ⟨.joined _ <| .broken counters claim bind ⟨halt, rfl⟩ (Or.inr resume) (Or.inr count) ⟨rfl, rfl, Or.inl rfl, agree⟩,
        fun _ wrong => by cases wrong⟩

/-- A verified logon, once its lease is taken. -/
theorem admitLogon_admits {key : SessionKey} {claimed : Dispatch} (permissions : List Permission)
    (sessionEpoch heartBtIntSecs now : Nat) (claim : Claimed logon venue key dispatch claimed)
    (sender : claimed.fsm.venueComp = some logon.header.targetCompId)
    (target : claimed.fsm.clientComp = some logon.header.senderCompId)
    (speaks : Speaks good claimed) (named : Named good logon.header claimed.store) :
    Admits good logon venue dispatch (exec (admitLogon key.account permissions sessionEpoch heartBtIntSecs
      (logon.resetSeqNumFlag.getD false) logon.header.msgSeqNum now) claimed) := by
  have keyed : (⟨key.account, logon.header.senderCompId.val, logon.header.targetCompId.val⟩ : SessionKey) = key := by
    rw [← claim.keyed.sender, ← claim.keyed.target]
  unfold admitLogon
  rw [exec_get_bind, sender, target]
  dsimp only
  rw [keyed]
  obtain ⟨store, agree, ⟨halt, ran⟩ | ran⟩ := onStore_loadCounters key claimed
  · rw [exec_bind_error ran]
    exact ⟨.joined _ <| .dismissed claim (Or.inl ⟨halt, rfl⟩) (Quiet.sends ⟨rfl, rfl, Or.inl rfl, agree⟩), nofun⟩
  · rw [exec_bind_ok ran, ← agree.slot]
    have quiet : Quiet claimed { claimed with store := store } := ⟨rfl, rfl, Or.inl rfl, agree⟩
    have claim : Claimed logon venue key dispatch { claimed with store := store } :=
      { claim with moved := claim.moved.quiet quiet }
    have speaks := quiet.sends.speaks speaks
    split
    next stale =>
      have yields : Yields good Reaction.frames (logoutClose now "MsgSeqNum too low") := logoutClose_yields
      have said := yields _ speaks
      exact ⟨.joined _ <| .dismissed claim (Or.inr (logoutClose_closes _)) said.1, said.2⟩
    next reaches =>
      have bind : Moved (Standing.bound key) { claimed with store := store }
          { claimed with
            store := store
            fsm := { claimed.fsm with
              account := some key.account
              permissions := permissions
              sessionEpoch := sessionEpoch
              heartBtIntMs := heartBtIntSecs * 1000
              key := some key } } :=
        ⟨rfl, rfl, Or.inl rfl, rfl, rfl, rfl⟩
      have numbered : logon.resetSeqNumFlag = some true ∨
          (store.slot key).counters.nextTargetSeq ≤ logon.header.msgSeqNum := by
        by_cases asked : logon.resetSeqNumFlag = some true
        · exact Or.inl asked
        · refine Or.inr (not_lt.1 fun below => reaches ⟨?_, below⟩)
          cases flag : logon.resetSeqNumFlag with
          | none => exact Bool.false_ne_true
          | some set =>
            cases set with
            | false => exact Bool.false_ne_true
            | true => exact absurd flag asked
      have logged : ∀ entry ∈ (store.slot key).outbound, good entry.frame := by
        rw [agree.slot]
        exact named key claim.keyed.sender claim.keyed.target
      have admits := resumeSession_admits heartBtIntSecs now claim bind numbered (speaks.bound bind logged)
      rw [setFsm, exec_modify_bind]
      exact admits

/-- A logon of a session whose reply identity is that of the logon. -/
theorem handleLogon_admits {now : Nat}
    (sender : dispatch.fsm.venueComp = some logon.header.targetCompId)
    (target : dispatch.fsm.clientComp = some logon.header.senderCompId)
    (speaks : Speaks good dispatch) (named : Named good logon.header dispatch.store) :
    Admits good logon venue dispatch (exec (handleLogon venue logon now) dispatch) := by
  unfold handleLogon
  rw [exec_get_bind]
  split
  next => exact logoutClose_yields.refuses speaks
  next =>
    split
    next => exact logoutClose_yields.refuses speaks
    next =>
      cases verified : (venue.verifyFixPassword logon.username logon.password).bind venue.account with
      | none => exact logoutClose_yields.refuses speaks
      | some account =>
        dsimp only
        split
        next => exact logoutClose_yields.refuses speaks
        next =>
          split
          next => exact logoutClose_yields.refuses speaks
          next =>
            rcases tryClaim_run ⟨account.id, logon.header.senderCompId.val, logon.header.targetCompId.val⟩ dispatch with
              ran | ⟨free, claimed, ran, moved⟩
            · rw [exec_bind_ok ran]
              exact logoutClose_yields.refuses speaks
            · have claim : Claimed logon venue ⟨account.id, logon.header.senderCompId.val, logon.header.targetCompId.val⟩
                dispatch claimed := ⟨⟨rfl, rfl, by rw [verified]; rfl⟩, free, moved⟩
              have named : Named good logon.header claimed.store := by
                intro key sender target entry member
                rw [moved.store.slot] at member
                exact named key sender target entry member
              have admits := admitLogon_admits account.permissions account.revocationEpoch logon.heartBtInt now claim
                ((congrArg Standing.venueComp moved.standing).trans sender)
                ((congrArg Standing.clientComp moved.standing).trans target)
                (moved.speaks (fun _ => rfl) speaks) named
              rw [exec_bind_ok ran]
              exact admits

end Admitting

end Fauxchange.Fix
