import Fauxchange.Fix.OutboundRuns
import Fauxchange.Lib.GapFilled

/-! What a session serves to a resend request, against the frames it has emitted. The log of a key outlives the
reset of its numbers. -/

namespace Fauxchange.Fix
open Exchange Lib Fallible FixSessionStore

section Frames
variable (history : List StoreWrite)

/-- The frame that was emitted most recently with a number. -/
def LatestFrame (number : Nat) (frame : Frame) : Prop :=
  ∃ entry, (recorded history).reverse.find? (fun entry => entry.seq = number) = some entry ∧ entry.frame = frame

/-- A gap fill from a number to the next one that is served. -/
def Frame.Fills (number next : Nat) (frame : Frame) : Prop :=
  ∃ header : StandardHeader, frame = .message (.sequenceReset ⟨header, next, some true⟩) ∧ header.msgSeqNum = number

/-- The number that is sent last after a write: a renewing logon starts again from none. -/
def lastSent.next (last : Nat) : StoreWrite → Nat
  | .counters .. => last
  | .outbound _ entry _ => entry.seq
  | .reset _ event _ => if event.trigger = .logonReset then 0 else last

def lastSent (history : List StoreWrite) : Nat := history.foldl lastSent.next 0

/-- The last number of a resend. -/
def ResendRequest.upper (resend : ResendRequest) (sent : Nat) : Nat :=
  if resend.endSeqNo = 0 then sent else min resend.endSeqNo sent

end Frames

/-- A resend is served in full: every number of its range once and in order, by the frame emitted most recently with it
or by a gap fill that leads forward, and neither the session nor its store has changed. -/
def Resent (history : List StoreWrite) (resend : ResendRequest) (dispatch : Dispatch)
    (outcome : Except Halt Reaction × Dispatch) : Prop :=
  ∃ frames, outcome.1 = .ok (.emit frames) ∧
    GapFilled.Covers (resend.upper (lastSent history)) (LatestFrame history) Frame.Fills resend.beginSeqNo frames ∧
      outcome.2.fsm = dispatch.fsm ∧ Agree dispatch.store outcome.2.store

/-- The log repeats no number of a resend; at its last number the first frame may stand. -/
def LogUnrepeated (history : List StoreWrite) (resend : ResendRequest) (log : List StoredOutbound) : Prop :=
  GapFilled.Unrepeated StoredOutbound.seq StoredOutbound.frame (resend.upper (lastSent history)) (LatestFrame history)
    Frame.Fills resend.beginSeqNo log

/-- The log of a key is what is left of its emitted frames, which carry their numbers, and the counter is past the last. -/
structure Logged (key : SessionKey) (store : FixSessionStore) : Prop where
  retained : (store.slot key).outbound <:+ recorded (store.history key)
  numbered : ∀ entry ∈ recorded (store.history key), entry.frame.header.msgSeqNum = entry.seq
  next : (store.slot key).counters.nextSenderSeq = lastSent (store.history key) + 1

section Logs
variable {key : SessionKey} {store after : FixSessionStore} {write : StoreWrite}

theorem lastSent_append (history : List StoreWrite) (write : StoreWrite) :
    lastSent (history ++ [write]) = lastSent.next (lastSent history) write := by
  unfold lastSent
  rw [List.foldl_append]
  rfl

theorem logged_new (key : SessionKey) (backend : Backend) : Logged key (.new backend) where
  retained := by
    rw [slot_new]
    exact List.suffix_rfl
  numbered := List.forall_mem_nil _
  next := by
    rw [slot_new]
    rfl

theorem Logged.same (logged : Logged key store) (slot : after.slot key = store.slot key)
    (history : after.history key = store.history key) : Logged key after := by
  refine ⟨?_, ?_, ?_⟩
  · rw [slot, history]
    exact logged.retained
  · rw [history]
    exact logged.numbered
  · rw [slot, history]
    exact logged.next

/-- A write that records no frame keeps the log. -/
theorem Logged.silent (logged : Logged key store) (wrote : Wrote write store after) (own : write.key = key)
    (silent : write.frame? = none)
    (next : (write.apply (store.slot key)).counters.nextSenderSeq = lastSent (store.history key ++ [write]) + 1) :
    Logged key after := by
  subst own
  have frames : recorded (store.history write.key ++ [write]) = recorded (store.history write.key) := by
    rw [recorded_append, show recorded [write] = [] from List.filterMap_cons_none silent, List.append_nil]
  have outbound : (write.apply (store.slot write.key)).outbound = (store.slot write.key).outbound := by
    cases write with
    | counters => rfl
    | outbound => cases silent
    | reset => rfl
  refine ⟨?_, ?_, ?_⟩
  · rw [wrote.slot_self, wrote.history_self, frames, outbound]
    exact logged.retained
  · rw [wrote.history_self, frames]
    exact logged.numbered
  · rw [wrote.slot_self, wrote.history_self, next]

/-- The writes of a key keep its log, a logon reset too: it starts the numbers again and leaves the frames. -/
theorem logged_law (key : SessionKey) : KeyLaw key (Logged key) where
  same := fun logged slot history => logged.same slot history
  saves := by
    intro store after write logged wrote own saves saved
    apply logged.silent wrote own saves.silent
    rw [saved, logged.next, lastSent_append]
    cases write with
    | counters => rfl
    | outbound => cases saves
    | reset key event counters =>
      unfold lastSent.next
      dsimp only
      rw [if_neg]
      rw [show event.trigger = _ from saves]
      decide
  sends := by
    intro store after frame number size logged wrote counter numbered below
    have slot : after.slot key = _ := wrote.slot_self
    have history : after.history key = _ := wrote.history_self
    have frames : recorded (store.history key ++ [.outbound key ⟨number, frame, size⟩ (number + 1)]) =
        recorded (store.history key) ++ [⟨number, frame, size⟩] := recorded_append _ _
    refine ⟨?_, ?_, ?_⟩
    · rw [slot, history]
      change _ <:+ recorded (store.history key ++ [.outbound key ⟨number, frame, size⟩ (number + 1)])
      rw [frames]
      obtain ⟨early, whole⟩ := logged.retained
      apply (Slot.evict_suffix _ _).trans
      rw [← whole, List.append_assoc]
      exact List.suffix_append early _
    · rw [history]
      change ∀ entry ∈ recorded (store.history key ++ [.outbound key ⟨number, frame, size⟩ (number + 1)]), _
      rw [frames]
      exact List.forall_mem_append.2 ⟨logged.numbered, List.forall_mem_singleton.2 numbered⟩
    · rw [slot, history]
      change number + 1 = lastSent (store.history key ++ [.outbound key ⟨number, frame, size⟩ (number + 1)]) + 1
      rw [lastSent_append]
      rfl

theorem logged_renewing (key : SessionKey) : Renewing key (Logged key) := by
  intro store after event trigger logged wrote
  apply logged.silent wrote rfl rfl
  rw [lastSent_append]
  unfold lastSent.next
  dsimp only
  rw [if_pos trigger]
  rfl

end Logs

/-- The frames of a log in a range, ascending. -/
def ranged (log : List StoredOutbound) (first last : Nat) : List StoredOutbound :=
  (log.filter fun entry => first ≤ entry.seq ∧ (last = 0 ∨ entry.seq ≤ last)).mergeSort
    fun left right => left.seq ≤ right.seq

section Ranges
variable {log : List StoredOutbound} {first last upper number : Nat}

theorem ranged_ascends (log : List StoredOutbound) (first last : Nat) : GapFilled.Ascends StoredOutbound.seq first (ranged log first last) where
  sorted := by
    have sorted : (ranged log first last).Pairwise fun left right => decide (left.seq ≤ right.seq) = true := by
      apply List.pairwise_mergeSort
      · simp
        omega
      · simp
        omega
    exact sorted.imp of_decide_eq_true
  low := by
    intro entry member
    have listed := (List.mem_filter.1 (List.mem_mergeSort.1 member)).2
    exact (of_decide_eq_true listed).1

/-- The range holds all frames of the log with a number of it, in the order of the log. -/
theorem ranged_filter (from' : first ≤ number) (till : last = 0 ∨ number ≤ last) :
    (ranged log first last).filter (fun entry => entry.seq = number) = log.filter fun entry => entry.seq = number := by
  unfold ranged
  rw [GapFilled.filter_mergeSort, List.filter_filter]
  apply List.filter_congr
  intro entry _
  by_cases same : entry.seq = number
  · simp [same, from', till]
  · simp [same]

theorem ranged_unrepeated (latest : Nat → Frame → Prop) (fills : Nat → Nat → Frame → Prop)
    (till : last = 0 ∨ upper ≤ last) :
    GapFilled.Unrepeated StoredOutbound.seq StoredOutbound.frame upper latest fills first (ranged log first last) ↔
      GapFilled.Unrepeated StoredOutbound.seq StoredOutbound.frame upper latest fills first log := by
  have within : ∀ number, number ≤ upper → last = 0 ∨ number ≤ last := fun number below =>
    till.imp_right below.trans
  have same : ∀ number, first ≤ number → number ≤ upper →
      (ranged log first last).find? (fun entry => entry.seq = number) = log.find? fun entry => entry.seq = number := by
    intro number above below
    rw [← List.head?_filter, ← List.head?_filter, ranged_filter above (within number below)]
  constructor
  · intro unrepeated
    refine ⟨?_, ?_⟩
    · intro number above below
      rw [← ranged_filter above (within number below.le)]
      exact unrepeated.once number above below
    · intro reaches entry found
      exact unrepeated.last reaches entry ((same upper reaches le_rfl).trans found)
  · intro unrepeated
    refine ⟨?_, ?_⟩
    · intro number above below
      rw [ranged_filter above (within number below.le)]
      exact unrepeated.once number above below
    · intro reaches entry found
      exact unrepeated.last reaches entry ((same upper reaches le_rfl).symm.trans found)

/-- What is read of a log that is left of the emitted frames ends with the most recent frames. -/
theorem ranged_current {history : List StoreWrite} (retained : log <:+ recorded history) :
    GapFilled.Current StoredOutbound.seq StoredOutbound.frame (LatestFrame history) (ranged log first last) := by
  intro number entry found
  have listed := List.mem_mergeSort.1 (List.mem_reverse.1 (List.mem_of_find?_eq_some found))
  have numbered : entry.seq = number := by simpa using List.find?_some found
  obtain ⟨from', till⟩ := of_decide_eq_true (List.mem_filter.1 listed).2
  rw [numbered] at from' till
  refine ⟨entry, ?_, rfl⟩
  obtain ⟨early, whole⟩ := retained
  rw [← List.head?_filter, List.filter_reverse, ranged_filter from' till, ← List.filter_reverse,
    List.head?_filter] at found
  rw [← whole, List.reverse_append, List.find?_append, found, Option.some_or]

end Ranges

section Serving
variable [Ironfix] {key : SessionKey} {dispatch : Dispatch} {resend : ResendRequest} {history : List StoreWrite}

/-- The framing encoder frames gap fills. -/
def FramesGapFills : Prop :=
  ∀ (header : StandardHeader) (newSeqNo : Nat),
    ∃ bytes, (Frame.message (.sequenceReset ⟨header, newSeqNo, some true⟩)).encode = .ok bytes

/-- The gap fill of a session. -/
def gapFill (sender target : CompId) (now atSeq newSeqNo : Nat) : Frame :=
  .message (.sequenceReset ⟨⟨sender, target, atSeq, .fromEpochMs now⟩, newSeqNo, some true⟩)

theorem gapFillFrame_eq {fsm : SessionFsm} {sender target : CompId} (frames : FramesGapFills)
    (venue : fsm.venueComp = some sender) (client : fsm.clientComp = some target) (atSeq newSeqNo now : Nat) :
    gapFillFrame fsm atSeq newSeqNo now = .ok (gapFill sender target now atSeq newSeqNo) := by
  obtain ⟨bytes, encoded⟩ := frames ⟨sender, target, atSeq, .fromEpochMs now⟩ newSeqNo
  unfold gapFillFrame
  rw [venue, client]
  dsimp only
  rw [encoded]
  rfl

omit [Ironfix] in
/-- The loop serves the log with the fills that it can frame. -/
theorem servedFrames_eq {filling : Nat → Nat → Except Halt Frame} {fill : Nat → Nat → Frame} {upper : Nat}
    (framed : ∀ first next, filling first next = .ok (fill first next)) (first : Nat) (stored : List StoredOutbound) :
    servedFrames filling upper first stored =
      .ok (GapFilled.serve StoredOutbound.seq StoredOutbound.frame fill upper first stored) := by
  induction stored generalizing first with
  | nil =>
    unfold servedFrames GapFilled.serve
    split
    · rw [framed]
      rfl
    · rfl
  | cons entry rest ih =>
    unfold servedFrames GapFilled.serve
    split
    · rfl
    · split
      · rw [ih]
        rfl
      · split
        · rw [framed, ih]
          rfl
        · rw [framed]
          rfl

omit [Ironfix] in
/-- The read of a range, where the store answers it. -/
theorem outboundRange_answered {store : FixSessionStore} (first last : Nat) (answered : store.reach.1 = .ok ()) :
    store.outboundRange key first last = (.ok (ranged (store.slot key).outbound first last), store.reach.2) := by
  have same := @reach_slot store key
  unfold outboundRange
  revert answered same
  rcases store.reach with ⟨error | done, reached⟩
  · intro wrong
    cases wrong
  · intro _ same
    dsimp only at same ⊢
    rw [same]
    rfl

omit [Ironfix] in
theorem outboundRange_unanswered {store : FixSessionStore} {error : SessionStoreError} (first last : Nat)
    (unanswered : store.reach.1 = .error error) :
    store.outboundRange key first last = (.error error, store.reach.2) := by
  unfold outboundRange
  revert unanswered
  rcases store.reach with ⟨failed | done, reached⟩
  · intro same
    cases same
    rfl
  · intro wrong
    cases wrong

omit [Ironfix] in
theorem onStore_eq {α : Type} {operation : FixSessionStore → Except SessionStoreError α × FixSessionStore} {value : α}
    {store : FixSessionStore} (answered : operation dispatch.store = (.ok value, store)) :
    exec (onStore operation) dispatch = (.ok value, { dispatch with store := store }) := by
  unfold onStore
  rw [exec_transition, answered]

omit [Ironfix] in
theorem onStore_error {α : Type} {operation : FixSessionStore → Except SessionStoreError α × FixSessionStore}
    {error : SessionStoreError} {store : FixSessionStore} (refused : operation dispatch.store = (.error error, store)) :
    exec (onStore operation) dispatch = (.error (.sealed (.store error)), { dispatch with store := store }) := by
  unfold onStore
  rw [exec_transition, refused]

/-- What a session serves to a resend request, where the store answers it. -/
theorem serveResend_answered {sender target : CompId} (resend : ResendRequest) (now : Nat) (frames : FramesGapFills) (bound : dispatch.fsm.key = some key)
    (venue : dispatch.fsm.venueComp = some sender) (client : dispatch.fsm.clientComp = some target)
    (answered : dispatch.store.reach.1 = .ok ()) :
    exec (serveResend resend now) dispatch =
      (.ok (.emit (GapFilled.serve StoredOutbound.seq StoredOutbound.frame (gapFill sender target now)
        (resend.upper (max dispatch.fsm.counters.nextSenderSeq firstSeqNum - 1)) resend.beginSeqNo
        (ranged (dispatch.store.slot key).outbound resend.beginSeqNo resend.endSeqNo))),
        { dispatch with store := dispatch.store.reach.2 }) := by
  have read : exec (onStore fun store => store.outboundRange key resend.beginSeqNo resend.endSeqNo) dispatch = _ :=
    onStore_eq (outboundRange_answered resend.beginSeqNo resend.endSeqNo answered)
  unfold serveResend
  rw [exec_get_bind, bound]
  dsimp only
  rw [exec_bind_ok read]
  rw [servedFrames_eq fun first next => gapFillFrame_eq frames venue client first next now]
  rfl

theorem serveResend_unanswered (resend : ResendRequest) (now : Nat) {error : SessionStoreError} (bound : dispatch.fsm.key = some key)
    (unanswered : dispatch.store.reach.1 = .error error) :
    ∃ halt, (exec (serveResend resend now) dispatch).1 = .error halt := by
  have read : exec (onStore fun store => store.outboundRange key resend.beginSeqNo resend.endSeqNo) dispatch = _ :=
    onStore_error (outboundRange_unanswered resend.beginSeqNo resend.endSeqNo unanswered)
  unfold serveResend
  rw [exec_get_bind, bound]
  dsimp only
  rw [exec_bind_error read]
  exact ⟨_, rfl⟩

omit [Ironfix] in
theorem numbered_frames (sender target : CompId) (now : Nat)
    (numbered : ∀ entry ∈ recorded history, entry.frame.header.msgSeqNum = entry.seq) :
    GapFilled.Numbered (fun frame : Frame => frame.header.msgSeqNum) (gapFill sender target now) (LatestFrame history)
      Frame.Fills where
  latest := by
    rintro place frame ⟨entry, found, rfl⟩
    have listed := List.mem_reverse.1 (List.mem_of_find?_eq_some found)
    have same : entry.seq = place := by simpa using List.find?_some found
    rw [numbered entry listed, same]
  fills := by
    rintro place next frame ⟨header, rfl, numbered⟩
    exact numbered
  fill _ _ := rfl

/-- A bound session serves a resend in full exactly where the store answers it and the log repeats none of its
numbers. -/
theorem serveResend_resent_iff {sender target : CompId} {now : Nat} (frames : FramesGapFills)
    (bound : dispatch.fsm.key = some key) (venue : dispatch.fsm.venueComp = some sender)
    (client : dispatch.fsm.clientComp = some target) (logged : Logged key dispatch.store)
    (level : dispatch.outbound = (dispatch.store.slot key).counters.nextSenderSeq) :
    Resent (dispatch.store.history key) resend dispatch (exec (serveResend resend now) dispatch) ↔
      dispatch.store.reach.1 = .ok () ∧
        LogUnrepeated (dispatch.store.history key) resend (dispatch.store.slot key).outbound := by
  cases answer : dispatch.store.reach.1 with
  | error error =>
    obtain ⟨halt, failed⟩ := serveResend_unanswered resend now bound answer
    constructor
    · rintro ⟨served, finished, -⟩
      rw [failed] at finished
      cases finished
    · rintro ⟨wrong, -⟩
      cases wrong
  | ok done =>
    have ran := serveResend_answered resend now frames bound venue client answer
    have sent : max dispatch.fsm.counters.nextSenderSeq firstSeqNum - 1 = lastSent (dispatch.store.history key) := by
      have next := level.trans logged.next
      unfold Dispatch.outbound at next
      rw [next]
      unfold firstSeqNum
      omega
    rw [sent] at ran
    have till : resend.endSeqNo = 0 ∨ resend.upper (lastSent (dispatch.store.history key)) ≤ resend.endSeqNo := by
      unfold ResendRequest.upper
      split
      next zero => exact Or.inl zero
      next => exact Or.inr (Nat.min_le_left _ _)
    have numbered := numbered_frames sender target now logged.numbered
    have ascends := ranged_ascends (dispatch.store.slot key).outbound resend.beginSeqNo resend.endSeqNo
    unfold Resent LogUnrepeated
    rw [ran, ← ranged_unrepeated _ _ till]
    constructor
    · rintro ⟨served, finished, covers, -⟩
      cases finished
      refine ⟨rfl, GapFilled.unrepeated_of_covers numbered ascends ?_ covers⟩
      intro entry member
      have listed := List.mem_of_mem_filter (List.mem_mergeSort.1 member)
      exact logged.numbered entry (logged.retained.subset listed)
    · rintro ⟨-, unrepeated⟩
      refine ⟨_, rfl, ?_, rfl, reach_frame⟩
      apply GapFilled.covers_serve _ ascends (ranged_current logged.retained) unrepeated
      intro first next
      exact ⟨_, rfl, rfl⟩

end Serving

theorem filter_length_count (log : List StoredOutbound) (number : Nat) :
    (log.filter fun entry => entry.seq = number).length = (log.map StoredOutbound.seq).count number := by
  rw [List.count_eq_countP, List.countP_map, List.countP_eq_length_filter]
  congr 1

/-- Without a logon reset, no number is repeated. -/
theorem Logged.unrepeated {key : SessionKey} {store : FixSessionStore} (logged : Logged key store)
    (unbroken : Unbroken (store.history key)) (resend : ResendRequest) :
    LogUnrepeated (store.history key) resend (store.slot key).outbound where
  once := by
    intro number _ _
    rw [filter_length_count]
    exact (logged.retained.sublist.map _).count_le number |>.trans (List.nodup_iff_count_le_one.1 unbroken.nodup number)
  last := by
    intro _ entry found
    have listed := logged.retained.subset (List.mem_of_find?_eq_some found)
    have same : entry.seq = resend.upper (lastSent (store.history key)) := by simpa using List.find?_some found
    left
    cases latest : (recorded (store.history key)).reverse.find? fun other => other.seq = entry.seq with
    | none =>
      have absent := List.find?_eq_none.1 latest entry (List.mem_reverse.2 listed)
      simp at absent
    | some other =>
      have other_listed := List.mem_reverse.1 (List.mem_of_find?_eq_some latest)
      have equal : other.seq = entry.seq := by simpa using List.find?_some latest
      have unique := List.inj_on_of_nodup_map unbroken.nodup other_listed listed equal
      rw [← same]
      exact ⟨other, latest, congrArg StoredOutbound.frame unique⟩

section Running
variable [Ironfix] {U : Upstream} {key : SessionKey} {acceptor : Acceptor} {session : VenueFixSession}

theorem levels_logged {backend : Backend} {config : SessionConfig} {actions : List AcceptorAction}
    (run : runFrom (Acceptor.step U) (.new backend config) actions = some acceptor) :
    Levels key (Logged key) acceptor := by
  apply runFrom_preserved ?_ (levels_new config (logged_new key backend)) run
  intro state action next levels taken
  exact levels.step (logged_law key) (logged_new key _) (fun _ => logged_renewing key) taken

/-- A live session of the key serves a resend that it hears in full exactly where the store answers it and the log
repeats none of its numbers. -/
theorem Levels.resent_iff (levels : Levels key (Logged key) acceptor) (frames : FramesGapFills)
    (serves : acceptor.Serves key session) (resend : ResendRequest) (outages : List (Option String)) (now : Nat) :
    Resent (acceptor.store.history key) resend ((acceptor.load session outages).heard resend.header now)
        (exec (serveResend resend now) ((acceptor.load session outages).heard resend.header now)) ↔
      (acceptor.load session outages).store.reach.1 = .ok () ∧
        LogUnrepeated (acceptor.store.history key) resend (acceptor.store.slot key).outbound := by
  have logged : Logged key (acceptor.load session outages).store := levels.holds.same rfl rfl
  have level := levels.level serves
  obtain ⟨connection, present, bound⟩ := serves
  exact @serveResend_resent_iff _ key ((acceptor.load session outages).heard resend.header now) resend _ _ now frames
    bound rfl rfl logged level

/-- In every run, whatever the messages, logon resets, evictions, outages and crashes, a live session serves a resend
request in full exactly where the store answers the read and the retained log repeats none of its numbers. -/
theorem resends_resent_iff (frames : FramesGapFills) (backend : Backend) (config : SessionConfig)
    (actions : List AcceptorAction) (run : runFrom (Acceptor.step U) (.new backend config) actions = some acceptor)
    (serves : acceptor.Serves key session) (resend : ResendRequest) (outages : List (Option String)) (now : Nat) :
    Resent (acceptor.store.history key) resend ((acceptor.load session outages).heard resend.header now)
        (exec (serveResend resend now) ((acceptor.load session outages).heard resend.header now)) ↔
      (acceptor.load session outages).store.reach.1 = .ok () ∧
        LogUnrepeated (acceptor.store.history key) resend (acceptor.store.slot key).outbound :=
  (levels_logged run).resent_iff frames serves resend outages now

end Running

theorem referenceWire_framesGapFills : @FramesGapFills referenceWire := fun _ _ => ⟨_, rfl⟩

/-- A logon, an answer to a test request and a request for all of it. -/
def steadySession : List AcceptorAction :=
  [.accept 0 "10.0.0.1" 0, aliceSends (aliceLogon 1), aliceSends (.testRequest ⟨aliceHeader 2, "A"⟩)]

/-- The same after a logon that renews the numbers. -/
def renewedSession : List AcceptorAction :=
  [.accept 0 "10.0.0.1" 0, aliceSends (aliceLogon 1), .disconnect 0, .accept 0 "10.0.0.1" 0,
    aliceSends (.logon ⟨aliceHeader 1, 30, "alice", "secret", some true⟩),
    aliceSends (.testRequest ⟨aliceHeader 2, "A"⟩)]

def resendAll : ResendRequest := ⟨aliceHeader 3, 1, 0⟩

/-- The session replays the frame from before the renewal at the first number, and then goes back to it. -/
theorem renewedSession_unresent : ∃ acceptor session,
    runFrom referenceStep (.new .inMemory ⟨30000, 60⟩) renewedSession = some acceptor ∧
      acceptor.Serves aliceKey session ∧
      (acceptor.store.slot aliceKey).outbound.map StoredOutbound.seq = [1, 1, 2] ∧
      ¬ Resent (acceptor.store.history aliceKey) resendAll
        ((acceptor.load session []).heard resendAll.header 1711713600500)
        (exec (@serveResend referenceWire resendAll 1711713600500)
          ((acceptor.load session []).heard resendAll.header 1711713600500)) := by
  have traits : (runFrom referenceStep (.new .inMemory ⟨30000, 60⟩) renewedSession).map (fun acceptor =>
      ((acceptor.store.slot aliceKey).outbound.map StoredOutbound.seq, lastSent (acceptor.store.history aliceKey),
        (acceptor.sessions 0).map fun session => session.fsm.key)) = some ([1, 1, 2], 2, some (some aliceKey)) := by
    decide +kernel
  obtain ⟨acceptor, run, same⟩ := Option.map_eq_some_iff.1 traits
  have numbers : (acceptor.store.slot aliceKey).outbound.map StoredOutbound.seq = [1, 1, 2] := congrArg Prod.fst same
  have sent : lastSent (acceptor.store.history aliceKey) = 2 := congrArg (fun traits => traits.2.1) same
  have seated : (acceptor.sessions 0).map (fun session => session.fsm.key) = some (some aliceKey) :=
    congrArg (fun traits => traits.2.2) same
  obtain ⟨session, present, bound⟩ := Option.map_eq_some_iff.1 seated
  have serves : acceptor.Serves aliceKey session := ⟨0, present, bound⟩
  refine ⟨acceptor, session, run, serves, numbers, ?_⟩
  intro resent
  have levels : Levels aliceKey (Logged aliceKey) acceptor := @levels_logged referenceWire _ _ _ _ _ _ run
  have unrepeated := ((@Levels.resent_iff referenceWire _ _ _ levels referenceWire_framesGapFills serves resendAll []
    1711713600500).1 resent).2
  have once := unrepeated.once 1 le_rfl (by rw [sent]; decide)
  rw [filter_length_count, numbers] at once
  exact absurd once (by decide)

theorem steadySession_resent : ∃ acceptor session,
    runFrom referenceStep (.new .inMemory ⟨30000, 60⟩) steadySession = some acceptor ∧
      acceptor.Serves aliceKey session ∧
      Resent (acceptor.store.history aliceKey) resendAll
        ((acceptor.load session []).heard resendAll.header 1711713600500)
        (exec (@serveResend referenceWire resendAll 1711713600500)
          ((acceptor.load session []).heard resendAll.header 1711713600500)) := by
  have seated : (runFrom referenceStep (.new .inMemory ⟨30000, 60⟩) steadySession).map (fun acceptor =>
      (acceptor.sessions 0).map fun session => session.fsm.key) = some (some (some aliceKey)) := by decide +kernel
  have unrenewed : ∀ action ∈ steadySession, ¬ action.Renews aliceKey := by
    rintro action member ⟨connection, event, venue, outages, room, logon, asked, brought, -, renewed⟩
    simp only [steadySession, List.mem_cons, List.not_mem_nil, or_false] at member
    rcases member with rfl | rfl | rfl <;> cases asked
    · cases brought
      cases renewed
    · cases brought
  obtain ⟨acceptor, run, same⟩ := Option.map_eq_some_iff.1 seated
  obtain ⟨session, present, bound⟩ := Option.map_eq_some_iff.1 same
  have serves : acceptor.Serves aliceKey session := ⟨0, present, bound⟩
  refine ⟨acceptor, session, run, serves, ?_⟩
  apply (@resends_resent_iff referenceWire _ _ _ _ referenceWire_framesGapFills _ _ _ run serves resendAll []
    1711713600500).2
  have levels : Levels aliceKey (Logged aliceKey) acceptor := @levels_logged referenceWire _ _ _ _ _ _ run
  have numbered : Numbered aliceKey acceptor := @numbered_runs referenceWire _ _ _ _ _ _ (throughout_of_forall unrenewed) run
  have answered : (acceptor.load session []).store.reach.1 = .ok () := by
    unfold reach
    split
    next outages => cases outages
    next outages => cases outages
    next => rfl
  exact ⟨answered, levels.holds.unrepeated numbered.recorded.now resendAll⟩

end Fauxchange.Fix
