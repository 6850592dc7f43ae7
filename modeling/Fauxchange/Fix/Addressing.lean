import Fauxchange.Fix.OutboundRuns

/-! Whom the frames of a session are addressed to: the pair that its key was bound with at logon, as long as its
messages carry that pair. -/

namespace Fauxchange.Fix
open Exchange Lib Fallible FixSessionStore

/-- A frame goes from the venue's comp id of a key to the client's. -/
def Frame.Carries (key : SessionKey) (frame : Frame) : Prop :=
  frame.header.senderCompId.val = key.targetCompId ∧ frame.header.targetCompId.val = key.senderCompId

/-- The reply identity of a session is the pair of its key. -/
def SessionFsm.RepliesTo (key : SessionKey) (fsm : SessionFsm) : Prop :=
  fsm.venueComp.map Subtype.val = some key.targetCompId ∧ fsm.clientComp.map Subtype.val = some key.senderCompId

/-- The frames in the store carry the pair of the key that they are stored under. -/
structure FixSessionStore.Carried (store : FixSessionStore) : Prop where
  slots : ∀ {key entry}, entry ∈ (store.slot key).outbound → entry.frame.Carries key
  records : ∀ {key entry}, entry ∈ recorded (store.history key) → entry.frame.Carries key

/-- A session replies to the pair of its key, over a store that carries the pairs. -/
structure Addressed (dispatch : Dispatch) : Prop where
  carried : dispatch.store.Carried
  replies : ∀ {key}, dispatch.fsm.key = some key → dispatch.fsm.RepliesTo key

section Stores
variable {store after : FixSessionStore} {write : StoreWrite}

theorem carried_new (backend : Backend) : (new backend).Carried where
  slots := by
    intro key entry member
    rw [slot_new] at member
    cases member
  records member := nomatch member

theorem FixSessionStore.Carried.agree (carried : store.Carried) (agree : Agree store after) : after.Carried where
  slots := by
    intro key entry member
    rw [agree.slot] at member
    exact carried.slots member
  records := by
    intro key entry member
    rw [agree.history] at member
    exact carried.records member

/-- A write whose frame, if it has one, carries the pair of its key. -/
theorem FixSessionStore.Carried.wrote (carried : store.Carried) (wrote : Wrote write store after)
    (slot : ∀ entry ∈ (write.apply (store.slot write.key)).outbound, entry ∈ (store.slot write.key).outbound ∨ some entry = write.frame?)
    (carries : ∀ entry, write.frame? = some entry → entry.frame.Carries write.key) : after.Carried where
  slots := by
    intro key entry member
    by_cases own : write.key = key
    · subst own
      rw [wrote.slot_self] at member
      rcases slot entry member with old | fresh
      · exact carried.slots old
      · exact carries entry fresh.symm
    · rw [wrote.slot_of_ne own] at member
      exact carried.slots member
  records := by
    intro key entry member
    by_cases own : write.key = key
    · subst own
      rw [wrote.history_self, recorded_append] at member
      rcases List.mem_append.1 member with old | fresh
      · exact carried.records old
      · obtain ⟨last, single, made⟩ := List.mem_filterMap.1 fresh
        rw [List.mem_singleton.1 single] at made
        exact carries entry made
    · rw [wrote.history_of_ne own] at member
      exact carried.records member

end Stores

section Dispatches
variable {key : SessionKey} {dispatch reached : Dispatch}

theorem SessionFsm.RepliesTo.same {fsm other : SessionFsm} (replies : fsm.RepliesTo key) (venue : other.venueComp = fsm.venueComp)
    (client : other.clientComp = fsm.clientComp) : other.RepliesTo key := by
  unfold SessionFsm.RepliesTo
  rw [venue, client]
  exact replies

/-- Where the key and the reply identity stay, only the store is to be looked at. -/
theorem Addressed.kept (addressed : Addressed dispatch) (same : reached.standing.identity = dispatch.standing.identity)
    (carried : reached.store.Carried) : Addressed reached := by
  have bound : reached.fsm.key = dispatch.fsm.key := congrArg Prod.fst same
  refine ⟨carried, fun held => ?_⟩
  exact SessionFsm.RepliesTo.same (addressed.replies (bound ▸ held)) (congrArg (fun identity => identity.2.1) same)
    (congrArg (fun identity => identity.2.2) same)

theorem Quiet.addressed (quiet : Quiet dispatch reached) (addressed : Addressed dispatch) : Addressed reached :=
  addressed.kept (congrArg Standing.identity quiet.standing) (addressed.carried.agree quiet.store)

theorem Moved.addressed {change : Standing → Standing} (moved : Moved change dispatch reached)
    (kept : ∀ standing, (change standing).identity = standing.identity) (addressed : Addressed dispatch) : Addressed reached :=
  addressed.kept (by rw [moved.standing, kept]) (addressed.carried.agree moved.store)

/-- A write without a frame. -/
theorem Writes.addressed {write : StoreWrite} (writes : Writes write dispatch reached) (silent : write.frame? = none)
    (kept : ∀ slot, (write.apply slot).outbound = slot.outbound) (addressed : Addressed dispatch) : Addressed reached := by
  refine addressed.kept (congrArg Standing.identity writes.standing) (addressed.carried.wrote writes.store ?_ ?_)
  · intro entry member
    rw [kept] at member
    exact Or.inl member
  · intro entry made
    rw [silent] at made
    cases made

/-- A frame goes out and is stored under the reply identity. -/
theorem Sent.addressed {frame : Frame} (sent : Sent frame dispatch reached) (addressed : Addressed dispatch) :
    Addressed reached := by
  refine addressed.kept (congrArg Standing.identity sent.standing) ?_
  cases held : dispatch.fsm.key with
  | none => exact addressed.carried.agree (sent.unbound held)
  | some key =>
    obtain ⟨size, wrote⟩ := sent.stored key held
    obtain ⟨venue, client⟩ := addressed.replies held
    rw [sent.venueComp] at venue
    rw [sent.clientComp] at client
    refine addressed.carried.wrote wrote ?_ ?_
    · intro entry member
      have kept := (Slot.evict_suffix _ _).subset member
      rcases List.mem_append.1 kept with old | fresh
      · exact Or.inl old
      · exact Or.inr (congrArg some (List.mem_singleton.1 fresh))
    · intro entry made
      cases made
      exact ⟨Option.some.inj venue, Option.some.inj client⟩

theorem Sends.addressed (sends : Sends dispatch reached) (addressed : Addressed dispatch) : Addressed reached :=
  sends.preserves Addressed (fun quiet addressed => quiet.addressed addressed)
    (fun sent addressed => sent.addressed addressed) addressed

theorem Acts.addressed (acts : Acts key dispatch reached) (addressed : Addressed dispatch) : Addressed reached := by
  refine acts.preserves Addressed (fun act addressed => ?_) addressed
  cases act with
  | sends step => exact Sends.addressed (.single step) addressed
  | expects next move => exact move.addressed (fun _ => rfl) addressed
  | submits call mine move => exact move.addressed (fun _ => rfl) addressed
  | saves save => exact save.addressed rfl (fun _ => rfl) addressed
  | resets event trigger save => exact save.addressed rfl (fun _ => rfl) addressed

end Dispatches

section Logons
variable {logon : Logon} {venue : AppState} {key : SessionKey} {dispatch claimed bound reached : Dispatch}

/-- A logon is for a key whose pair it carries. -/
theorem Logon.For.replies (keyed : logon.For venue key) (sender : dispatch.fsm.venueComp = some logon.header.targetCompId)
    (target : dispatch.fsm.clientComp = some logon.header.senderCompId) : dispatch.fsm.RepliesTo key := by
  unfold SessionFsm.RepliesTo
  rw [sender, target, keyed.sender, keyed.target]
  exact ⟨rfl, rfl⟩

theorem Addressed.binding (addressed : Addressed claimed) (bind : Moved (Standing.bound key) claimed bound)
    (replies : claimed.fsm.RepliesTo key) : Addressed bound where
  carried := addressed.carried.agree bind.store
  replies := by
    intro other held
    cases (show bound.fsm.key = some key from congrArg Standing.key bind.standing).symm.trans held
    exact SessionFsm.RepliesTo.same replies (congrArg Standing.venueComp bind.standing) (congrArg Standing.clientComp bind.standing)

theorem Resumes.addressed {counters : SessionCounters} (resumes : Resumes logon key counters dispatch reached)
    (addressed : Addressed dispatch) : Addressed reached := by
  cases resumes with
  | kept asked same numbered resumed => exact same ▸ addressed
  | renewed event asked journal trigger resumed => exact journal.addressed rfl (fun _ => rfl) addressed

theorem Counts.addressed {counters : SessionCounters} (counts : Counts counters dispatch reached)
    (addressed : Addressed dispatch) : Addressed reached :=
  addressed.kept (by rw [counts.standing]; rfl) (addressed.carried.agree counts.store)

theorem Opened.addressed (opens : Opened dispatch reached) (addressed : Addressed dispatch) : Addressed reached :=
  addressed.kept (congrArg Standing.identity opens.standing) (addressed.carried.agree opens.store)

theorem Joined.addressed {α : Type} {result : Except Halt α} (joined : Joined logon venue key dispatch result reached)
    (sender : dispatch.fsm.venueComp = some logon.header.targetCompId)
    (target : dispatch.fsm.clientComp = some logon.header.senderCompId) (addressed : Addressed dispatch) : Addressed reached := by
  have claiming : ∀ {claimed}, Claimed logon venue key dispatch claimed → Addressed claimed :=
    fun claim => claim.moved.addressed (fun _ => rfl) addressed
  have binding : ∀ {claimed bound}, Claimed logon venue key dispatch claimed → Moved (Standing.bound key) claimed bound →
      Addressed bound := by
    intro claimed bound claim bind
    refine (claiming claim).binding bind (claim.keyed.replies ?_ ?_)
    · exact (congrArg Standing.venueComp claim.moved.standing).trans sender
    · exact (congrArg Standing.clientComp claim.moved.standing).trans target
  cases joined with
  | dismissed claim ended sends => exact sends.addressed (claiming claim)
  | broken counters claim bind stopped resume count quiet =>
    have bound := binding claim bind
    have resumed := resume.elim (fun same => same ▸ bound) fun resumes => resumes.addressed bound
    exact quiet.addressed (count.elim (fun same => same ▸ resumed) fun counts => counts.addressed resumed)
  | admitted counters claim bind resume count save opens sends =>
    have counted := count.addressed (resume.addressed (binding claim bind))
    exact sends.addressed (opens.addressed (save.addressed rfl (fun _ => rfl) counted))

/-- A logon leaves the reply identity as it was heard. -/
theorem Joined.comps {α : Type} {result : Except Halt α} (joined : Joined logon venue key dispatch result reached) :
    reached.fsm.venueComp = dispatch.fsm.venueComp ∧ reached.fsm.clientComp = dispatch.fsm.clientComp := by
  have of_ties : reached.standing.ties = (Standing.bound key (Standing.claiming key dispatch.standing)).ties →
      reached.fsm.venueComp = dispatch.fsm.venueComp ∧ reached.fsm.clientComp = dispatch.fsm.clientComp :=
    fun ties => ⟨congrArg Standing.venueComp ties, congrArg Standing.clientComp ties⟩
  cases joined with
  | dismissed claim ended sends =>
    have standing : reached.standing = Standing.claiming key dispatch.standing := sends.standing.trans claim.moved.standing
    exact ⟨congrArg Standing.venueComp standing, congrArg Standing.clientComp standing⟩
  | broken counters claim bind stopped resume count quiet =>
    exact of_ties ((congrArg Standing.ties quiet.standing).trans (bound_ties claim bind resume count))
  | admitted counters claim bind resume count save opens sends =>
    have standing := sends.standing.trans (opens.standing.trans save.standing)
    exact of_ties ((congrArg Standing.ties standing).trans (bound_ties claim bind (Or.inr resume) (Or.inr count)))

end Logons

section Reacting
variable {α : Type} {event : SessionEvent} {venue : AppState} {dispatch reached : Dispatch} {result : Except Halt α}

/-- A session that awaits its logon replies to the pair of the logon. -/
theorem SessionEvent.heard_logon {logon : Logon} (asked : event.logon? = some logon) (waiting : dispatch.fsm.phase = .awaitingLogon) :
    (event.heard venue dispatch).fsm.venueComp = some logon.header.targetCompId ∧
      (event.heard venue dispatch).fsm.clientComp = some logon.header.senderCompId := by
  have awake : dispatch.fsm.phase ≠ .closing := by rw [waiting]; nofun
  unfold SessionEvent.logon? at asked
  split at asked
  next =>
    cases asked
    unfold SessionEvent.heard
    dsimp only
    rw [if_neg awake]
    exact ⟨rfl, rfl⟩
  next => cases asked

theorem Reacted.addressed (reacted : Reacted event venue dispatch result reached)
    (addressed : Addressed (event.heard venue dispatch)) : Addressed reached := by
  cases reacted with
  | sent sends => exact sends.addressed addressed
  | turned asked bound turn => exact turn.acts.addressed addressed
  | logged asked waiting admission =>
    obtain ⟨sender, target⟩ := SessionEvent.heard_logon asked waiting
    cases admission with
    | refused sends => exact sends.addressed addressed
    | joined key joined => exact joined.addressed sender target addressed

theorem Reacted.comps (reacted : Reacted event venue dispatch result reached) :
    reached.fsm.venueComp = (event.heard venue dispatch).fsm.venueComp ∧
      reached.fsm.clientComp = (event.heard venue dispatch).fsm.clientComp := by
  have of_ties : reached.standing.ties = (event.heard venue dispatch).standing.ties →
      reached.fsm.venueComp = (event.heard venue dispatch).fsm.venueComp ∧
        reached.fsm.clientComp = (event.heard venue dispatch).fsm.clientComp :=
    fun ties => ⟨congrArg Standing.venueComp ties, congrArg Standing.clientComp ties⟩
  cases reacted with
  | sent sends => exact of_ties (congrArg Standing.ties sends.standing)
  | turned asked bound turn => exact of_ties turn.acts.ties
  | logged asked waiting admission =>
    cases admission with
    | refused sends => exact of_ties (congrArg Standing.ties sends.standing)
    | joined key joined => exact joined.comps

end Reacting

/-- A message that a step hands to the session of a key carries the pair of the key, unless the session is
closing. -/
def Acceptor.KeepsPair (acceptor : Acceptor) (action : AcceptorAction) : Prop :=
  ∀ key session message venue, acceptor.Hands key session message venue action → session.fsm.phase ≠ .closing →
    (headerOf message).senderCompId.val = key.senderCompId ∧ (headerOf message).targetCompId.val = key.targetCompId

/-- Every session replies to the pair of its key, and all frames carry the pair of theirs. -/
structure Pinned (acceptor : Acceptor) : Prop where
  orderly : Orderly acceptor
  carried : acceptor.store.Carried
  replies : ∀ {key session}, acceptor.Serves key session → session.fsm.RepliesTo key
  emitted : ∀ {key frame}, (key, frame) ∈ acceptor.emitted → frame.Carries key

theorem pinned_new (backend : Backend) (config : SessionConfig) : Pinned (.new backend config) where
  orderly := orderly_new backend config
  carried := carried_new backend
  replies := fun ⟨_, seated, _⟩ => nomatch seated
  emitted member := nomatch member

/-- A frame under the reply identity of a session. -/
def Names (fsm : SessionFsm) (frame : Frame) : Prop :=
  fsm.venueComp = some frame.header.senderCompId ∧ fsm.clientComp = some frame.header.targetCompId

theorem SessionFsm.RepliesTo.names_iff {key : SessionKey} {fsm : SessionFsm} (replies : fsm.RepliesTo key) (frame : Frame) :
    Names fsm frame ↔ frame.Carries key := by
  obtain ⟨venue, client⟩ := replies
  obtain ⟨venueComp, venueIs, venue⟩ := Option.map_eq_some_iff.1 venue
  obtain ⟨clientComp, clientIs, client⟩ := Option.map_eq_some_iff.1 client
  unfold Names Frame.Carries
  rw [venueIs, clientIs, ← venue, ← client, Option.some.injEq, Option.some.injEq, eq_comm, Subtype.ext_iff,
    eq_comm (a := clientComp), Subtype.ext_iff]

section Hearing
variable {acceptor : Acceptor} {connection room : Nat} {session : VenueFixSession} {event : SessionEvent}
  {venue : AppState} {outages : List (Option String)}

/-- What a dispatch starts from, once its message is heard. -/
theorem Pinned.heard (pinned : Pinned acceptor) (present : acceptor.sessions connection = some session)
    (keeps : acceptor.KeepsPair (.dispatch connection event venue outages room)) :
    Addressed (event.heard venue (acceptor.load session outages)) := by
  have same := event.heard_same venue (acceptor.load session outages)
  have loaded : (acceptor.load session outages).store.Carried := ⟨pinned.carried.slots, pinned.carried.records⟩
  refine ⟨same.store ▸ loaded, fun {key} held => ?_⟩
  have bound : session.fsm.key = some key := same.key.symm.trans held
  have before : session.fsm.RepliesTo key := pinned.replies ⟨connection, present, bound⟩
  unfold SessionEvent.heard
  split
  next decoded =>
    split
    next => exact before
    next awake =>
      obtain ⟨client, target⟩ := keeps key session decoded venue ⟨connection, outages, room, rfl, present, bound⟩ awake
      exact ⟨congrArg some target, congrArg some client⟩
  next => exact before

end Hearing

section Running
variable [Ironfix] {U : Upstream} {acceptor next : Acceptor} {connection room : Nat} {session : VenueFixSession}
  {event : SessionEvent} {venue : AppState} {outages : List (Option String)} {action : AcceptorAction}

/-- The frames that a dispatch shows under a key carry its pair. -/
theorem Pinned.outcome (pinned : Pinned acceptor) (present : acceptor.sessions connection = some session)
    (keeps : acceptor.KeepsPair (.dispatch connection event venue outages room)) :
    Addressed (acceptor.outcome U session event venue outages).2 ∧
      ∀ key, (acceptor.outcome U session event venue outages).2.fsm.key = some key →
        ∀ frame ∈ shownFrames (acceptor.outcome U session event venue outages).1, frame.Carries key := by
  have addressed := pinned.heard present keeps
  have sitting := pinned.orderly.sitting present
  have speaks : Speaks (Names (event.heard venue (acceptor.load session outages)).fsm)
      (event.heard venue (acceptor.load session outages)) := by
    refine ⟨fun _ sender target => ⟨sender, target⟩, fun key held entry member => ?_⟩
    exact ((addressed.replies held).names_iff _).2 (addressed.carried.slots member)
  have named : session.fsm.phase = .awaitingLogon → ∀ logon, event.logon? = some logon →
      Named (Names (event.heard venue (acceptor.load session outages)).fsm) logon.header acceptor.store := by
    intro waiting logon asked key sender target entry member
    have comps : (event.heard venue (acceptor.load session outages)).fsm.venueComp = some logon.header.targetCompId ∧
        (event.heard venue (acceptor.load session outages)).fsm.clientComp = some logon.header.senderCompId :=
      SessionEvent.heard_logon asked waiting
    have replies : (event.heard venue (acceptor.load session outages)).fsm.RepliesTo key := by
      unfold SessionFsm.RepliesTo
      rw [comps.1, comps.2, sender, target]
      exact ⟨rfl, rfl⟩
    exact (replies.names_iff _).2 (pinned.carried.slots member)
  have handled := event.handle_reacted (U := U) _ sitting.serving speaks named
  have reached : Addressed (acceptor.outcome U session event venue outages).2 := handled.1.addressed addressed
  refine ⟨reached, fun key held frame shown => ((reached.replies held).names_iff frame).1 ?_⟩
  have comps := handled.1.comps
  have named := handled.2 frame shown
  exact ⟨comps.1.trans named.1, comps.2.trans named.2⟩

theorem Pinned.dispatched (pinned : Pinned acceptor) (present : acceptor.sessions connection = some session)
    (keeps : acceptor.KeepsPair (.dispatch connection event venue outages room)) :
    Pinned (acceptor.unload connection room (acceptor.outcome U session event venue outages)) := by
  have orderly : Orderly (acceptor.unload connection room (acceptor.outcome U session event venue outages)) :=
    pinned.orderly.dispatched present
  obtain ⟨reached, shown⟩ := pinned.outcome (U := U) present keeps
  refine ⟨orderly, reached.carried, fun {key other} serves => ?_, fun {key frame} member => ?_⟩
  · rcases unload_serves serves with ⟨rfl, -, held⟩ | ⟨seat, -, seated, held⟩
    · exact reached.replies held
    · exact pinned.replies ⟨seat, seated, held⟩
  · rcases List.mem_append.1 member with old | fresh
    · exact pinned.emitted old
    · obtain ⟨bound, held, sent⟩ := List.mem_flatMap.1 fresh
      obtain ⟨own, member, same⟩ := List.mem_map.1 sent
      cases same
      exact shown key (Option.mem_toList.1 held) frame member

theorem Pinned.step (pinned : Pinned acceptor) (keeps : acceptor.KeepsPair action)
    (taken : acceptor.step U action = some next) : Pinned next := by
  have orderly := pinned.orderly.step taken
  cases action with
  | accept connection peer nowMs =>
    cases empty : acceptor.sessions connection with
    | some session => simp [Acceptor.step, empty] at taken
    | none =>
      simp only [Acceptor.step, empty, Option.some.injEq] at taken
      subst taken
      refine ⟨orderly, pinned.carried, fun {key session} serves => ?_, pinned.emitted⟩
      obtain ⟨seat, present, bound⟩ := serves
      change acceptor.seat connection (some (.new peer acceptor.config nowMs)) seat = _ at present
      by_cases mine : seat = connection
      · rw [mine, seat_self] at present
        cases present
        cases bound
      · rw [seat_of_ne _ mine] at present
        exact pinned.replies ⟨seat, present, bound⟩
  | dispatch connection event venue outages room =>
    cases present : acceptor.sessions connection with
    | none => simp [Acceptor.step, present] at taken
    | some session =>
      simp only [Acceptor.step, present, Option.some.injEq] at taken
      subst taken
      exact pinned.dispatched present keeps
  | disconnect connection =>
    cases present : acceptor.sessions connection with
    | none => simp [Acceptor.step, present] at taken
    | some session =>
      simp only [Acceptor.step, present, Option.some.injEq] at taken
      subst taken
      refine ⟨orderly, pinned.carried, fun {key other} serves => ?_, pinned.emitted⟩
      obtain ⟨seat, seated, bound⟩ := serves
      change acceptor.seat connection none seat = _ at seated
      by_cases mine : seat = connection
      · rw [mine, seat_self] at seated
        cases seated
      · rw [seat_of_ne _ mine] at seated
        exact pinned.replies ⟨seat, seated, bound⟩
  | crash =>
    cases taken
    refine ⟨orderly, ?_, fun ⟨_, seated, _⟩ => (nomatch seated), pinned.emitted⟩
    cases backend : acceptor.store.backend with
    | inMemory => simp only [FixSessionStore.restarted, backend]; exact carried_new _
    | postgres => simp only [FixSessionStore.restarted, backend]; exact pinned.carried

/-- In every run whose messages carry the pair that their session was bound with: every frame that a session
emits once it is bound, and every frame that is stored under its key, carries the pair. -/
theorem frames_pinned (backend : Backend) (config : SessionConfig) (actions : List AcceptorAction)
    (keeps : Throughout (Acceptor.step U) Acceptor.KeepsPair (.new backend config) actions)
    (run : runFrom (Acceptor.step U) (.new backend config) actions = some acceptor) :
    (∀ key frame, (key, frame) ∈ acceptor.emitted → frame.Carries key) ∧
      (∀ key entry, entry ∈ recorded (acceptor.store.history key) → entry.frame.Carries key) ∧
      ∀ key entry, entry ∈ (acceptor.store.slot key).outbound → entry.frame.Carries key := by
  have pinned : Pinned acceptor :=
    runFrom_invariant (fun _ _ _ pinned keeps taken => pinned.step keeps taken) (pinned_new backend config) keeps run
  exact ⟨fun _ _ member => pinned.emitted member, fun _ _ member => pinned.carried.records member,
    fun _ _ member => pinned.carried.slots member⟩

end Running

/-- The message that an action brings. -/
def AcceptorAction.message? : AcceptorAction → Option DecodedMessage
  | .dispatch _ (.message message) _ _ _ => some message
  | _ => none

theorem Acceptor.keepsPair_of_headers {acceptor : Acceptor} {action : AcceptorAction}
    (headers : ∀ message ∈ action.message?, ∀ key ∈ acceptor.keyAt action,
      (headerOf message).senderCompId.val = key.senderCompId ∧ (headerOf message).targetCompId.val = key.targetCompId) :
    acceptor.KeepsPair action := by
  rintro key session message venue ⟨connection, outages, room, rfl, present, bound⟩ -
  refine headers message rfl key ?_
  rw [Acceptor.keyAt, present]
  exact bound

def mallory : CompId := ⟨"MALLORY", by decide +kernel⟩

/-- A test request in the session of alice, under another name. -/
def strayTestRequest : DecodedMessage := .testRequest ⟨{ aliceHeader 2 with senderCompId := mallory }, "A"⟩

def straySession : List AcceptorAction :=
  [.accept 0 "10.0.0.1" 0, aliceSends (aliceLogon 1), aliceSends strayTestRequest]

theorem interruptedSession_pinned : ∃ acceptor,
    runFrom referenceStep (.new .postgres ⟨30000, 60⟩) interruptedSession = some acceptor ∧
      acceptor.emitted.length = 3 ∧ ∀ key frame, (key, frame) ∈ acceptor.emitted → frame.Carries key := by
  have sent : (runFrom referenceStep (.new .postgres ⟨30000, 60⟩) interruptedSession).map (fun acceptor =>
      acceptor.emitted.length) = some 3 := by decide +kernel
  have headers : Throughout referenceStep (fun acceptor action => ∀ message ∈ action.message?, ∀ key ∈ acceptor.keyAt action,
      (headerOf message).senderCompId.val = key.senderCompId ∧ (headerOf message).targetCompId.val = key.targetCompId)
      (.new .postgres ⟨30000, 60⟩) interruptedSession := by decide +kernel
  obtain ⟨acceptor, run, length⟩ := Option.map_eq_some_iff.1 sent
  exact ⟨acceptor, run, length,
    (@frames_pinned referenceWire _ _ _ _ _ (headers.weaken fun _ _ => Acceptor.keepsPair_of_headers) run).1⟩

/-- The answer to it. -/
def strayHeartbeat : Frame :=
  .message (.heartbeat ⟨{ aliceHeader 2 with senderCompId := (aliceHeader 2).targetCompId, targetCompId := mallory }, some "A"⟩)

theorem straySession_strays : ∃ acceptor entry,
    runFrom referenceStep (.new .postgres ⟨30000, 60⟩) straySession = some acceptor ∧
      (aliceKey, entry.frame) ∈ acceptor.emitted ∧ entry ∈ recorded (acceptor.store.history aliceKey) ∧
      ¬ entry.frame.Carries aliceKey := by
  have last : (runFrom referenceStep (.new .postgres ⟨30000, 60⟩) straySession).map (fun acceptor =>
      (acceptor.emitted.getLast?, (recorded (acceptor.store.history aliceKey)).getLast?.map StoredOutbound.frame)) =
      some (some (aliceKey, strayHeartbeat), some strayHeartbeat) := by decide +kernel
  have strays : strayHeartbeat.header.targetCompId.val ≠ aliceKey.senderCompId := by decide +kernel
  obtain ⟨acceptor, run, same⟩ := Option.map_eq_some_iff.1 last
  obtain ⟨emitted, stored⟩ := Prod.mk.inj same
  obtain ⟨entry, recorded, frame⟩ := Option.map_eq_some_iff.1 stored
  refine ⟨acceptor, entry, run, ?_, List.mem_of_getLast? recorded, ?_⟩
  · rw [frame]
    exact List.mem_of_getLast? emitted
  · rw [frame]
    exact fun carries => strays carries.2

end Fauxchange.Fix
