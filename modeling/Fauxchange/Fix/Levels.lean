import Fauxchange.Fix.KeySteps

/-! The outbound counter of one key over whole runs: a live session counts as the store does, and what the durable
writes of the key preserve of the store holds at every moment. -/

namespace Fauxchange.Fix
open Exchange Lib Fallible FixSessionStore

/-- A write that records no frame and starts no numbers again. -/
def StoreWrite.Saves : StoreWrite → Prop
  | counters .. => True
  | outbound .. => False
  | reset _ event _ => event.trigger = .sequenceReset

/-- What the writes of a bound session preserve: those that save the outbound counter as it is, and those that record
a frame at it. -/
structure KeyLaw (key : SessionKey) (Holds : FixSessionStore → Prop) : Prop where
  same : ∀ {store after : FixSessionStore}, Holds store → after.slot key = store.slot key →
    after.history key = store.history key → Holds after
  saves : ∀ {store after : FixSessionStore} {write : StoreWrite}, Holds store → Wrote write store after →
    write.key = key → write.Saves →
    (∀ slot, (write.apply slot).counters.nextSenderSeq = (store.slot key).counters.nextSenderSeq) → Holds after
  sends : ∀ {store after : FixSessionStore} {frame : Frame} {number : Nat} (size : Nat), Holds store →
    Wrote (.outbound key ⟨number, frame, size⟩ (number + 1)) store after →
    (store.slot key).counters.nextSenderSeq = number → frame.header.msgSeqNum = number → number < u64Max → Holds after

/-- A logon reset is preserved too. -/
def Renewing (key : SessionKey) (Holds : FixSessionStore → Prop) : Prop :=
  ∀ {store after : FixSessionStore} {event : SequenceResetEvent}, event.trigger = .logonReset → Holds store →
    Wrote (.reset key event .default) store after → Holds after

/-- The session bound to a key numbers its frames as the store does. -/
structure Levelled (key : SessionKey) (Holds : FixSessionStore → Prop) (dispatch : Dispatch) : Prop where
  bound : dispatch.fsm.key = some key
  holds : Holds dispatch.store
  level : dispatch.outbound = (dispatch.store.slot key).counters.nextSenderSeq

section Acting
variable {key : SessionKey} {Holds : FixSessionStore → Prop} {dispatch reached : Dispatch} (law : KeyLaw key Holds)
include law

/-- A change that writes nothing and leaves the outbound counter. -/
theorem Levelled.quiet (levelled : Levelled key Holds dispatch) (bound : reached.fsm.key = dispatch.fsm.key)
    (outbound : reached.outbound = dispatch.outbound) (agree : Agree dispatch.store reached.store) :
    Levelled key Holds reached where
  bound := bound.trans levelled.bound
  holds := law.same levelled.holds (agree.slot key) (agree.history key)
  level := by rw [outbound, agree.slot, levelled.level]

/-- A write that saves the outbound counter as it is. -/
theorem Levelled.writes {write : StoreWrite} (levelled : Levelled key Holds dispatch)
    (writes : Writes write dispatch reached) (own : write.key = key) (saves : write.Saves)
    (saved : ∀ slot, (write.apply slot).counters.nextSenderSeq = dispatch.outbound) : Levelled key Holds reached := by
  subst own
  refine ⟨(congrArg Standing.key writes.standing).trans levelled.bound, ?_, ?_⟩
  · apply law.saves levelled.holds writes.store rfl saves
    intro slot
    rw [saved, levelled.level]
  · rw [writes.store.slot_self, saved, writes.outbound]

theorem Levelled.sent {frame : Frame} (levelled : Levelled key Holds dispatch) (sent : Sent frame dispatch reached) :
    Levelled key Holds reached := by
  obtain ⟨size, wrote⟩ := sent.stored key levelled.bound
  refine ⟨(congrArg Standing.key sent.standing).trans levelled.bound, ?_, ?_⟩
  · exact law.sends size levelled.holds wrote levelled.level.symm sent.numbered sent.below
  · rw [sent.outbound, show reached.store.slot key = _ from wrote.slot_self]
    rfl

theorem Levelled.sends (levelled : Levelled key Holds dispatch) (sends : Sends dispatch reached) :
    Levelled key Holds reached :=
  sends.preserves (Levelled key Holds)
    (fun quiet levelled => levelled.quiet law (congrArg Standing.key quiet.standing) quiet.outbound quiet.store)
    (fun sent levelled => levelled.sent law sent) levelled

/-- A bound session stays level with the store. -/
theorem Levelled.acts (levelled : Levelled key Holds dispatch) (acts : Acts key dispatch reached) :
    Levelled key Holds reached := by
  refine acts.preserves (Levelled key Holds) (fun act levelled => ?_) levelled
  cases act with
  | sends step => exact levelled.sends law (.single step)
  | expects next move => exact levelled.quiet law (congrArg Standing.key move.standing) move.outbound move.store
  | submits call mine move => exact levelled.quiet law (congrArg Standing.key move.standing) move.outbound move.store
  | saves save => exact levelled.writes law save rfl trivial fun _ => rfl
  | resets event trigger save => exact levelled.writes law save rfl trigger fun _ => rfl

variable {venue : AppState}

theorem Levelled.served {α : Type} {event : SessionEvent} {result : Except Halt α}
    (levelled : Levelled key Holds dispatch) (served : Served venue key event dispatch result reached) :
    Levelled key Holds reached := by
  rcases served with sends | ⟨message, -, turn⟩
  · exact levelled.sends law sends
  · exact levelled.acts law turn.acts

variable {logon : Logon}

/-- Up to the bound session, a logon writes the reset it asks for, if any. -/
theorem KeyLaw.bound {claimed bound resumed counted : Dispatch} {counters : SessionCounters}
    (holds : Holds dispatch.store) (renewing : logon.resetSeqNumFlag = some true → Renewing key Holds)
    (claim : Claimed logon venue key dispatch claimed) (bind : Moved (Standing.bound key) claimed bound)
    (resume : bound = resumed ∨ Resumes logon key counters bound resumed)
    (count : resumed = counted ∨ Counts counters resumed counted) : Holds counted.store := by
  have claiming := law.same holds (claim.moved.store.slot key) (claim.moved.store.history key)
  have binding := law.same claiming (bind.store.slot key) (bind.store.history key)
  have resuming : Holds resumed.store := by
    rcases resume with same | resumes
    · exact same ▸ binding
    · cases resumes with
      | kept asked same numbered resumed => exact same ▸ binding
      | renewed event asked journal trigger resumed => exact renewing asked trigger binding journal.store
  rcases count with same | counts
  · exact same ▸ resuming
  · exact law.same resuming (counts.store.slot key) (counts.store.history key)

/-- A logon resumes the outbound counter of the store, or starts both again from one. -/
theorem KeyLaw.joined {result : Except Halt Reaction} (holds : Holds dispatch.store)
    (unbound : dispatch.fsm.key = none) (renewing : logon.resetSeqNumFlag = some true → Renewing key Holds)
    (joined : Joined logon venue key dispatch result reached) :
    Holds reached.store ∧
      ∀ reaction, result = .ok reaction → reached.fsm.key = some key → Levelled key Holds reached := by
  cases joined with
  | dismissed claim ended sends =>
    have held := (congrArg Standing.key claim.moved.standing).trans unbound
    have apart : Apart key _ _ := sends.apart fun same => nomatch held.symm.trans same
    refine ⟨law.same (law.same holds (claim.moved.store.slot key) (claim.moved.store.history key)) apart.slot
      apart.history, ?_⟩
    intro reaction _ bound
    cases ((congrArg Standing.key sends.standing).trans held).symm.trans bound
  | broken counters claim bind stopped resume count quiet =>
    have counting := law.bound holds renewing claim bind resume count
    refine ⟨law.same counting (quiet.store.slot key) (quiet.store.history key), ?_⟩
    intro reaction same
    obtain ⟨halt, stopped⟩ := stopped
    cases stopped.symm.trans same
  | @admitted claimed bound resumed counted saved opened counters claim bind resume count save opens sends =>
    have ties := bound_ties claim bind (Or.inr resume) (Or.inr count)
    have counting : Levelled key Holds counted := by
      refine ⟨congrArg Standing.key ties, law.bound holds renewing claim bind (Or.inr resume) (Or.inr count), ?_⟩
      have outbound : counted.outbound = counters.nextSenderSeq := congrArg SessionCounters.nextSenderSeq count.counters
      rw [outbound, count.store.slot]
      cases resume with
      | kept asked same numbered resumed => rw [resumed, same]
      | renewed event asked journal trigger started =>
        rw [started, show resumed.store.slot key = _ from journal.store.slot_self]
        rfl
    have saving : Levelled key Holds saved := counting.writes law save rfl trivial fun _ =>
      (congrArg SessionCounters.nextSenderSeq count.counters).symm
    have opening : Levelled key Holds opened :=
      saving.quiet law (congrArg Standing.key opens.standing) opens.outbound opens.store
    have sending := opening.sends law sends
    exact ⟨sending.holds, fun _ _ _ => sending⟩

end Acting

/-- A dispatch that brings a logon for the key with `ResetSeqNumFlag=Y`. -/
def AcceptorAction.Renews (key : SessionKey) (action : AcceptorAction) : Prop :=
  ∃ connection event venue outages room logon, action = .dispatch connection event venue outages room ∧
    event.logon? = some logon ∧ logon.For venue key ∧ logon.resetSeqNumFlag = some true

/-- Every live session of the key numbers its frames as the store does. -/
structure Levels (key : SessionKey) (Holds : FixSessionStore → Prop) (acceptor : Acceptor) : Prop where
  orderly : Orderly acceptor
  holds : Holds acceptor.store
  level : ∀ {session}, acceptor.Serves key session →
    session.fsm.counters.nextSenderSeq = (acceptor.store.slot key).counters.nextSenderSeq

theorem levels_new {key : SessionKey} {Holds : FixSessionStore → Prop} {backend : Backend} (config : SessionConfig)
    (fresh : Holds (.new backend)) : Levels key Holds (.new backend config) :=
  ⟨orderly_new backend config, fresh, fun ⟨_, seated, _⟩ => nomatch seated⟩

section Running
variable [Ironfix] {U : Upstream} {key : SessionKey} {Holds : FixSessionStore → Prop} {acceptor next : Acceptor}
  {action : AcceptorAction}

/-- What a fresh store starts with and the writes of a key preserve, every step preserves. -/
theorem Levels.step (levels : Levels key Holds acceptor) (law : KeyLaw key Holds) (fresh : Holds (.new .inMemory))
    (renewing : action.Renews key → Renewing key Holds) (taken : acceptor.step U action = some next) :
    Levels key Holds next := by
  suffices Holds next.store ∧ ∀ {session}, next.Serves key session →
      session.fsm.counters.nextSenderSeq = (next.store.slot key).counters.nextSenderSeq from
    ⟨levels.orderly.step taken, this.1, this.2⟩
  cases levels.orderly.keyStep taken key with
  | idle sessions slot history calls =>
    refine ⟨law.same levels.holds slot history, fun serves => ?_⟩
    rw [slot]
    exact levels.level (sessions serves)
  | lost crashed volatile sessions store calls =>
    rw [store]
    exact ⟨fresh, fun serves => absurd serves sessions⟩
  | @served connection room event venue outages session result reached asked present bound outcome turn store calls sessions =>
    have same := event.heard_same venue (acceptor.load session outages)
    have hearing : Levelled key Holds (event.heard venue (acceptor.load session outages)) := by
      refine ⟨same.key.trans bound, ?_, ?_⟩
      · rw [same.store]
        exact law.same levels.holds rfl rfl
      · rw [same.store, show Dispatch.outbound _ = _ from congrArg SessionCounters.nextSenderSeq same.counters]
        exact levels.level ⟨connection, present, bound⟩
    have serving := hearing.served law turn
    rw [store]
    refine ⟨serving.holds, fun serves => ?_⟩
    rw [(sessions serves).1]
    exact serving.level
  | @logged connection room event venue outages session result reached logon asked brought present waiting free outcome
      joined store calls sessions =>
    have same := event.heard_same venue (acceptor.load session outages)
    have unbound := (levels.orderly.sitting present).waiting (by rw [waiting]; rfl)
    have holds : Holds (event.heard venue (acceptor.load session outages)).store := by
      rw [same.store]
      exact law.same levels.holds rfl rfl
    have keyed : logon.For venue key := by
      cases joined with
      | dismissed claim ended sends => exact claim.keyed
      | broken counters claim bind stopped resume count quiet => exact claim.keyed
      | admitted counters claim bind resume count save opens sends => exact claim.keyed
    obtain ⟨sound, resumes⟩ := law.joined holds (same.key.trans unbound.1)
      (fun renewed => renewing ⟨_, _, _, _, _, logon, asked, brought, keyed, renewed⟩) joined
    rw [store]
    refine ⟨sound, fun serves => ?_⟩
    obtain ⟨rfl, reaction, finished⟩ := sessions serves
    obtain ⟨_, _, bound⟩ := serves
    exact (resumes reaction finished bound).level

end Running

end Fauxchange.Fix
