import Fauxchange.Fix.Reactions

/-! The lease of a key keeps its sessions apart: at most one live session is bound to it, and no other touches its
slot. -/

namespace Fauxchange.Fix
open Exchange Lib Fallible FixSessionStore

/-- The identity of a session with its lease and those of the others. -/
def Standing.ties (standing : Standing) : Standing := { standing with inbound := 0, calls := [] }

/-- The writes of one key, in order. -/
def FixSessionStore.history (key : SessionKey) (store : FixSessionStore) : List StoreWrite :=
  store.committed.filter fun write => write.key = key

def callsOf (key : SessionKey) (calls : List ExchangeCall) : List ExchangeCall :=
  calls.filter fun call => call.key = some key

/-- Nothing that belongs to a key has changed. -/
structure Apart (key : SessionKey) (dispatch reached : Dispatch) : Prop where
  slot : reached.store.slot key = dispatch.store.slot key
  history : reached.store.history key = dispatch.store.history key
  calls : callsOf key reached.calls = callsOf key dispatch.calls

section Apartness
variable {key other : SessionKey} {dispatch middle reached : Dispatch}

theorem Apart.refl (key : SessionKey) (dispatch : Dispatch) : Apart key dispatch dispatch := ⟨rfl, rfl, rfl⟩

theorem Apart.trans (first : Apart key dispatch middle) (later : Apart key middle reached) : Apart key dispatch reached :=
  ⟨later.slot.trans first.slot, later.history.trans first.history, later.calls.trans first.calls⟩

theorem FixSessionStore.Agree.history {store after : FixSessionStore} (agree : Agree store after) (key : SessionKey) :
    after.history key = store.history key := by
  unfold FixSessionStore.history
  rw [agree.2.1]

theorem FixSessionStore.Wrote.history_self {write : StoreWrite} {store after : FixSessionStore} (wrote : Wrote write store after) :
    after.history write.key = store.history write.key ++ [write] := by
  unfold FixSessionStore.history
  rw [wrote.2.1, List.filter_append, List.filter_singleton, decide_eq_true rfl, cond_true]

theorem FixSessionStore.Wrote.history_of_ne {write : StoreWrite} {store after : FixSessionStore} (wrote : Wrote write store after)
    {key : SessionKey} (apart : write.key ≠ key) : after.history key = store.history key := by
  unfold FixSessionStore.history
  rw [wrote.2.1, List.filter_append, List.filter_singleton, decide_eq_false apart, cond_false, List.append_nil]

theorem Apart.of_agree (agree : Agree dispatch.store reached.store) (calls : reached.calls = dispatch.calls) :
    Apart key dispatch reached :=
  ⟨agree.slot key, agree.history key, by rw [calls]⟩

theorem Apart.of_wrote {write : StoreWrite} (wrote : Wrote write dispatch.store reached.store)
    (elsewhere : write.key ≠ key) (calls : reached.calls = dispatch.calls) : Apart key dispatch reached :=
  ⟨wrote.slot_of_ne elsewhere, wrote.history_of_ne elsewhere, by rw [calls]⟩

/-- A session without the key writes nothing of it. -/
theorem Sends.apart (sends : Sends dispatch reached) (elsewhere : dispatch.fsm.key ≠ some key) :
    Apart key dispatch reached := by
  refine (sends.preserves (fun now => now.fsm.key = dispatch.fsm.key ∧ Apart key dispatch now) ?_ ?_ ⟨rfl, .refl key _⟩).2
  · rintro before after quiet ⟨same, apart⟩
    exact ⟨(congrArg Standing.key quiet.standing).trans same,
      apart.trans (.of_agree quiet.store (congrArg Standing.calls quiet.standing))⟩
  · rintro frame before after sent ⟨same, apart⟩
    have calls : after.calls = before.calls := congrArg Standing.calls sent.standing
    refine ⟨(congrArg Standing.key sent.standing).trans same, apart.trans ?_⟩
    cases held : before.fsm.key with
    | none => exact .of_agree (sent.unbound held) calls
    | some bound =>
      obtain ⟨size, wrote⟩ := sent.stored bound held
      exact .of_wrote wrote (fun same' => elsewhere (by rw [← same, held, ← same']; rfl)) calls

theorem Act.ties (act : Act other dispatch reached) : reached.standing.ties = dispatch.standing.ties := by
  cases act with
  | sends step => exact congrArg Standing.ties (Sends.standing (.single step))
  | expects next move => rw [move.standing]; rfl
  | submits call mine move => rw [move.standing]; rfl
  | saves save => exact congrArg Standing.ties save.standing
  | resets event trigger save => exact congrArg Standing.ties save.standing

theorem Acts.ties (acts : Acts other dispatch reached) : reached.standing.ties = dispatch.standing.ties :=
  acts.preserves (fun now => now.standing.ties = dispatch.standing.ties) (fun act same => act.ties.trans same) rfl

theorem Acts.onward (acts : Acts other dispatch reached) : dispatch.Onward reached := by
  refine acts.preserves dispatch.Onward (fun act onward => onward.trans ?_) (.refl dispatch)
  cases act with
  | sends step => exact Sends.onward (.single step)
  | expects next move => exact move.onward
  | submits call mine move => exact move.onward
  | saves save => exact save.onward
  | resets event trigger save => exact save.onward

theorem callsOf_append (elsewhere : other ≠ key) {calls : List ExchangeCall} {call : ExchangeCall}
    (mine : call.key = some other) : callsOf key (calls ++ [call]) = callsOf key calls := by
  have apart : ¬ call.key = some key := by
    rw [mine]
    exact fun same => elsewhere (Option.some.inj same)
  unfold callsOf
  rw [List.filter_append, List.filter_singleton, decide_eq_false apart, cond_false, List.append_nil]

/-- A session bound to another key touches nothing of this one. -/
theorem Acts.apart (acts : Acts other dispatch reached) (bound : dispatch.fsm.key = some other) (elsewhere : other ≠ key) :
    Apart key dispatch reached := by
  refine (acts.preserves (fun now => now.fsm.key = some other ∧ Apart key dispatch now) (fun act => ?_)
    ⟨bound, .refl key _⟩).2
  rintro ⟨held, apart⟩
  refine ⟨(congrArg Standing.key act.ties).trans held, apart.trans ?_⟩
  cases act with
  | sends step =>
    refine Sends.apart (.single step) fun same => elsewhere ?_
    exact Option.some.inj (held.symm.trans same)
  | expects next move => exact .of_agree move.store (congrArg Standing.calls move.standing)
  | submits call mine move =>
    refine ⟨move.store.slot key, move.store.history key, ?_⟩
    have calls := congrArg Standing.calls move.standing
    exact (congrArg (callsOf key) calls).trans (callsOf_append elsewhere mine)
  | saves save => exact .of_wrote save.store elsewhere (congrArg Standing.calls save.standing)
  | resets event trigger save => exact .of_wrote save.store elsewhere (congrArg Standing.calls save.standing)

end Apartness

/-- A logon that takes the lease of its key touches nothing of another, and leaves the session bound or over. -/
structure Claims {α : Type} (key : SessionKey) (dispatch : Dispatch) (result : Except Halt α) (reached : Dispatch) :
    Prop where
  free : key ∉ dispatch.leases
  lease : reached.lease = some key
  leases : reached.leases = key :: dispatch.leases
  apart : ∀ {other : SessionKey}, key ≠ other → Apart other dispatch reached
  ended : (∃ halt, result = .error halt) ∨ reached.fsm.phase = .closing ∧ reached.fsm.key = none ∨
    reached.fsm.key = some key ∧ reached.fsm.phase.stage ≠ 0

section Claiming
variable {logon : Logon} {venue : AppState} {key other : SessionKey} {counters : SessionCounters}
  {dispatch claimed bound resumed counted reached : Dispatch}

theorem Resumes.standing (resumes : Resumes logon key counters dispatch reached) :
    reached.standing = dispatch.standing := by
  cases resumes with
  | kept asked same numbered resumed => rw [same]
  | renewed event asked journal trigger resumed => exact journal.standing

theorem Resumes.apart (resumes : Resumes logon key counters dispatch reached) (elsewhere : key ≠ other) :
    Apart other dispatch reached := by
  cases resumes with
  | kept asked same numbered resumed => rw [same]; exact .refl other dispatch
  | renewed event asked journal trigger resumed =>
    exact .of_wrote journal.store elsewhere (congrArg Standing.calls journal.standing)

/-- Up to the counters, a bound session differs from the one that awaited its logon in its key and its lease. -/
theorem bound_ties (claim : Claimed logon venue key dispatch claimed) (bind : Moved (Standing.bound key) claimed bound)
    (resume : bound = resumed ∨ Resumes logon key counters bound resumed)
    (count : resumed = counted ∨ Counts counters resumed counted) :
    counted.standing.ties = (Standing.bound key (Standing.claiming key dispatch.standing)).ties := by
  have resuming : resumed.standing = bound.standing :=
    resume.elim (fun same => by rw [same]) fun resumes => resumes.standing
  have counting : counted.standing.ties = resumed.standing.ties :=
    count.elim (fun same => by rw [same]) fun counts => by rw [counts.standing]; rfl
  rw [counting, resuming, bind.standing, claim.moved.standing]

theorem bound_apart (claim : Claimed logon venue key dispatch claimed) (bind : Moved (Standing.bound key) claimed bound)
    (resume : bound = resumed ∨ Resumes logon key counters bound resumed)
    (count : resumed = counted ∨ Counts counters resumed counted) (elsewhere : key ≠ other) :
    Apart other dispatch counted := by
  have claiming : Apart other dispatch claimed :=
    .of_agree claim.moved.store (congrArg Standing.calls claim.moved.standing)
  have binding : Apart other claimed bound := .of_agree bind.store (congrArg Standing.calls bind.standing)
  have resuming : Apart other bound resumed :=
    resume.elim (fun same => same ▸ .refl other bound) fun resumes => resumes.apart elsewhere
  have counting : Apart other resumed counted :=
    count.elim (fun same => same ▸ .refl other resumed) fun counts =>
      .of_agree counts.store (congrArg Standing.calls counts.standing)
  exact ((claiming.trans binding).trans resuming).trans counting

theorem Claims.of_ties {α : Type} {result : Except Halt α} (claim : Claimed logon venue key dispatch claimed)
    (ties : reached.standing.ties = (Standing.bound key (Standing.claiming key dispatch.standing)).ties)
    (apart : ∀ {other : SessionKey}, key ≠ other → Apart other dispatch reached)
    (ended : (∃ halt, result = .error halt) ∨ reached.fsm.phase.stage ≠ 0) : Claims key dispatch result reached where
  free := claim.free
  lease := congrArg Standing.lease ties
  leases := congrArg Standing.leases ties
  apart := apart
  ended := ended.imp_right fun later => Or.inr ⟨congrArg Standing.key ties, later⟩

/-- A logon that goes on takes the lease of its key. -/
theorem Joined.claims {α : Type} {result : Except Halt α} (joined : Joined logon venue key dispatch result reached)
    (unbound : dispatch.fsm.key = none) : Claims key dispatch result reached := by
  cases joined with
  | @dismissed claimed claim ended sends =>
    have held : claimed.fsm.key = none := (congrArg Standing.key claim.moved.standing).trans unbound
    have standing : reached.standing = Standing.claiming key dispatch.standing :=
      sends.standing.trans claim.moved.standing
    refine ⟨claim.free, congrArg Standing.lease standing, congrArg Standing.leases standing, ?_, ?_⟩
    · intro other elsewhere
      have claiming : Apart other dispatch claimed :=
        .of_agree claim.moved.store (congrArg Standing.calls claim.moved.standing)
      exact claiming.trans (sends.apart (by rw [held]; nofun))
    · refine ended.imp_right fun closed => Or.inl ⟨closed, ?_⟩
      exact (congrArg Standing.key standing).trans unbound
  | @broken claimed bound resumed counted counters claim bind stopped resume count quiet =>
    refine .of_ties claim ?_ ?_ (Or.inl stopped)
    · exact (congrArg Standing.ties quiet.standing).trans (bound_ties claim bind resume count)
    · exact fun elsewhere => (bound_apart claim bind resume count elsewhere).trans
        (.of_agree quiet.store (congrArg Standing.calls quiet.standing))
  | @admitted claimed bound resumed counted saved opened counters claim bind resume count save opens sends =>
    have standing : reached.standing = counted.standing :=
      sends.standing.trans (opens.standing.trans save.standing)
    have ties := bound_ties claim bind (Or.inr resume) (Or.inr count)
    have held : opened.fsm.key = some key :=
      (congrArg Standing.key (opens.standing.trans save.standing)).trans (congrArg Standing.key ties)
    refine .of_ties claim ((congrArg Standing.ties standing).trans ties) ?_ (Or.inr ?_)
    · intro other elsewhere
      have saving : Apart other counted saved := .of_wrote save.store elsewhere (congrArg Standing.calls save.standing)
      have opening : Apart other saved opened := .of_agree opens.store (congrArg Standing.calls opens.standing)
      have sending : Apart other opened reached :=
        sends.apart fun same => elsewhere (Option.some.inj (held.symm.trans same))
      exact (((bound_apart claim bind (Or.inr resume) (Or.inr count) elsewhere).trans saving).trans opening).trans sending
    · rcases sends.onward with same | closed
      · rw [same, opens.serving]
        decide
      · rw [closed]
        decide

end Claiming

end Fauxchange.Fix
