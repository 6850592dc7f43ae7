import Fauxchange.Fix.Router
import Mathlib.Logic.Relation

/-! What a handler that only answers does: it emits frames at consecutive outbound numbers, each stored with
its counter, and touches neither the inbound counter nor the identity of the session. -/

namespace Fauxchange.Fix
open Exchange Lib Fallible

/-- What an emission leaves alone. -/
structure Standing where
  account : Option AccountId
  key : Option SessionKey
  venueComp : Option CompId
  clientComp : Option CompId
  inbound : Nat
  lease : Option SessionKey
  leases : List SessionKey
  calls : List ExchangeCall

/-- The key of a session with the reply identity of its frames. -/
def Standing.identity (standing : Standing) : Option SessionKey × Option CompId × Option CompId :=
  (standing.key, standing.venueComp, standing.clientComp)

/-- Before the logon, after it, and closing. -/
def SessionPhase.stage : SessionPhase → Nat
  | awaitingLogon => 0
  | active | awaitingResend => 1
  | closing => 2

theorem SessionPhase.eq_closing {phase : SessionPhase} (last : phase.stage = 2) : phase = .closing := by
  cases phase with
  | closing => rfl
  | _ => cases last

namespace Dispatch

def standing (dispatch : Dispatch) : Standing where
  account := dispatch.fsm.account
  key := dispatch.fsm.key
  venueComp := dispatch.fsm.venueComp
  clientComp := dispatch.fsm.clientComp
  inbound := dispatch.fsm.counters.nextTargetSeq
  lease := dispatch.lease
  leases := dispatch.leases
  calls := dispatch.calls

def outbound (dispatch : Dispatch) : Nat := dispatch.fsm.counters.nextSenderSeq

/-- A session stays before or after its logon unless it closes. -/
def Onward (dispatch reached : Dispatch) : Prop :=
  reached.fsm.phase.stage = dispatch.fsm.phase.stage ∨ reached.fsm.phase = .closing

theorem Onward.refl (dispatch : Dispatch) : dispatch.Onward dispatch := Or.inl rfl

theorem Onward.trans {dispatch middle reached : Dispatch} (first : dispatch.Onward middle) (later : middle.Onward reached) :
    dispatch.Onward reached := by
  rcases later with same | closed
  · rcases first with kept | closing
    · exact Or.inl (same.trans kept)
    · rw [closing] at same
      exact Or.inr (SessionPhase.eq_closing same)
  · exact Or.inr closed

end Dispatch

namespace FixSessionStore

/-- Two stores hold the same. -/
def Agree (store other : FixSessionStore) : Prop :=
  other.slots = store.slots ∧ other.committed = store.committed ∧ other.backend = store.backend

/-- One write has taken place. -/
def Wrote (write : StoreWrite) (store after : FixSessionStore) : Prop :=
  after.slots = store.slots.insert write.key (write.apply (store.slot write.key)) ∧
    after.committed = store.committed ++ [write] ∧ after.backend = store.backend

variable {store other after : FixSessionStore} {write : StoreWrite}

theorem Agree.slot (agree : Agree store other) (key : SessionKey) : other.slot key = store.slot key := by
  unfold FixSessionStore.slot
  rw [agree.1]

theorem Wrote.slot_self (wrote : Wrote write store after) : after.slot write.key = write.apply (store.slot write.key) := by
  unfold FixSessionStore.slot
  rw [wrote.1, slot_insert, if_pos rfl]
  rfl

/-- A write leaves every other slot alone. -/
theorem Wrote.slot_of_ne (wrote : Wrote write store after) {key : SessionKey} (apart : write.key ≠ key) :
    after.slot key = store.slot key := by
  unfold FixSessionStore.slot
  rw [wrote.1, slot_insert, if_neg apart]

theorem withSlotMut_backend : (store.withSlotMut write).2.backend = store.backend := by
  have frame := (@reach_frame store).2.2
  unfold withSlotMut
  revert frame
  rcases store.reach with ⟨_ | _, reached⟩
  · exact fun frame => frame
  · dsimp only
    cases reached.refusal write <;> exact fun frame => frame

/-- A write takes place or leaves the store as it was. -/
theorem withSlotMut_wrote :
    (store.withSlotMut write).1 = .ok () ∧ Wrote write store (store.withSlotMut write).2 ∨
      (∃ error, (store.withSlotMut write).1 = .error error) ∧ Agree store (store.withSlotMut write).2 := by
  rcases @withSlotMut_cases store write with ⟨done, slots, committed⟩ | ⟨failed, slots, committed⟩
  · exact Or.inl ⟨done, slots, committed, withSlotMut_backend⟩
  · exact Or.inr ⟨failed, slots, committed, withSlotMut_backend⟩

end FixSessionStore

open FixSessionStore

/-- Nothing that matters to the counters or the store has changed. -/
structure Quiet (dispatch reached : Dispatch) : Prop where
  standing : reached.standing = dispatch.standing
  outbound : reached.outbound = dispatch.outbound
  onward : dispatch.Onward reached
  store : Agree dispatch.store reached.store

/-- One frame has been emitted: stored under the session's key together with the advanced counter. -/
structure Sent (frame : Frame) (dispatch reached : Dispatch) : Prop where
  standing : reached.standing = dispatch.standing
  numbered : frame.header.msgSeqNum = dispatch.outbound
  below : dispatch.outbound < u64Max
  outbound : reached.outbound = dispatch.outbound + 1
  onward : dispatch.Onward reached
  venueComp : dispatch.fsm.venueComp = some frame.header.senderCompId
  clientComp : dispatch.fsm.clientComp = some frame.header.targetCompId
  unbound : dispatch.fsm.key = none → Agree dispatch.store reached.store
  stored : ∀ key, dispatch.fsm.key = some key → ∃ size,
    Wrote (.outbound key ⟨dispatch.outbound, frame, size⟩ (dispatch.outbound + 1)) dispatch.store reached.store

def SendStep (dispatch reached : Dispatch) : Prop := Quiet dispatch reached ∨ ∃ frame, Sent frame dispatch reached

/-- Any number of emissions. -/
abbrev Sends : Dispatch → Dispatch → Prop := Relation.ReflTransGen SendStep

theorem Quiet.refl (dispatch : Dispatch) : Quiet dispatch dispatch := ⟨rfl, rfl, Or.inl rfl, rfl, rfl, rfl⟩

theorem Quiet.sends {dispatch reached : Dispatch} (quiet : Quiet dispatch reached) : Sends dispatch reached :=
  .single (Or.inl quiet)

theorem Sent.sends {frame : Frame} {dispatch reached : Dispatch} (sent : Sent frame dispatch reached) :
    Sends dispatch reached := .single (Or.inr ⟨frame, sent⟩)

/-- What every emission preserves, a sequence of them preserves. -/
theorem Sends.preserves {dispatch reached : Dispatch} (sends : Sends dispatch reached) (property : Dispatch → Prop)
    (quiet : ∀ {before after}, Quiet before after → property before → property after)
    (sent : ∀ {frame before after}, Sent frame before after → property before → property after)
    (initially : property dispatch) : property reached := by
  induction sends with
  | refl => exact initially
  | tail _ step ih =>
    rcases step with silent | ⟨frame, emitted⟩
    · exact quiet silent ih
    · exact sent emitted ih

theorem Sends.standing {dispatch reached : Dispatch} (sends : Sends dispatch reached) :
    reached.standing = dispatch.standing :=
  sends.preserves (fun now => now.standing = dispatch.standing)
    (fun quiet same => quiet.standing.trans same) (fun sent same => sent.standing.trans same) rfl

theorem Sends.onward {dispatch reached : Dispatch} (sends : Sends dispatch reached) : dispatch.Onward reached :=
  sends.preserves dispatch.Onward
    (fun quiet onward => onward.trans quiet.onward) (fun sent onward => onward.trans sent.onward) (.refl dispatch)

theorem Slot.evict_suffix (entries : List StoredOutbound) (bytes : Nat) : (Slot.evict entries bytes).1 <:+ entries := by
  induction entries generalizing bytes with
  | nil => exact List.suffix_rfl
  | cons oldest rest ih =>
    unfold Slot.evict
    split
    next => exact (ih _).trans (List.suffix_cons oldest rest)
    next => exact List.suffix_rfl

/-- The frames that a session may put on the wire: those under its reply identity and those in its log. -/
structure Speaks (good : Frame → Prop) (dispatch : Dispatch) : Prop where
  own : ∀ frame : Frame, dispatch.fsm.venueComp = some frame.header.senderCompId →
    dispatch.fsm.clientComp = some frame.header.targetCompId → good frame
  logged : ∀ key, dispatch.fsm.key = some key → ∀ entry ∈ (dispatch.store.slot key).outbound, good entry.frame

/-- Where the identity stays, only new entries of the log are to be looked at. -/
theorem Speaks.kept {good : Frame → Prop} {dispatch reached : Dispatch} (speaks : Speaks good dispatch)
    (same : reached.standing.identity = dispatch.standing.identity)
    (logged : ∀ key, dispatch.fsm.key = some key → ∀ entry ∈ (reached.store.slot key).outbound,
      entry ∈ (dispatch.store.slot key).outbound ∨ good entry.frame) : Speaks good reached := by
  have key : reached.fsm.key = dispatch.fsm.key := congrArg Prod.fst same
  have venue : reached.fsm.venueComp = dispatch.fsm.venueComp := congrArg (fun identity => identity.2.1) same
  have client : reached.fsm.clientComp = dispatch.fsm.clientComp := congrArg (fun identity => identity.2.2) same
  refine ⟨fun frame => venue ▸ client ▸ speaks.own frame, fun bound held entry member => ?_⟩
  rcases logged bound (key ▸ held) entry member with old | fresh
  · exact speaks.logged bound (key ▸ held) entry old
  · exact fresh

theorem Sends.speaks {good : Frame → Prop} {dispatch reached : Dispatch} (sends : Sends dispatch reached)
    (speaks : Speaks good dispatch) : Speaks good reached := by
  refine sends.preserves (Speaks good) ?_ ?_ speaks
  · intro before after quiet speaks
    refine speaks.kept (congrArg Standing.identity quiet.standing) fun bound held entry member => Or.inl ?_
    rw [quiet.store.slot] at member
    exact member
  · intro frame before after sent speaks
    refine speaks.kept (congrArg Standing.identity sent.standing) fun bound held entry member => ?_
    obtain ⟨size, wrote⟩ := sent.stored bound held
    rw [show after.store.slot bound = _ from wrote.slot_self] at member
    have kept := (Slot.evict_suffix _ _).subset member
    rcases List.mem_append.1 kept with old | fresh
    · exact Or.inl old
    · rw [List.mem_singleton.1 fresh]
      exact Or.inr (speaks.own frame sent.venueComp sent.clientComp)

/-- A handler that only answers, and whose answer shows allowed frames only. -/
def Yields {α : Type} (good : Frame → Prop) (shown : α → List Frame) (m : SessionM α) : Prop :=
  ∀ dispatch, Speaks good dispatch → Sends dispatch (m.exec dispatch).2 ∧
    ∀ value, (m.exec dispatch).1 = .ok value → ∀ frame ∈ shown value, good frame

section Rules
variable {α β : Type} {good : Frame → Prop} {shown : α → List Frame} {displayed : β → List Frame}

theorem Yields.pure {value : α} (allowed : ∀ frame ∈ shown value, good frame) :
    Yields good shown (Pure.pure value : SessionM α) := by
  refine fun dispatch _ => ⟨.refl, fun other same => ?_⟩
  cases same
  exact allowed

theorem Yields.throw {halt : Halt} : Yields good shown (MonadExcept.throw halt : SessionM α) :=
  fun _ _ => ⟨.refl, nofun⟩

theorem Yields.bind {m : SessionM α} {next : α → SessionM β} (first : Yields good shown m)
    (rest : ∀ value, (∀ frame ∈ shown value, good frame) → Yields good displayed (next value)) :
    Yields good displayed (m >>= next) := by
  intro dispatch speaks
  have now := first dispatch speaks
  rw [exec_bind]
  revert now
  rcases m.exec dispatch with ⟨error | value, middle⟩
  · exact fun now => ⟨now.1, nofun⟩
  · intro now
    have later := rest value (now.2 value rfl) middle (now.1.speaks speaks)
    exact ⟨now.1.trans later.1, later.2⟩

/-- A handler may read the state first. -/
theorem Yields.get {next : Dispatch → SessionM β} (rest : ∀ seen, Yields good displayed (next seen)) :
    Yields good displayed (MonadState.get >>= next) := by
  intro dispatch speaks
  rw [exec_bind]
  exact rest dispatch dispatch speaks

theorem Yields.ite {condition : Prop} [Decidable condition] {m other : SessionM α}
    (yes : Yields good shown m) (no : Yields good shown other) :
    Yields good shown (if condition then m else other) := by
  split
  next => exact yes
  next => exact no

theorem Yields.modify {change : Dispatch → Dispatch} (quiet : ∀ dispatch, Quiet dispatch (change dispatch)) :
    Yields good (fun _ => []) (modify change : SessionM Unit) :=
  fun dispatch _ => ⟨(quiet dispatch).sends, fun _ _ => List.forall_mem_nil _⟩

end Rules

/-- One write of the store takes place, or the session is sealed and the store is as it was. -/
theorem onStore_write (write : StoreWrite) (dispatch : Dispatch) :
    ∃ store, (exec (onStore fun store => store.withSlotMut write) dispatch = (.ok (), { dispatch with store := store }) ∧
        Wrote write dispatch.store store) ∨
      (∃ halt, exec (onStore fun store => store.withSlotMut write) dispatch =
          (.error halt, { dispatch with store := store })) ∧ Agree dispatch.store store := by
  refine ⟨(dispatch.store.withSlotMut write).2, ?_⟩
  have outcome := @withSlotMut_wrote dispatch.store write
  unfold onStore
  rw [exec_transition]
  dsimp only
  revert outcome
  rcases dispatch.store.withSlotMut write with ⟨error | done, store⟩
  · rintro (⟨wrong, -⟩ | ⟨-, agree⟩)
    · exact nomatch wrong
    · exact Or.inr ⟨⟨_, rfl⟩, agree⟩
  · rintro (⟨-, wrote⟩ | ⟨⟨_, wrong⟩, -⟩)
    · exact Or.inl ⟨rfl, wrote⟩
    · exact nomatch wrong

/-- A frame of a bound session is written with its counter; without a key there is nothing to write. -/
theorem storeFrame_run (key : Option SessionKey) (entry : StoredOutbound) (next : Nat) (dispatch : Dispatch) :
    ∃ store, (exec (storeFrame key entry next) dispatch = (.ok (), { dispatch with store := store }) ∧
        (key = none → Agree dispatch.store store) ∧
        ∀ bound, key = some bound → Wrote (.outbound bound entry next) dispatch.store store) ∨
      ∃ halt, exec (storeFrame key entry next) dispatch = (.error halt, { dispatch with store := store }) ∧
        Agree dispatch.store store := by
  cases key with
  | none => exact ⟨dispatch.store, Or.inl ⟨rfl, fun _ => ⟨rfl, rfl, rfl⟩, nofun⟩⟩
  | some key =>
    obtain ⟨store, ⟨ran, wrote⟩ | ⟨⟨halt, ran⟩, agree⟩⟩ := onStore_write (.outbound key entry next) dispatch
    · exact ⟨store, Or.inl ⟨ran, nofun, fun bound same => by cases same; exact wrote⟩⟩
    · exact ⟨store, Or.inr ⟨halt, ran, agree⟩⟩

theorem onStore_outboundRange (key : SessionKey) (first last : Nat) (dispatch : Dispatch) :
    ∃ store, Agree dispatch.store store ∧
      ((∃ halt, exec (onStore fun store => store.outboundRange key first last) dispatch =
          (.error halt, { dispatch with store := store })) ∨
        ∃ stored, exec (onStore fun store => store.outboundRange key first last) dispatch =
            (.ok stored, { dispatch with store := store }) ∧
          ∀ entry ∈ stored, entry ∈ (dispatch.store.slot key).outbound) := by
  have frame := @reach_frame dispatch.store
  have same := @reach_slot dispatch.store key
  refine ⟨(dispatch.store.outboundRange key first last).2, ?_⟩
  unfold onStore
  rw [exec_transition]
  unfold outboundRange
  dsimp only
  revert frame same
  rcases dispatch.store.reach with ⟨error | done, store⟩
  · exact fun frame _ => ⟨frame, Or.inl ⟨_, rfl⟩⟩
  · intro frame same
    refine ⟨frame, Or.inr ⟨_, rfl, fun entry member => ?_⟩⟩
    dsimp only at same
    rw [← same]
    exact List.mem_of_mem_filter (List.mem_mergeSort.1 member)

theorem onStore_loadCounters (key : SessionKey) (dispatch : Dispatch) :
    ∃ store, Agree dispatch.store store ∧
      ((∃ halt, exec (onStore fun store => store.loadCounters key) dispatch =
          (.error halt, { dispatch with store := store })) ∨
        exec (onStore fun store => store.loadCounters key) dispatch =
          (.ok (dispatch.store.slot key).counters, { dispatch with store := store })) := by
  have frame := @reach_frame dispatch.store
  have same := @reach_slot dispatch.store key
  refine ⟨(dispatch.store.loadCounters key).2, ?_⟩
  unfold onStore
  rw [exec_transition]
  unfold loadCounters
  dsimp only
  revert frame same
  rcases dispatch.store.reach with ⟨error | done, store⟩
  · exact fun frame _ => ⟨frame, Or.inl ⟨_, rfl⟩⟩
  · intro frame same
    dsimp only at same ⊢
    rw [same]
    exact ⟨frame, Or.inr rfl⟩

theorem closing_quiet (dispatch : Dispatch) :
    Quiet dispatch { dispatch with fsm := { dispatch.fsm with phase := .closing } } :=
  ⟨rfl, rfl, Or.inr rfl, rfl, rfl, rfl⟩

/-- What a resend serves are frames of the log and gap fills. -/
theorem servedFrames_good {good : Frame → Prop} {gapFill : Nat → Nat → Except Halt Frame} {upper seq : Nat} {stored : List StoredOutbound}
    (filled : ∀ atSeq newSeqNo frame, gapFill atSeq newSeqNo = .ok frame → good frame)
    (logged : ∀ entry ∈ stored, good entry.frame) {frames : List Frame}
    (served : servedFrames gapFill upper seq stored = .ok frames) : ∀ frame ∈ frames, good frame := by
  induction stored generalizing seq frames with
  | nil =>
    unfold servedFrames at served
    split at served
    next =>
      obtain ⟨frame, made, same⟩ := except_bind_ok served
      cases same
      exact List.forall_mem_singleton.2 (filled _ _ frame made)
    next => cases served; exact List.forall_mem_nil _
  | cons entry rest ih =>
    obtain ⟨first, others⟩ := List.forall_mem_cons.1 logged
    unfold servedFrames at served
    split at served
    next => cases served; exact List.forall_mem_nil _
    next =>
      split at served
      next =>
        obtain ⟨later, made, same⟩ := except_bind_ok served
        cases same
        exact List.forall_mem_cons.2 ⟨first, ih others made⟩
      next =>
        split at served
        next =>
          obtain ⟨frame, made, next⟩ := except_bind_ok served
          obtain ⟨later, more, same⟩ := except_bind_ok next
          cases same
          exact List.forall_mem_cons.2 ⟨filled _ _ frame made, List.forall_mem_cons.2 ⟨first, ih others more⟩⟩
        next =>
          obtain ⟨frame, made, same⟩ := except_bind_ok served
          cases same
          exact List.forall_mem_singleton.2 (filled _ _ frame made)

section Wiring
variable {good : Frame → Prop} {U : Upstream} {venue : AppState} {now : Nat}

theorem trackPlaced_yields {clOrdId : ClientOrderId} {placed : PlacedOrder} :
    Yields good (fun _ => []) (trackPlaced clOrdId placed) := by
  refine .modify fun dispatch => ?_
  split
  next => exact .refl dispatch
  next => exact ⟨rfl, rfl, Or.inl rfl, rfl, rfl, rfl⟩

theorem dropPlaced_yields {clOrdId : ClientOrderId} : Yields good (fun _ => []) (dropPlaced clOrdId) :=
  .modify fun _ => ⟨rfl, rfl, Or.inl rfl, rfl, rfl, rfl⟩

theorem dropPlacedOrder_yields {orderId : VenueOrderId} : Yields good (fun _ => []) (dropPlacedOrder venue orderId) := by
  refine .modify fun dispatch => ?_
  split
  next => exact ⟨rfl, rfl, Or.inl rfl, rfl, rfl, rfl⟩
  next => exact .refl dispatch

theorem setMarketData_yields {marketData : Option (Std.ExtTreeMap Symbol MdSymbolSub)} :
    Yields good (fun _ => []) (setMarketData marketData) :=
  .modify fun _ => ⟨rfl, rfl, Or.inl rfl, rfl, rfl, rfl⟩

theorem writeSub_yields {symbol : Symbol} {sub : MdSymbolSub} : Yields good (fun _ => []) (writeSub symbol sub) :=
  .modify fun _ => ⟨rfl, rfl, Or.inl rfl, rfl, rfl, rfl⟩

theorem sweptReports_yields {index : Nat} {affected : List SweptLeg} :
    Yields good (fun _ => []) (sweptReports U venue now index affected) := by
  induction affected generalizing index with
  | nil => exact .pure (List.forall_mem_nil _)
  | cons swept rest ih =>
    exact .bind dropPlacedOrder_yields fun _ _ => .ite .throw (.bind ih fun _ _ => .pure (List.forall_mem_nil _))

end Wiring

section Emission
variable [Ironfix]

/-- An emission sends the frame that it builds, or changes nothing. -/
theorem emit_ends (now : Nat) {build : StandardHeader → Frame} (keeps : ∀ header, (build header).header = header) :
    Ends (fun dispatch result reached => (∃ frame, result = .ok frame ∧ Sent frame dispatch reached) ∨
      (∃ halt, result = .error halt) ∧ Quiet dispatch reached) (emit now build) := by
  intro dispatch
  unfold emit
  rw [exec_get_bind]
  cases venue : dispatch.fsm.venueComp with
  | none => exact Or.inr ⟨⟨_, rfl⟩, .refl _⟩
  | some sender =>
    cases client : dispatch.fsm.clientComp with
    | none => exact Or.inr ⟨⟨_, rfl⟩, .refl _⟩
    | some target =>
      dsimp only
      have header := keeps ⟨sender, target, dispatch.fsm.counters.nextSenderSeq, .fromEpochMs now⟩
      generalize build ⟨sender, target, dispatch.fsm.counters.nextSenderSeq, .fromEpochMs now⟩ = frame at header ⊢
      cases frame.encode with
      | error _ => exact Or.inr ⟨⟨_, rfl⟩, .refl _⟩
      | ok bytes =>
        cases counted : checkedNext dispatch.fsm.counters.nextSenderSeq with
        | none => exact Or.inr ⟨⟨_, rfl⟩, .refl _⟩
        | some next =>
          obtain ⟨below, rfl⟩ := checkedNext_eq_some.1 counted
          dsimp only
          obtain ⟨store, ⟨ran, free, held⟩ | ⟨halt, ran, agree⟩⟩ := storeFrame_run dispatch.fsm.key
            ⟨dispatch.fsm.counters.nextSenderSeq, frame, bytes.length⟩ (dispatch.fsm.counters.nextSenderSeq + 1) dispatch
          · refine Or.inl ⟨frame, ?_, ?_⟩
            · rw [exec_bind_ok ran]
              rfl
            · rw [exec_bind_ok ran]
              exact {
                standing := rfl
                numbered := by rw [header]; rfl
                below := below
                outbound := rfl
                onward := Or.inl rfl
                venueComp := by rw [venue, header]
                clientComp := by rw [client, header]
                unbound := free
                stored := fun key bound => ⟨bytes.length, held key bound⟩ }
          · refine Or.inr ⟨⟨halt, ?_⟩, ?_⟩
            · rw [exec_bind_error ran]
            · rw [exec_bind_error ran]
              exact ⟨rfl, rfl, Or.inl rfl, agree⟩

/-- A frame that goes out is the one that was built, and the subscriptions stay. -/
theorem emit_builds {now : Nat} {build : StandardHeader → Frame} {frame : Frame} {dispatch reached : Dispatch}
    (finished : exec (emit now build) dispatch = (.ok frame, reached)) :
    (∃ header, frame = build header) ∧ reached.marketData = dispatch.marketData := by
  unfold emit at finished
  rw [exec_get_bind] at finished
  split at finished
  next sender target =>
    dsimp only at finished
    split at finished
    next => cases finished
    next => cases finished
    next bytes next encoded counted =>
      obtain ⟨stored, middle, saved, finished⟩ := exec_bind_eq_ok finished
      rw [setFsm, exec_modify_bind] at finished
      cases finished
      refine ⟨⟨_, rfl⟩, ?_⟩
      obtain ⟨store, ⟨ran, -⟩ | ⟨halt, ran, -⟩⟩ := storeFrame_run dispatch.fsm.key
        ⟨dispatch.fsm.counters.nextSenderSeq, _, bytes.length⟩ next dispatch
      · cases saved.symm.trans ran
        rfl
      · cases saved.symm.trans ran
  next => cases finished

theorem emitOne_builds {now : Nat} {build : StandardHeader → DecodedMessage} {reaction : Reaction} {dispatch reached : Dispatch}
    (finished : exec (emitOne now build) dispatch = (.ok reaction, reached)) :
    (∃ header, reaction = .emit [.message (build header)]) ∧ reached.marketData = dispatch.marketData := by
  unfold emitOne at finished
  obtain ⟨frame, middle, emitted, finished⟩ := exec_bind_eq_ok finished
  cases finished
  obtain ⟨⟨header, rfl⟩, kept⟩ := emit_builds emitted
  exact ⟨⟨header, rfl⟩, kept⟩

variable {good : Frame → Prop}

theorem emit_yields {now : Nat} {build : StandardHeader → Frame} (keeps : ∀ header, (build header).header = header) :
    Yields good (fun frame => [frame]) (emit now build) := by
  intro dispatch speaks
  rcases emit_ends now keeps dispatch with ⟨frame, emitted, sent⟩ | ⟨⟨halt, stopped⟩, quiet⟩
  · refine ⟨sent.sends, fun other same => ?_⟩
    rw [emitted] at same
    cases same
    exact List.forall_mem_singleton.2 (speaks.own frame sent.venueComp sent.clientComp)
  · exact ⟨quiet.sends, fun other same => nomatch stopped.symm.trans same⟩

theorem emitOne_yields {now : Nat} {build : StandardHeader → DecodedMessage}
    (keeps : ∀ header, headerOf (build header) = header) : Yields good Reaction.frames (emitOne now build) :=
  .bind (emit_yields keeps) fun _ allowed => .pure allowed

theorem emitReports_yields (now : Nat) (specs : List ExecReportSpec) : Yields good id (emitReports now specs) := by
  induction specs with
  | nil => exact .pure (List.forall_mem_nil _)
  | cons spec rest ih =>
    refine .bind (emit_yields fun _ => rfl) fun frame first => .bind ih fun frames others => .pure ?_
    exact List.forall_mem_cons.2 ⟨first frame List.mem_cons_self, others⟩

theorem emitReportSpecs_yields {specs : List ExecReportSpec} {now : Nat} :
    Yields good Reaction.frames (emitReportSpecs specs now) :=
  .bind (emitReports_yields now specs) fun _ allowed => .pure allowed

theorem logoutClose_yields {now : Nat} {reason : String} : Yields good Reaction.frames (logoutClose now reason) :=
  .bind (.modify closing_quiet) fun _ _ => .bind (emit_yields fun _ => rfl) fun _ allowed => .pure allowed

theorem emitOrderRejectedCode_yields {symbol : Symbol} {side : OrderSide} {price : Option Nat} {code : Nat}
    {text : Option String} {now : Nat} :
    Yields good Reaction.frames (emitOrderRejectedCode symbol side price code text now) :=
  .get fun _ => emitOne_yields fun _ => rfl

theorem emitCancelReject_yields {orderId : VenueOrderId} {origClOrdId clOrdId : ClientOrderId}
    {responseTo : CxlRejResponseTo} {ordStatus : OrdStatus} {reason : Nat} {text : Option String} {now : Nat} :
    Yields good Reaction.frames (emitCancelReject orderId origClOrdId clOrdId responseTo ordStatus reason text now) :=
  emitOne_yields fun _ => rfl

theorem emitMassCancelRejected_yields {now : Nat} : Yields good Reaction.frames (emitMassCancelRejected now) :=
  emitOne_yields fun _ => rfl

theorem emitMassCancelAccepted_yields {response : MassCancelResponse} {affected : List VenueOrderId}
    {specs : List ExecReportSpec} {now : Nat} :
    Yields good Reaction.frames (emitMassCancelAccepted response affected specs now) := by
  refine .ite .throw (.bind (emit_yields fun _ => rfl) fun report first => ?_)
  refine .bind (emitReports_yields now specs) fun frames others => .pure ?_
  exact List.forall_mem_cons.2 ⟨first report List.mem_cons_self, others⟩

theorem emitMdRequestReject_yields {mdReqId : String} {reason : Nat} {text : Option String} {now : Nat} :
    Yields good Reaction.frames (emitMdRequestReject mdReqId reason text now) :=
  emitOne_yields fun _ => rfl

theorem sessionReject_yields {now : Nat} {reason : SessionRejectReason} {refTag : Option Nat} :
    Yields good Reaction.frames (sessionReject now reason refTag) :=
  .get fun _ => emitOne_yields fun _ => rfl

theorem rejectDecodeError_yields {error : FixDecodeError} {now : Nat} :
    Yields good Reaction.frames (rejectDecodeError error now) := by
  unfold rejectDecodeError
  cases error.rejectRoute with
  | sessionReject reason refTag => exact sessionReject_yields
  | businessMessageReject => exact .get fun _ => emitOne_yields fun _ => rfl

theorem permissionReject_yields {message : DecodedMessage} {now : Nat} :
    Yields good Reaction.frames (permissionReject message now) := by
  unfold permissionReject
  split
  next => exact emitOrderRejectedCode_yields
  next => exact emitCancelReject_yields
  next => exact emitCancelReject_yields
  next => exact emitMassCancelRejected_yields
  next => exact emitMdRequestReject_yields
  next => exact .pure (List.forall_mem_nil _)

/-- A gap fill goes out under the reply identity. -/
theorem gapFillFrame_good {dispatch : Dispatch} (speaks : Speaks good dispatch) {atSeq newSeqNo now : Nat} {frame : Frame}
    (built : gapFillFrame dispatch.fsm atSeq newSeqNo now = .ok frame) : good frame := by
  unfold gapFillFrame at built
  cases venue : dispatch.fsm.venueComp with
  | none => rw [venue] at built; cases built
  | some sender =>
    cases client : dispatch.fsm.clientComp with
    | none => rw [venue, client] at built; cases built
    | some target =>
      rw [venue, client] at built
      dsimp only at built
      split at built
      next => cases built
      next => cases built; exact speaks.own _ venue client

theorem serveResend_yields {resend : ResendRequest} {now : Nat} :
    Yields good Reaction.frames (serveResend resend now) := by
  intro dispatch speaks
  unfold serveResend
  rw [exec_get_bind]
  cases bound : dispatch.fsm.key with
  | none => exact ⟨.refl, nofun⟩
  | some key =>
    obtain ⟨store, agree, ⟨halt, ran⟩ | ⟨stored, ran, logged⟩⟩ :=
      onStore_outboundRange key resend.beginSeqNo resend.endSeqNo dispatch
    · rw [exec_bind_error ran]
      exact ⟨Quiet.sends ⟨rfl, rfl, Or.inl rfl, agree⟩, nofun⟩
    · rw [exec_bind_ok ran]
      dsimp only
      cases served : servedFrames (fun atSeq newSeqNo => gapFillFrame dispatch.fsm atSeq newSeqNo now)
          (if resend.endSeqNo = 0 then max dispatch.fsm.counters.nextSenderSeq firstSeqNum - 1
            else min resend.endSeqNo (max dispatch.fsm.counters.nextSenderSeq firstSeqNum - 1))
          resend.beginSeqNo stored with
      | error halt => exact ⟨Quiet.sends ⟨rfl, rfl, Or.inl rfl, agree⟩, nofun⟩
      | ok frames =>
        refine ⟨Quiet.sends ⟨rfl, rfl, Or.inl rfl, agree⟩, fun reaction same => ?_⟩
        cases same
        exact servedFrames_good (fun _ _ _ built => gapFillFrame_good speaks built)
          (fun entry member => speaks.logged key bound entry (logged entry member)) served

theorem dispatchActiveBody_yields {message : DecodedMessage} {now : Nat} :
    Yields good Reaction.frames (dispatchActiveBody message now) := by
  unfold dispatchActiveBody
  split
  next => exact .pure (List.forall_mem_nil _)
  next => exact .pure (List.forall_mem_nil _)
  next => exact .pure (List.forall_mem_nil _)
  next => exact emitOne_yields fun _ => rfl
  next => exact serveResend_yields
  next => exact .bind (.modify closing_quiet) fun _ _ => .bind (emit_yields fun _ => rfl) fun _ allowed => .pure allowed
  next => exact sessionReject_yields

theorem heartbeatDue_yields {now : Nat} : Yields good id (heartbeatDue now) :=
  .get fun _ => .ite (.bind (emit_yields fun _ => rfl) fun _ allowed => .pure allowed) (.pure (List.forall_mem_nil _))

theorem livenessDue_yields {now : Nat} : Yields good Reaction.frames (livenessDue now) := by
  refine .get fun seen => ?_
  cases seen.fsm.awaitingTestReqSinceMs with
  | none =>
    refine .ite (.bind (emit_yields fun _ => rfl) fun probe allowed => ?_) (.pure (List.forall_mem_nil _))
    exact .bind (.modify fun _ => ⟨rfl, rfl, Or.inl rfl, rfl, rfl, rfl⟩) fun _ _ => .pure allowed
  | some since => exact .ite logoutClose_yields (.pure (List.forall_mem_nil _))

theorem SessionFsm.onTick_yields {now : Nat} {revoked : Bool} :
    Yields good Reaction.frames (SessionFsm.onTick now revoked) := by
  refine .get fun seen => ?_
  have serving : Yields good Reaction.frames
      (if revoked then logoutClose now "account revoked"
        else if seen.fsm.heartBtIntMs = 0 then pure .cont
        else do
          let beats ← heartbeatDue now
          let reaction ← livenessDue now
          pure { reaction with frames := beats ++ reaction.frames }) := by
    refine .ite logoutClose_yields (.ite (.pure (List.forall_mem_nil _)) ?_)
    refine .bind heartbeatDue_yields fun beats first => .bind livenessDue_yields fun reaction others => .pure ?_
    exact List.forall_mem_append.2 ⟨first, others⟩
  cases seen.fsm.phase with
  | awaitingLogon =>
    exact .ite (.bind (.modify closing_quiet) fun _ _ => .pure (List.forall_mem_nil _)) (.pure (List.forall_mem_nil _))
  | active => exact serving
  | awaitingResend => exact serving
  | closing => exact .pure (List.forall_mem_nil _)

section Orders
variable {U : Upstream} {venue : AppState} {now : Nat}

theorem renderTrackedStatus_yields {order : ResolvedOrder} :
    Yields good Reaction.frames (renderTrackedStatus U venue order now) := by
  refine .get fun seen => ?_
  cases seen.fsm.account with
  | none => exact .pure (List.forall_mem_nil _)
  | some account => exact emitReportSpecs_yields

theorem rejectNewOrder_yields {order : NewOrderSingle} {error : VenueError} :
    Yields good Reaction.frames (rejectNewOrder order error now) := emitOrderRejectedCode_yields

theorem rejectCancel_yields {orderId : VenueOrderId} {origClOrdId clOrdId : ClientOrderId}
    {responseTo : CxlRejResponseTo} {error : VenueError} :
    Yields good Reaction.frames (rejectCancel orderId origClOrdId clOrdId responseTo error now) :=
  emitCancelReject_yields

theorem renderPlaced_yields {order : NewOrderSingle} {account : AccountId} {admitted : Admitted} {receipt : Receipt} :
    Yields good Reaction.frames (renderPlaced venue order account admitted receipt now) := by
  unfold renderPlaced
  split
  next => exact emitOrderRejectedCode_yields
  next => exact .bind trackPlaced_yields fun _ _ => emitReportSpecs_yields

theorem renderCancelled_yields {cancel : OrderCancelRequest} {resolved : ResolvedOrder} {receipt : Receipt} :
    Yields good Reaction.frames (renderCancelled U venue cancel resolved receipt now) := by
  unfold renderCancelled
  split
  next => exact rejectCancel_yields
  next => exact .bind dropPlaced_yields fun _ _ => emitReportSpecs_yields

theorem renderReplaced_yields {replace : OrderCancelReplaceRequest} {account : AccountId} {resolved : ResolvedOrder}
    {newOrderId : VenueOrderId} {receipt : Receipt} :
    Yields good Reaction.frames (renderReplaced U venue replace account resolved newOrderId receipt now) := by
  unfold renderReplaced
  split
  next => exact rejectCancel_yields
  next => exact .ite (.bind dropPlaced_yields fun _ _ => emitCancelReject_yields) emitCancelReject_yields
  next => exact .bind dropPlaced_yields fun _ _ => .bind trackPlaced_yields fun _ _ => emitReportSpecs_yields

theorem renderMassCancel_yields {response : MassCancelResponse} {affected : List SweptLeg} :
    Yields good Reaction.frames (renderMassCancel U venue response affected now) :=
  .bind sweptReports_yields fun _ _ => emitMassCancelAccepted_yields

theorem routeStatus_yields {status : OrderStatusRequest} :
    Yields good Reaction.frames (routeStatus U venue status now) := by
  refine .get fun seen => ?_
  cases seen.fsm.account with
  | none => exact .pure (List.forall_mem_nil _)
  | some account =>
    dsimp only
    split
    next => exact emitOrderRejectedCode_yields
    next => exact renderTrackedStatus_yields

end Orders

section MarketData
variable {venue : AppState} {now : Nat}

theorem subscribeSymbols_yields {request : MarketDataRequest} {symbols : List Symbol} :
    Yields good id (subscribeSymbols venue request now symbols) := by
  induction symbols with
  | nil => exact .pure (List.forall_mem_nil _)
  | cons symbol rest ih =>
    unfold subscribeSymbols
    dsimp only
    split
    next => exact .bind writeSub_yields fun _ _ => ih
    next =>
      refine .bind writeSub_yields fun _ _ => .bind (emit_yields fun _ => rfl) fun frame first => ?_
      exact .bind ih fun frames others => .pure (List.forall_mem_cons.2 ⟨first frame List.mem_cons_self, others⟩)

theorem routeMarketData_yields {request : MarketDataRequest} :
    Yields good Reaction.frames (routeMarketData venue request now) := by
  unfold routeMarketData
  cases request.subscriptionRequestType with
  | snapshotPlusUpdates =>
    refine .get fun seen => ?_
    cases subscribeRefusal seen.marketData request with
    | some refusal => exact emitMdRequestReject_yields
    | none =>
      exact .bind setMarketData_yields fun _ _ => .bind subscribeSymbols_yields fun _ allowed => .pure allowed
  | unsubscribe =>
    exact .get fun _ => .bind setMarketData_yields fun _ _ => .pure (List.forall_mem_nil _)

theorem resnapshotSubscriptions_yields {subs : List (Symbol × MdSymbolSub)} :
    Yields good id (resnapshotSubscriptions venue now subs) := by
  induction subs with
  | nil => exact .pure (List.forall_mem_nil _)
  | cons entry rest ih =>
    unfold resnapshotSubscriptions
    split
    next => exact ih
    next =>
      refine .bind (emit_yields fun _ => rfl) fun frame first => .bind writeSub_yields fun _ _ => ?_
      exact .bind ih fun frames others => .pure (List.forall_mem_cons.2 ⟨first frame List.mem_cons_self, others⟩)

theorem projectDeltas_yields {messages : List MarketData.WsMessage} :
    Yields good id (projectDeltas now messages) := by
  induction messages with
  | nil => exact .pure (List.forall_mem_nil _)
  | cons message rest ih =>
    cases message with
    | orderbookDelta symbol sequence changes =>
      refine .get fun seen => ?_
      split
      next => exact ih
      next sub _ =>
        refine .ite ih (.bind writeSub_yields fun _ _ => ?_)
        split
        next => exact ih
        next =>
          refine .bind (emit_yields fun _ => rfl) fun frame first => ?_
          exact .bind ih fun frames others => .pure (List.forall_mem_cons.2 ⟨first frame List.mem_cons_self, others⟩)
    | _ => exact ih

theorem drainMarketData_yields : Yields good id (drainMarketData venue now) := by
  refine .get fun seen => ?_
  cases seen.marketData with
  | none => exact .pure (List.forall_mem_nil _)
  | some live =>
    refine .ite projectDeltas_yields ?_
    cases venue.feedEnd with
    | empty => exact projectDeltas_yields
    | lagged => exact resnapshotSubscriptions_yields
    | closed => exact .bind setMarketData_yields fun _ _ => .pure (List.forall_mem_nil _)

theorem appendMarketData_yields {reaction : Reaction} (allowed : ∀ frame ∈ reaction.frames, good frame) :
    Yields good Reaction.frames (appendMarketData venue reaction now) := by
  refine .get fun _ => .ite (.pure allowed) (.bind drainMarketData_yields fun frames others => .pure ?_)
  exact List.forall_mem_append.2 ⟨allowed, others⟩

end MarketData

end Emission

end Fauxchange.Fix
