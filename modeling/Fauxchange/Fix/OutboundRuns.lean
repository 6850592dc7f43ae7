import Fauxchange.Exchange.ReferenceBook
import Fauxchange.Fix.Levels
import Fauxchange.Fix.Wire

/-! The outbound numbers of one key over whole runs: every durable write of its sessions leaves the recorded
frames gapless from one, and the counter one past the last of them. -/

namespace Fauxchange.Fix
open Exchange Lib Fallible FixSessionStore

/-- The frame that a write records. -/
def StoreWrite.frame? : StoreWrite → Option StoredOutbound
  | outbound _ entry _ => some entry
  | _ => none

theorem StoreWrite.Saves.silent {write : StoreWrite} (saves : write.Saves) : write.frame? = none := by
  cases write with
  | counters => rfl
  | outbound => cases saves
  | reset => rfl

def recorded (writes : List StoreWrite) : List StoredOutbound := writes.filterMap StoreWrite.frame?

/-- The slot that a list of writes leaves behind. -/
def replay (writes : List StoreWrite) : Slot := writes.foldl (fun slot write => write.apply slot) .default

/-- The recorded frames carry the numbers from one on without a gap, and the counter is the next. -/
structure Unbroken (writes : List StoreWrite) : Prop where
  seqs : (recorded writes).map StoredOutbound.seq = List.range' 1 (recorded writes).length
  frames : ∀ entry ∈ recorded writes, entry.frame.header.msgSeqNum = entry.seq
  next : (replay writes).counters.nextSenderSeq = (recorded writes).length + 1
  within : (recorded writes).length + 1 ≤ u64Max

section Writes
variable {writes : List StoreWrite} {write : StoreWrite}

theorem recorded_append (writes more : List StoreWrite) : recorded (writes ++ more) = recorded writes ++ recorded more :=
  List.filterMap_append

theorem replay_append (writes : List StoreWrite) (write : StoreWrite) :
    replay (writes ++ [write]) = write.apply (replay writes) := by
  unfold replay
  rw [List.foldl_append]
  rfl

theorem unbroken_nil : Unbroken [] where
  seqs := rfl
  frames := List.forall_mem_nil _
  next := rfl
  within := by decide

theorem Unbroken.nodup (unbroken : Unbroken writes) : ((recorded writes).map StoredOutbound.seq).Nodup := by
  rw [unbroken.seqs]
  exact List.nodup_range'

/-- A write that records no frame keeps the outbound counter. -/
theorem Unbroken.keeping (unbroken : Unbroken writes) (silent : write.frame? = none)
    (same : (write.apply (replay writes)).counters.nextSenderSeq = (replay writes).counters.nextSenderSeq) :
    Unbroken (writes ++ [write]) := by
  have frames : recorded (writes ++ [write]) = recorded writes := by
    rw [recorded_append, show recorded [write] = [] from List.filterMap_cons_none silent, List.append_nil]
  refine ⟨?_, ?_, ?_, ?_⟩
  · rw [frames]
    exact unbroken.seqs
  · rw [frames]
    exact unbroken.frames
  · rw [frames, replay_append, same]
    exact unbroken.next
  · rw [frames]
    exact unbroken.within

/-- A frame is recorded at the counter, which goes on by one. -/
theorem Unbroken.sending (unbroken : Unbroken writes) (key : SessionKey) {frame : Frame} (size : Nat)
    (numbered : frame.header.msgSeqNum = (replay writes).counters.nextSenderSeq)
    (below : (replay writes).counters.nextSenderSeq < u64Max) :
    Unbroken (writes ++ [.outbound key ⟨(replay writes).counters.nextSenderSeq, frame, size⟩
      ((replay writes).counters.nextSenderSeq + 1)]) := by
  have next := unbroken.next
  rw [next] at numbered below ⊢
  have frames : recorded (writes ++ [.outbound key ⟨(recorded writes).length + 1, frame, size⟩ ((recorded writes).length + 1 + 1)]) =
      recorded writes ++ [⟨(recorded writes).length + 1, frame, size⟩] := recorded_append _ _
  refine ⟨?_, ?_, ?_, ?_⟩
  · rw [frames, List.map_append, unbroken.seqs, List.length_append, List.length_singleton, List.range'_1_concat,
      Nat.add_comm 1]
    rfl
  · rw [frames]
    exact List.forall_mem_append.2 ⟨unbroken.frames, List.forall_mem_singleton.2 numbered⟩
  · rw [frames, replay_append, List.length_append, List.length_singleton]
    rfl
  · rw [frames, List.length_append, List.length_singleton]
    omega

end Writes

/-- The record of a key is unbroken at every moment, and its slot is what the record replays to. -/
structure Recorded (key : SessionKey) (store : FixSessionStore) : Prop where
  slot : store.slot key = replay (store.history key)
  moments : ∀ {moment}, moment <+: store.history key → Unbroken moment

section Stores
variable {key : SessionKey} {store after : FixSessionStore} {write : StoreWrite}

theorem recorded_new (key : SessionKey) (backend : Backend) : Recorded key (.new backend) where
  slot := slot_new backend
  moments := by
    intro moment early
    rw [List.prefix_nil.1 early]
    exact unbroken_nil

theorem Recorded.same (sound : Recorded key store) (slot : after.slot key = store.slot key)
    (history : after.history key = store.history key) : Recorded key after where
  slot := by rw [slot, history, sound.slot]
  moments := by
    rw [history]
    exact sound.moments

theorem Recorded.now (sound : Recorded key store) : Unbroken (store.history key) := sound.moments List.prefix_rfl

/-- One write of the key that leaves the record unbroken. -/
theorem Recorded.wrote (sound : Recorded key store) (wrote : Wrote write store after) (own : write.key = key)
    (unbroken : Unbroken (store.history key ++ [write])) : Recorded key after := by
  subst own
  refine ⟨?_, ?_⟩
  · rw [wrote.slot_self, wrote.history_self, replay_append, sound.slot]
  · intro moment early
    rw [wrote.history_self] at early
    rcases List.prefix_concat_iff.1 early with whole | earlier
    · rw [whole]
      exact unbroken
    · exact sound.moments earlier

end Stores

/-- The writes of a key leave its record unbroken. -/
theorem recorded_law (key : SessionKey) : KeyLaw key (Recorded key) where
  same := fun sound slot history => sound.same slot history
  saves := by
    intro store after write sound wrote own saves saved
    refine sound.wrote wrote own (sound.now.keeping saves.silent ?_)
    rw [saved, sound.slot]
  sends := by
    intro store after frame number size sound wrote counter numbered below
    refine sound.wrote wrote rfl ?_
    rw [sound.slot] at counter
    subst counter
    exact sound.now.sending key size numbered below

/-- Every live session of the key numbers its frames as the store does. -/
structure Numbered (key : SessionKey) (acceptor : Acceptor) : Prop where
  orderly : Orderly acceptor
  recorded : Recorded key acceptor.store
  level : ∀ {session}, acceptor.Serves key session →
    session.fsm.counters.nextSenderSeq = (acceptor.store.slot key).counters.nextSenderSeq

theorem numbered_new (key : SessionKey) (backend : Backend) (config : SessionConfig) :
    Numbered key (.new backend config) :=
  ⟨orderly_new backend config, recorded_new key backend, fun ⟨_, seated, _⟩ => nomatch seated⟩

section Running
variable [Ironfix] {U : Upstream} {key : SessionKey} {acceptor next : Acceptor} {action : AcceptorAction}

theorem Numbered.step (numbered : Numbered key acceptor) (unrenewed : ¬ action.Renews key)
    (taken : acceptor.step U action = some next) : Numbered key next := by
  have levels : Levels key (Recorded key) acceptor := ⟨numbered.orderly, numbered.recorded, numbered.level⟩
  have stepped := levels.step (recorded_law key) (recorded_new key _) (fun renews => absurd renews unrenewed) taken
  exact ⟨stepped.orderly, stepped.holds, stepped.level⟩

theorem numbered_runs {backend : Backend} {config : SessionConfig} {actions : List AcceptorAction}
    (unrenewed : Throughout (Acceptor.step U) (fun _ action => ¬ action.Renews key) (.new backend config) actions)
    (run : runFrom (Acceptor.step U) (.new backend config) actions = some acceptor) : Numbered key acceptor :=
  runFrom_invariant (fun _ _ _ numbered unrenewed taken => numbered.step unrenewed taken)
    (numbered_new key backend config) unrenewed run

end Running

/-- One account with one pair of comp ids, and an exchange that refuses everything. -/
def aliceVenue : AppState where
  nowMs := 1711713600500
  lineageId := "run-1"
  allowed _ := true
  verifyFixPassword _ _ := some "alice"
  account _ := some ⟨"alice", 7, [.trade], 0, some ("ALICE", "VENUE")⟩
  resolveClientOrderId _ _ := none
  orderIdCounter := 0
  submit _ _ := some (.error .rateLimited)
  submitMassCancel _ := some (.error .rateLimited)
  executions _ := .ok []
  orderbookSnapshot symbol _ := .orderbookSnapshot symbol 0 [] []
  received := []
  feedEnd := .empty
  hashOrder _ _ := Equiv.refl _

def aliceKey : SessionKey := ⟨"alice", "ALICE", "VENUE"⟩

theorem alice_short : "ALICE".utf8ByteSize ≤ 32 := by decide +kernel

theorem venue_short : "VENUE".utf8ByteSize ≤ 32 := by decide +kernel

def aliceHeader (seq : Nat) : StandardHeader := ⟨⟨"ALICE", alice_short⟩, ⟨"VENUE", venue_short⟩, seq, .fromEpochMs 1711713600500⟩

def aliceSends (message : DecodedMessage) : AcceptorAction := .dispatch 0 (.message message) aliceVenue [] 16

def aliceLogon (seq : Nat) : DecodedMessage := .logon ⟨aliceHeader seq, 30, "alice", "secret", none⟩

abbrev referenceStep := @Acceptor.step referenceWire referenceUpstream

/-- A session loses the store while it answers, and comes back after a crash. -/
def interruptedSession : List AcceptorAction :=
  [.accept 0 "10.0.0.1" 0, aliceSends (aliceLogon 1), aliceSends (.testRequest ⟨aliceHeader 2, "A"⟩),
    .dispatch 0 (.message (.testRequest ⟨aliceHeader 3, "B"⟩)) aliceVenue [some "connection reset"] 16,
    .crash, .accept 0 "10.0.0.1" 0, aliceSends (aliceLogon 3)]

end Fauxchange.Fix
