import Fauxchange.Fix.Codec
import Std.Data.ExtTreeMap

/-! The durable session store, one slot per account-keyed session: the counters, the bounded resend log and
the bounded reset audit. Each method is one transaction. The two backends differ in what they refuse. -/

namespace Fauxchange.Fix
open Exchange

/-- A venue-built frame: a message of the dialect, or the `Logon` ack that carries no credential. -/
inductive Frame where
  | message (message : DecodedMessage)
  | logonAck (header : StandardHeader) (heartBtIntSecs : Nat) (resetFlag : Bool)
  deriving DecidableEq

namespace Frame

def header : Frame → StandardHeader
  | message sent => headerOf sent
  | logonAck header _ _ => header

def fields : Frame → List Field
  | message sent => sent.fields
  | logonAck header heartBtIntSecs resetFlag => encodeLogonAck header heartBtIntSecs resetFlag

def encode [Ironfix] (frame : Frame) : Except FixEncodeError (List UInt8) := Ironfix.finish frame.fields

end Frame

def firstSeqNum : Nat := 1
def maxStoredOutboundPerKey : Nat := 4096
def maxStoredOutboundBytesPerKey : Nat := 8 * 1024 * 1024
def maxResetEventsPerKey : Nat := 1024
def maxSessionKeys : Nat := 65536

/-- The authenticated account with its bound comp ids, as the client presents them. -/
structure SessionKey where
  account : AccountId
  senderCompId : String
  targetCompId : String
  deriving DecidableEq, Repr

namespace SessionKey

def order : SessionKey → SessionKey → Ordering :=
  compareLex (compareOn account) (compareLex (compareOn senderCompId) (compareOn targetCompId))

instance : Std.TransCmp order :=
  inferInstanceAs (Std.TransCmp
    (compareLex (compareOn account) (compareLex (compareOn senderCompId) (compareOn targetCompId))))

instance : Std.LawfulEqCmp order where
  eq_of_compare := by
    intro left right same
    cases left
    cases right
    simp only [order, compareLex, compareOn, Ordering.then_eq_eq, Std.LawfulEqCmp.compare_eq_iff_eq] at same
    simp [same]

end SessionKey

inductive ResetTrigger where
  | logonReset
  | sequenceReset
  deriving DecidableEq, Repr

structure SequenceResetEvent where
  atMs : Nat
  trigger : ResetTrigger
  oldNextSenderSeq : Nat
  oldNextTargetSeq : Nat
  newNextSenderSeq : Nat
  newNextTargetSeq : Nat
  deriving DecidableEq, Repr

/-- A retained outbound frame, with the length of its bytes. -/
structure StoredOutbound where
  seq : Nat
  frame : Frame
  size : Nat
  deriving DecidableEq

inductive SessionStoreError where
  | keyspaceFull (max : Nat)
  | backend (label : String)
  deriving DecidableEq, Repr

structure SessionCounters where
  nextSenderSeq : Nat
  nextTargetSeq : Nat
  deriving DecidableEq, Repr

def SessionCounters.default : SessionCounters := ⟨firstSeqNum, firstSeqNum⟩

structure Slot where
  counters : SessionCounters
  outbound : List StoredOutbound
  outboundBytes : Nat
  resets : List SequenceResetEvent
  deriving DecidableEq

namespace Slot

def default : Slot := ⟨.default, [], 0, []⟩

/-- Drops the oldest entries until both bounds hold. -/
def evict : List StoredOutbound → Nat → List StoredOutbound × Nat
  | [], bytes => ([], bytes)
  | oldest :: rest, bytes =>
    if maxStoredOutboundPerKey < (oldest :: rest).length ∨ maxStoredOutboundBytesPerKey < bytes then
      evict rest (bytes - oldest.size)
    else (oldest :: rest, bytes)

def pushOutbound (slot : Slot) (entry : StoredOutbound) : Slot :=
  let kept := evict (slot.outbound ++ [entry]) (slot.outboundBytes + entry.size)
  { slot with outbound := kept.1, outboundBytes := kept.2 }

/-- The audit is a ring: the oldest events go past the cap. -/
def recordReset (slot : Slot) (event : SequenceResetEvent) (counters : SessionCounters) : Slot :=
  let resets := slot.resets ++ [event]
  { slot with resets := resets.drop (resets.length - maxResetEventsPerKey), counters := counters }

end Slot

/-- One durable write of the store. -/
inductive StoreWrite where
  | counters (key : SessionKey) (counters : SessionCounters)
  | outbound (key : SessionKey) (entry : StoredOutbound) (nextSenderSeq : Nat)
  | reset (key : SessionKey) (event : SequenceResetEvent) (counters : SessionCounters)
  deriving DecidableEq

namespace StoreWrite

def key : StoreWrite → SessionKey
  | counters key _ | outbound key _ _ | reset key _ _ => key

def apply : StoreWrite → Slot → Slot
  | counters _ saved, slot => { slot with counters := saved }
  | outbound _ entry next, slot =>
    let pushed := slot.pushOutbound entry
    { pushed with counters := { pushed.counters with nextSenderSeq := next } }
  | reset _ event renewed, slot => slot.recordReset event renewed

/-- Whether every number of the write fits a `BIGINT` column. -/
def representable : StoreWrite → Bool
  | counters _ saved => saved.nextSenderSeq ≤ i64Max ∧ saved.nextTargetSeq ≤ i64Max
  | outbound _ entry next => entry.seq ≤ i64Max ∧ next ≤ i64Max
  | reset _ event renewed =>
    event.atMs ≤ i64Max ∧ event.oldNextSenderSeq ≤ i64Max ∧ event.oldNextTargetSeq ≤ i64Max ∧
      event.newNextSenderSeq ≤ i64Max ∧ event.newNextTargetSeq ≤ i64Max ∧
      renewed.nextSenderSeq ≤ i64Max ∧ renewed.nextTargetSeq ≤ i64Max

end StoreWrite

inductive Backend where
  | inMemory
  | postgres
  deriving DecidableEq, Repr

/-- A store with what its operations will meet: each operation of the PostgreSQL backend takes the next
outage, if there is one, and then applies nothing. `committed` lists the writes that took place, for the
statements about runs only. -/
structure FixSessionStore where
  backend : Backend
  slots : Std.ExtTreeMap SessionKey Slot SessionKey.order
  outages : List (Option String)
  committed : List StoreWrite

namespace FixSessionStore

def new (backend : Backend) : FixSessionStore := ⟨backend, ∅, [], []⟩

def slot (store : FixSessionStore) (key : SessionKey) : Slot := store.slots.getD key .default

/-- The verdict of the backend on the next operation. -/
def reach (store : FixSessionStore) : Except SessionStoreError Unit × FixSessionStore :=
  match store.backend, store.outages with
  | .postgres, some label :: rest => (.error (.backend label), { store with outages := rest })
  | .postgres, none :: rest => (.ok (), { store with outages := rest })
  | _, _ => (.ok (), store)

/-- What refuses a write: the width of the columns, then the ceiling on the key space for a new key. -/
def refusal (store : FixSessionStore) (write : StoreWrite) : Option SessionStoreError :=
  if store.backend = .postgres ∧ ¬ write.representable then some (.backend "fix session value out of range")
  else if write.key ∉ store.slots ∧ maxSessionKeys ≤ store.slots.size then some (.keyspaceFull maxSessionKeys)
  else none

/-- One write, applied whole or not at all. -/
def withSlotMut (store : FixSessionStore) (write : StoreWrite) : Except SessionStoreError Unit × FixSessionStore :=
  match store.reach with
  | (.error error, store) => (.error error, store)
  | (.ok (), store) =>
    match store.refusal write with
    | some error => (.error error, store)
    | none => (.ok (), { store with
        slots := store.slots.insert write.key (write.apply (store.slot write.key))
        committed := store.committed ++ [write] })

def loadCounters (store : FixSessionStore) (key : SessionKey) : Except SessionStoreError SessionCounters × FixSessionStore :=
  match store.reach with
  | (.error error, store) => (.error error, store)
  | (.ok (), store) => (.ok (store.slot key).counters, store)

def saveCounters (store : FixSessionStore) (key : SessionKey) (counters : SessionCounters) :=
  store.withSlotMut (.counters key counters)

def storeOutboundAndAdvance (store : FixSessionStore) (key : SessionKey) (entry : StoredOutbound)
    (nextSenderSeq : Nat) :=
  store.withSlotMut (.outbound key entry nextSenderSeq)

def recordReset (store : FixSessionStore) (key : SessionKey) (event : SequenceResetEvent)
    (counters : SessionCounters) :=
  store.withSlotMut (.reset key event counters)

/-- The retained frames of a range, ascending; an `end` of zero means to the latest. -/
def outboundRange (store : FixSessionStore) (key : SessionKey) (first last : Nat) :
    Except SessionStoreError (List StoredOutbound) × FixSessionStore :=
  match store.reach with
  | (.error error, store) => (.error error, store)
  | (.ok (), store) =>
    let range := (store.slot key).outbound.filter fun entry => first ≤ entry.seq ∧ (last = 0 ∨ entry.seq ≤ last)
    (.ok (range.mergeSort fun left right => left.seq ≤ right.seq), store)

section Laws
variable {store : FixSessionStore} {key : SessionKey} {write : StoreWrite}

theorem reach_frame : store.reach.2.slots = store.slots ∧ store.reach.2.committed = store.committed ∧
    store.reach.2.backend = store.backend := by
  unfold reach
  split <;> exact ⟨rfl, rfl, rfl⟩

theorem slot_new (backend : Backend) : (new backend).slot key = .default := by
  simp [slot, new]

theorem reach_slot : store.reach.2.slot key = store.slot key := by
  unfold slot
  rw [reach_frame.1]

theorem withSlotMut_error {error : SessionStoreError} (failed : (store.withSlotMut write).1 = .error error) :
    (store.withSlotMut write).2.slots = store.slots ∧ (store.withSlotMut write).2.committed = store.committed := by
  unfold withSlotMut at failed ⊢
  have frame := @reach_frame store
  revert failed frame
  rcases store.reach with ⟨_ | _, reached⟩
  · exact fun _ frame => ⟨frame.1, frame.2.1⟩
  · dsimp only
    cases reached.refusal write with
    | some _ => exact fun _ frame => ⟨frame.1, frame.2.1⟩
    | none => nofun

theorem withSlotMut_ok (done : (store.withSlotMut write).1 = .ok ()) :
    (store.withSlotMut write).2.slots = store.slots.insert write.key (write.apply (store.slot write.key)) ∧
      (store.withSlotMut write).2.committed = store.committed ++ [write] := by
  unfold withSlotMut at done ⊢
  have frame := @reach_frame store
  have same := @reach_slot store write.key
  revert done frame same
  rcases store.reach with ⟨_ | _, reached⟩
  · nofun
  · dsimp only
    cases reached.refusal write with
    | some _ => nofun
    | none =>
      intro _ frame same
      dsimp only at frame same ⊢
      rw [same, frame.1, frame.2.1]
      exact ⟨rfl, rfl⟩

theorem withSlotMut_cases :
    ((store.withSlotMut write).1 = .ok () ∧
      (store.withSlotMut write).2.slots = store.slots.insert write.key (write.apply (store.slot write.key)) ∧
      (store.withSlotMut write).2.committed = store.committed ++ [write]) ∨
    (∃ error, (store.withSlotMut write).1 = .error error) ∧
      (store.withSlotMut write).2.slots = store.slots ∧ (store.withSlotMut write).2.committed = store.committed := by
  cases result : (store.withSlotMut write).1 with
  | ok done => exact Or.inl ⟨rfl, withSlotMut_ok result⟩
  | error error => exact Or.inr ⟨⟨error, rfl⟩, withSlotMut_error result⟩

/-- A write leaves the slot of every other key alone. -/
theorem slot_insert (slots : Std.ExtTreeMap SessionKey Slot SessionKey.order) (other : SessionKey) (slot : Slot) :
    (slots.insert other slot).getD key .default = if other = key then slot else slots.getD key .default := by
  rw [Std.ExtTreeMap.getD_insert]
  simp only [Std.LawfulEqCmp.compare_eq_iff_eq]

end Laws

end FixSessionStore

end Fauxchange.Fix
