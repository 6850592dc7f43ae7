import Fauxchange.Exchange.Envelope
import Fauxchange.Lib.MapSum
import Mathlib.Data.String.Basic

/-! The ingress-reorder buffer of one underlying: held commands in the order of their release keys, with a
capacity and a quota for each session. -/

namespace Fauxchange.Microstructure
open Exchange Lib

def maxIngressOffsetUs : Nat := 3600000000

structure ReleaseKey where
  deadlineUs : Nat
  sessionId : String
  arrivalSequence : Nat
  deriving DecidableEq, Repr

namespace ReleaseKey

def order : ReleaseKey → ReleaseKey → Ordering :=
  compareLex (compareOn deadlineUs) (compareLex (compareOn sessionId) (compareOn arrivalSequence))

instance : Std.TransCmp order :=
  inferInstanceAs (Std.TransCmp
    (compareLex (compareOn deadlineUs) (compareLex (compareOn sessionId) (compareOn arrivalSequence))))

instance : Std.LawfulEqCmp order where
  eq_of_compare := by
    intro left right same
    cases left
    cases right
    simp only [order, compareLex, compareOn, Ordering.then_eq_eq, Std.LawfulEqCmp.compare_eq_iff_eq] at same
    simp [same]

/-- One key releases before another. -/
def Before (left right : ReleaseKey) : Prop := order left right = .lt

instance (left right : ReleaseKey) : Decidable (Before left right) := inferInstanceAs (Decidable (_ = _))

theorem before_iff {left right : ReleaseKey} :
    Before left right ↔ left.deadlineUs < right.deadlineUs ∨
      left.deadlineUs = right.deadlineUs ∧ (left.sessionId < right.sessionId ∨
        left.sessionId = right.sessionId ∧ left.arrivalSequence < right.arrivalSequence) := by
  simp only [Before, order, compareLex, compareOn, Ordering.then_eq_lt, Std.LawfulEqCmp.compare_eq_iff_eq,
    compare_lt_iff_lt]

theorem Before.trans {first second third : ReleaseKey} (left : Before first second) (right : Before second third) :
    Before first third :=
  Std.TransCmp.lt_trans left right

theorem Before.asymm (left right : ReleaseKey) (before : Before left right) : ¬ Before right left := by
  rw [before_iff] at before ⊢
  intro after
  have strict : ¬ right.sessionId < right.sessionId := lt_irrefl _
  cases before with
  | inl earlier => omega
  | inr tied =>
    cases after with
    | inl earlier => omega
    | inr tiedBack =>
      cases tied.2 with
      | inl below =>
        cases tiedBack.2 with
        | inl above => exact absurd (below.trans above) (lt_irrefl _)
        | inr same => exact strict (same.1 ▸ below)
      | inr same =>
        cases tiedBack.2 with
        | inl above => exact strict (same.1 ▸ above)
        | inr sameBack => omega

/-- The least key at an instant: the empty session id and the first arrival. -/
def boundary (nowUs : Nat) : ReleaseKey := ⟨nowUs, "", 0⟩

theorem before_boundary {key : ReleaseKey} {nowUs : Nat} : Before key (boundary nowUs) ↔ key.deadlineUs < nowUs := by
  have least : ¬ key.sessionId < "" := List.not_lt_nil key.sessionId.toList
  simp [before_iff, boundary, least]

end ReleaseKey

/-- The deadline of a command that arrives at a venue instant with a drawn offset. -/
def releaseDeadlineUs (nowMs offset : Nat) : Option Nat :=
  let offsetUs := min offset maxIngressOffsetUs
  if nowMs * 1000 ≤ u64Max ∧ nowMs * 1000 + offsetUs ≤ u64Max then some (nowMs * 1000 + offsetUs) else none

/-- The venue instant in microseconds, clamped to the 64-bit range. -/
def ingressNowUs (nowMs : Nat) : Nat := if nowMs * 1000 ≤ u64Max then nowMs * 1000 else u64Max

theorem releaseDeadlineUs_eq_some {nowMs offset deadline : Nat} (computed : releaseDeadlineUs nowMs offset = some deadline) :
    ingressNowUs nowMs = nowMs * 1000 ∧ nowMs * 1000 ≤ deadline ∧ deadline ≤ nowMs * 1000 + maxIngressOffsetUs := by
  simp only [releaseDeadlineUs] at computed
  split at computed
  next fits =>
    cases computed
    exact ⟨if_pos fits.1, Nat.le_add_right _ _, Nat.add_le_add_left (Nat.min_le_right _ _) _⟩
  next => cases computed

inductive IngressBufferFull where
  | full
  deriving DecidableEq, Repr

/-- The buffer of one underlying; `usize` is 64 bits wide. -/
structure IngressReorderBuffer (T : Type) where
  pending : Std.ExtTreeMap ReleaseKey T ReleaseKey.order
  capacity : UInt64
  perSession : Std.ExtTreeMap String Nat
  maxPerSession : UInt64

namespace IngressReorderBuffer
variable {T : Type}

/-- The capacity is at least one; the quota is at least one and at most half the capacity. -/
def withCeilings (capacity maxPerSession : UInt64) : IngressReorderBuffer T :=
  let capacity := max capacity 1
  let fairnessCeiling := max (capacity / 2) 1
  ⟨∅, capacity, ∅, min (max maxPerSession 1) fairnessCeiling⟩

/-- A replaced entry is neither bounded nor counted: it adds no occupancy. -/
def insert (buffer : IngressReorderBuffer T) (key : ReleaseKey) (payload : T) :
    Except IngressBufferFull (IngressReorderBuffer T) :=
  let isNewKey := !buffer.pending.contains key
  let count := buffer.perSession.getD key.sessionId 0
  if isNewKey ∧ buffer.capacity.toNat ≤ buffer.pending.size then .error .full
  else if isNewKey ∧ buffer.maxPerSession.toNat ≤ count then .error .full
  else .ok { buffer with
    pending := buffer.pending.insert key payload
    perSession :=
      if isNewKey then buffer.perSession.insert key.sessionId ((checkedNext count).getD count)
      else buffer.perSession }

/-- The lockstep decrement of a drained entry's session; a count of zero is left alone. -/
def discount (perSession : Std.ExtTreeMap String Nat) (key : ReleaseKey) : Std.ExtTreeMap String Nat :=
  match perSession[key.sessionId]? with
  | some (count + 1) => perSession.insert key.sessionId count
  | _ => perSession

/-- Takes out every entry whose deadline lies strictly before the instant, in key order. -/
def drainBelow (buffer : IngressReorderBuffer T) (nowUs : Nat) :
    IngressReorderBuffer T × List (ReleaseKey × T) :=
  let split := splitOff buffer.pending (.boundary nowUs)
  let due := split.1.toList
  let perSession := (due.foldl (fun perSession entry => discount perSession entry.1) buffer.perSession).filter
    fun _ count => count != 0
  ({ buffer with pending := split.2, perSession }, due)

/-- The entries that a session holds. -/
def heldBy (buffer : IngressReorderBuffer T) (session : String) : Nat :=
  buffer.pending.toList.countP fun entry => entry.1.sessionId = session

/-- The counts are the occupancy, and the occupancy is within its bounds. -/
structure Sound (buffer : IngressReorderBuffer T) : Prop where
  counted : ∀ session, buffer.perSession.getD session 0 = buffer.heldBy session
  quota : ∀ session, buffer.heldBy session ≤ buffer.maxPerSession.toNat
  room : buffer.pending.size ≤ buffer.capacity.toNat

theorem sound_withCeilings (capacity maxPerSession : UInt64) :
    Sound (withCeilings capacity maxPerSession : IngressReorderBuffer T) := by
  have none : (∅ : Std.ExtTreeMap ReleaseKey T ReleaseKey.order).toList = [] := Std.ExtTreeMap.toList_eq_nil_iff.2 rfl
  have empty (session : String) : (withCeilings capacity maxPerSession : IngressReorderBuffer T).heldBy session = 0 := by
    simp only [heldBy, withCeilings, none, List.countP_nil]
  refine ⟨fun session => ?_, fun session => ?_, Nat.zero_le _⟩
  · rw [empty]
    exact Std.ExtTreeMap.getD_empty
  · rw [empty]
    exact Nat.zero_le _

theorem sorted (buffer : IngressReorderBuffer T) :
    buffer.pending.toList.Pairwise fun left right => ReleaseKey.Before left.1 right.1 :=
  Std.ExtTreeMap.ordered_keys_toList

section Insert
variable {buffer next : IngressReorderBuffer T} {key : ReleaseKey} {payload : T}

/-- What an accepted entry finds: its key is held already, or it is new and there is room for it. -/
theorem insert_cases (held : buffer.insert key payload = .ok next) :
    next.pending = buffer.pending.insert key payload ∧ next.capacity = buffer.capacity ∧
      next.maxPerSession = buffer.maxPerSession ∧
      ((∃ old, buffer.pending[key]? = some old) ∧ next.perSession = buffer.perSession ∨
        buffer.pending[key]? = none ∧ buffer.pending.size < buffer.capacity.toNat ∧
          buffer.perSession.getD key.sessionId 0 < buffer.maxPerSession.toNat ∧
          next.perSession = buffer.perSession.insert key.sessionId (buffer.perSession.getD key.sessionId 0 + 1)) := by
  unfold insert at held
  simp only [Bool.not_eq_true'] at held
  split at held
  next => cases held
  next roomy =>
    split at held
    next => cases held
    next fair =>
      cases held
      refine ⟨rfl, rfl, rfl, ?_⟩
      cases present : buffer.pending.contains key with
      | true =>
        left
        have found := Std.ExtTreeMap.contains_eq_isSome_getElem?.symm.trans present
        exact ⟨Option.isSome_iff_exists.1 found, by simp⟩
      | false =>
        right
        have absent := Std.ExtTreeMap.contains_eq_isSome_getElem?.symm.trans present
        simp only [present, true_and, not_le] at roomy fair
        have word : buffer.perSession.getD key.sessionId 0 < u64Max := by
          have bound := buffer.maxPerSession.toNat_lt
          simp only [u64Max]
          omega
        refine ⟨Option.not_isSome_iff_eq_none.1 (by simp [absent]), roomy, fair, ?_⟩
        simp [checkedNext, word]

theorem insert_perm (held : buffer.insert key payload = .ok next) (absent : buffer.pending[key]? = none) :
    next.pending.toList.Perm ((key, payload) :: buffer.pending.toList) := by
  rw [(insert_cases held).1]
  exact toList_insert_perm payload absent

theorem Sound.insert (sound : Sound buffer) (held : buffer.insert key payload = .ok next) : Sound next := by
  obtain ⟨pending, capacity, quota, found | ⟨absent, roomy, fair, counts⟩⟩ := insert_cases held
  · obtain ⟨⟨old, present⟩, counts⟩ := found
    obtain ⟨others, before, after⟩ := toList_insert_perm_of_present payload present
    have same (session : String) : next.heldBy session = buffer.heldBy session := by
      rw [heldBy, heldBy, pending, after.countP_eq, before.countP_eq, List.countP_cons, List.countP_cons]
    refine ⟨fun session => ?_, fun session => ?_, ?_⟩
    · rw [same, counts, sound.counted]
    · rw [same, quota]
      exact sound.quota session
    · rw [← Std.ExtTreeMap.length_toList, pending, after.length_eq, capacity]
      change ((key, old) :: others).length ≤ buffer.capacity.toNat
      rw [← before.length_eq, Std.ExtTreeMap.length_toList]
      exact sound.room
  · have perm := insert_perm held absent
    have grown (session : String) :
        next.heldBy session = buffer.heldBy session + if key.sessionId = session then 1 else 0 := by
      rw [heldBy, perm.countP_eq, List.countP_cons, heldBy]
      simp
    refine ⟨fun session => ?_, fun session => ?_, ?_⟩
    · rw [grown, counts, Std.ExtTreeMap.getD_insert, ← sound.counted session]
      by_cases same : key.sessionId = session <;> simp [same]
    · rw [grown, quota]
      by_cases same : key.sessionId = session
      · rw [if_pos same, ← same, ← sound.counted]
        exact fair
      · rw [if_neg same]
        exact sound.quota session
    · rw [← Std.ExtTreeMap.length_toList, perm.length_eq, capacity, List.length_cons, Std.ExtTreeMap.length_toList]
      exact roomy

end Insert

section Drain
variable (buffer : IngressReorderBuffer T) (nowUs : Nat)

theorem getD_discount (perSession : Std.ExtTreeMap String Nat) (key : ReleaseKey) (session : String) :
    (discount perSession key).getD session 0 = perSession.getD session 0 - if key.sessionId = session then 1 else 0 := by
  unfold discount
  by_cases same : key.sessionId = session
  · subst same
    rw [if_pos rfl]
    cases count : perSession[key.sessionId]? with
    | none => simp [Std.ExtTreeMap.getD_eq_getD_getElem?, count]
    | some count' =>
      cases count' with
      | zero => simp [Std.ExtTreeMap.getD_eq_getD_getElem?, count]
      | succ rest => simp [Std.ExtTreeMap.getD_eq_getD_getElem?, count]
  · rw [if_neg same, Nat.sub_zero]
    split
    next => rw [Std.ExtTreeMap.getD_insert, if_neg (by simpa using same)]
    next => rfl

theorem getD_foldl_discount (due : List (ReleaseKey × T)) (perSession : Std.ExtTreeMap String Nat) (session : String) :
    (due.foldl (fun perSession entry => discount perSession entry.1) perSession).getD session 0 =
      perSession.getD session 0 - due.countP fun entry => entry.1.sessionId = session := by
  induction due generalizing perSession with
  | nil => rfl
  | cons entry rest ih =>
    rw [List.foldl_cons, ih, getD_discount, List.countP_cons]
    simp only [decide_eq_true_eq]
    omega

theorem getD_retain (perSession : Std.ExtTreeMap String Nat) (session : String) :
    (perSession.filter fun _ count => count != 0).getD session 0 = perSession.getD session 0 := by
  rw [Std.ExtTreeMap.getD_eq_getD_getElem?, Std.ExtTreeMap.getD_eq_getD_getElem?, Std.ExtTreeMap.getElem?_filter']
  cases perSession[session]? with
  | none => rfl
  | some count =>
    by_cases zero : count = 0 <;> simp [Option.filter, zero]

/-- A batch and what is left are what was held, in its order. -/
theorem drainBelow_toList :
    (buffer.drainBelow nowUs).2 ++ (buffer.drainBelow nowUs).1.pending.toList = buffer.pending.toList :=
  splitOff_toList buffer.pending (.boundary nowUs)

theorem mem_drainBelow {entry : ReleaseKey × T} :
    entry ∈ (buffer.drainBelow nowUs).2 ↔ entry ∈ buffer.pending.toList ∧ entry.1.deadlineUs < nowUs := by
  rw [← ReleaseKey.before_boundary]
  exact mem_splitOff_below

theorem Sound.drainBelow {buffer : IngressReorderBuffer T} (sound : Sound buffer) (nowUs : Nat) :
    Sound (buffer.drainBelow nowUs).1 := by
  have split (session : String) :
      ((buffer.drainBelow nowUs).2.countP fun entry => entry.1.sessionId = session) +
        (buffer.drainBelow nowUs).1.heldBy session = buffer.heldBy session := by
    rw [heldBy, heldBy, ← List.countP_append, drainBelow_toList]
  refine ⟨fun session => ?_, fun session => ?_, ?_⟩
  · have counts : (buffer.drainBelow nowUs).1.perSession.getD session 0 =
        buffer.perSession.getD session 0 - (buffer.drainBelow nowUs).2.countP fun entry => entry.1.sessionId = session :=
      (getD_retain _ session).trans (getD_foldl_discount _ _ session)
    have whole := split session
    rw [counts, sound.counted]
    omega
  · have whole := split session
    have bound := sound.quota session
    change (buffer.drainBelow nowUs).1.heldBy session ≤ buffer.maxPerSession.toNat
    omega
  · have whole := congrArg List.length (buffer.drainBelow_toList nowUs)
    have bound := sound.room
    rw [List.length_append, Std.ExtTreeMap.length_toList, Std.ExtTreeMap.length_toList] at whole
    change (buffer.drainBelow nowUs).1.pending.size ≤ buffer.capacity.toNat
    omega

end Drain

end IngressReorderBuffer

end Fauxchange.Microstructure
