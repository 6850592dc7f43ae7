import Fauxchange.Microstructure.Ingress
import Mathlib.Data.List.Nodup
import Mathlib.Data.List.Perm.Basic

/-! Runs of one ingress buffer: serialised admissions and drains under a venue clock that never goes back. -/

namespace Fauxchange.Microstructure
open Exchange Lib

/-- A buffered command with the reply channel of its caller, which tells the submissions apart. -/
structure PendingIngress (C : Type) where
  command : C
  reply : Nat
  deriving DecidableEq, Repr

/-- What an admission leaves behind: its key, its payload and the venue instant it read. -/
structure Accepted (C : Type) where
  key : ReleaseKey
  pending : PendingIngress C
  admittedMs : Nat
  deriving DecidableEq, Repr

abbrev Accepted.entry {C : Type} (accepted : Accepted C) : ReleaseKey × PendingIngress C :=
  (accepted.key, accepted.pending)

/-- The buffer, the venue-wide arrival counter, and the history of the submissions. -/
structure IngressWorld (C : Type) where
  buffer : IngressReorderBuffer (PendingIngress C)
  arrivalCounter : Nat
  replies : Nat
  accepted : List (Accepted C)
  refused : List (PendingIngress C)
  drained : List (ReleaseKey × PendingIngress C)

/-- An admission, an arrival that another underlying draws from the shared counter, or a drain. -/
inductive IngressEvent (C : Type) where
  | admission (nowMs offset : Nat) (session : String) (command : C)
  | elsewhere
  | drain (nowUs : Nat)
  deriving DecidableEq, Repr

/-- The venue instant that an event reads. -/
def IngressEvent.instant? {C : Type} : IngressEvent C → Option Nat
  | .admission nowMs _ _ _ => some (ingressNowUs nowMs)
  | .elsewhere => none
  | .drain nowUs => some nowUs

/-- The venue clock never goes back. -/
def Timed {C : Type} (events : List (IngressEvent C)) : Prop :=
  (events.filterMap IngressEvent.instant?).Pairwise (· ≤ ·)

instance {C : Type} (events : List (IngressEvent C)) : Decidable (Timed events) :=
  inferInstanceAs (Decidable (List.Pairwise _ _))

namespace IngressWorld
variable {C : Type}

def start (capacity maxPerSession : UInt64) : IngressWorld C := ⟨.withCeilings capacity maxPerSession, 0, 0, [], [], []⟩

def held (world : IngressWorld C) : List (ReleaseKey × PendingIngress C) := world.buffer.pending.toList

def refuse (world : IngressWorld C) (command : C) : IngressWorld C :=
  { world with replies := world.replies + 1, refused := world.refused ++ [⟨command, world.replies⟩] }

/-- The deadline, the next arrival sequence, and the insertion; each may refuse the command. -/
def submitReordered (world : IngressWorld C) (nowMs offset : Nat) (session : String) (command : C) : IngressWorld C :=
  match releaseDeadlineUs nowMs offset with
  | none => world.refuse command
  | some deadlineUs =>
    match checkedNext world.arrivalCounter with
    | none => world.refuse command
    | some counter =>
      let key : ReleaseKey := ⟨deadlineUs, session, world.arrivalCounter⟩
      match world.buffer.insert key ⟨command, world.replies⟩ with
      | .error _ => { world.refuse command with arrivalCounter := counter }
      | .ok buffer =>
        { world with
          buffer, arrivalCounter := counter, replies := world.replies + 1
          accepted := world.accepted ++ [⟨key, ⟨command, world.replies⟩, nowMs⟩] }

def drain (world : IngressWorld C) (nowUs : Nat) : IngressWorld C :=
  let released := world.buffer.drainBelow nowUs
  { world with buffer := released.1, drained := world.drained ++ released.2 }

def step (world : IngressWorld C) : IngressEvent C → IngressWorld C
  | .admission nowMs offset session command => world.submitReordered nowMs offset session command
  | .elsewhere => { world with arrivalCounter := (checkedNext world.arrivalCounter).getD world.arrivalCounter }
  | .drain nowUs => world.drain nowUs

def run (world : IngressWorld C) (events : List (IngressEvent C)) : IngressWorld C := events.foldl step world

/-- An admission refuses, and moves nothing but the arrival counter, or it holds the command under a new key. -/
theorem submitReordered_cases (world : IngressWorld C) (nowMs offset : Nat) (session : String) (command : C) :
    (∃ counter, world.arrivalCounter ≤ counter ∧
        world.submitReordered nowMs offset session command = { world.refuse command with arrivalCounter := counter }) ∨
      ∃ deadlineUs buffer, releaseDeadlineUs nowMs offset = some deadlineUs ∧
        world.buffer.insert ⟨deadlineUs, session, world.arrivalCounter⟩ ⟨command, world.replies⟩ = .ok buffer ∧
        world.submitReordered nowMs offset session command =
          { world with
            buffer, arrivalCounter := world.arrivalCounter + 1, replies := world.replies + 1
            accepted := world.accepted ++
              [⟨⟨deadlineUs, session, world.arrivalCounter⟩, ⟨command, world.replies⟩, nowMs⟩] } := by
  unfold submitReordered
  cases computed : releaseDeadlineUs nowMs offset with
  | none => exact Or.inl ⟨world.arrivalCounter, le_rfl, rfl⟩
  | some deadlineUs =>
    cases minted : checkedNext world.arrivalCounter with
    | none => exact Or.inl ⟨world.arrivalCounter, le_rfl, rfl⟩
    | some counter =>
      obtain ⟨-, rfl⟩ := checkedNext_eq_some.1 minted
      cases inserted : world.buffer.insert ⟨deadlineUs, session, world.arrivalCounter⟩ ⟨command, world.replies⟩ with
      | error _ =>
        left
        refine ⟨world.arrivalCounter + 1, Nat.le_succ _, ?_⟩
        simp only [inserted]
      | ok buffer =>
        right
        refine ⟨deadlineUs, buffer, rfl, inserted, ?_⟩
        simp only [inserted]

/-- What holds of the history up to an instant. -/
structure Kept (world : IngressWorld C) (instantUs : Nat) : Prop where
  sound : world.buffer.Sound
  once : (world.drained ++ world.held).Perm (world.accepted.map Accepted.entry)
  sorted : (world.drained ++ world.held).Pairwise fun left right => ReleaseKey.Before left.1 right.1
  past : ∀ entry ∈ world.drained, entry.1.deadlineUs < instantUs
  arrivals : world.accepted.Pairwise fun earlier later => earlier.key.arrivalSequence < later.key.arrivalSequence
  counted : ∀ entry ∈ world.accepted, entry.key.arrivalSequence < world.arrivalCounter
  tickets : (world.accepted.map (·.pending.reply) ++ world.refused.map (·.reply)).Perm (List.range world.replies)
  horizon : ∀ entry ∈ world.accepted, entry.key.deadlineUs ≤ entry.admittedMs * 1000 + maxIngressOffsetUs

theorem kept_start (capacity maxPerSession : UInt64) : Kept (start capacity maxPerSession : IngressWorld C) 0 := by
  have none : (start capacity maxPerSession : IngressWorld C).drained ++ (start capacity maxPerSession).held = [] := by
    change (∅ : Std.ExtTreeMap ReleaseKey (PendingIngress C) ReleaseKey.order).toList = []
    exact Std.ExtTreeMap.toList_eq_nil_iff.2 rfl
  refine ⟨IngressReorderBuffer.sound_withCeilings _ _, ?_, ?_, ?_, ?_, ?_, ?_, ?_⟩
  · rw [none]
    exact .nil
  · rw [none]
    exact .nil
  all_goals simp [start]

namespace Kept
variable {world : IngressWorld C} {instantUs : Nat}

theorem later (kept : Kept world instantUs) {laterUs : Nat} (forward : instantUs ≤ laterUs) : Kept world laterUs :=
  { kept with past := fun entry member => Nat.lt_of_lt_of_le (kept.past entry member) forward }

theorem counter (kept : Kept world instantUs) {counter : Nat} (forward : world.arrivalCounter ≤ counter) :
    Kept { world with arrivalCounter := counter } instantUs :=
  { kept with counted := fun entry member => Nat.lt_of_lt_of_le (kept.counted entry member) forward }

theorem refuse (kept : Kept world instantUs) (command : C) : Kept (world.refuse command) instantUs := by
  refine { kept with tickets := ?_ }
  rw [IngressWorld.refuse, List.map_append, ← List.append_assoc, List.range_succ]
  exact kept.tickets.append_right _

/-- A new key is not held: its arrival sequence has not been given out before. -/
theorem absent (kept : Kept world instantUs) (deadlineUs : Nat) (session : String) :
    world.buffer.pending[(⟨deadlineUs, session, world.arrivalCounter⟩ : ReleaseKey)]? = none := by
  cases found : world.buffer.pending[(⟨deadlineUs, session, world.arrivalCounter⟩ : ReleaseKey)]? with
  | none => rfl
  | some pending =>
    have listed := Std.ExtTreeMap.mem_toList_iff_getElem?_eq_some.2 found
    have member := kept.once.subset (List.mem_append_right _ listed)
    obtain ⟨entry, accepted, same⟩ := List.mem_map.1 member
    have below := kept.counted entry accepted
    rw [(Prod.mk.inj same).1] at below
    exact absurd below (lt_irrefl _)

theorem submitReordered (kept : Kept world instantUs) {nowMs : Nat} (forward : instantUs ≤ ingressNowUs nowMs)
    (offset : Nat) (session : String) (command : C) :
    Kept (world.submitReordered nowMs offset session command) (ingressNowUs nowMs) := by
  obtain ⟨counter, advanced, same⟩ | ⟨deadlineUs, buffer, computed, inserted, same⟩ :=
    world.submitReordered_cases nowMs offset session command
  · rw [same]
    exact ((kept.later forward).refuse command).counter advanced
  · rw [same]
    obtain ⟨unclamped, notEarly, notLate⟩ := releaseDeadlineUs_eq_some computed
    have perm := IngressReorderBuffer.insert_perm inserted (kept.absent deadlineUs session)
    refine ⟨kept.sound.insert inserted, ?_, ?_, (kept.later forward).past, ?_, ?_, ?_, ?_⟩
    · rw [List.map_append]
      exact (perm.append_left world.drained).trans (List.perm_middle.trans
        ((kept.once.cons _).trans (List.perm_append_singleton _ _).symm))
    · rw [List.pairwise_append]
      obtain ⟨drained, -, apart⟩ := List.pairwise_append.1 kept.sorted
      refine ⟨drained, buffer.sorted, fun left released right member => ?_⟩
      cases List.mem_cons.1 (perm.subset member) with
      | inl new =>
        -- the clock has passed what is drained, and the new deadline lies at the clock or after it
        have passed := kept.past left released
        refine ReleaseKey.before_iff.2 (Or.inl ?_)
        rw [new]
        change left.1.deadlineUs < deadlineUs
        omega
      | inr old => exact apart left released right old
    · rw [List.pairwise_append]
      refine ⟨kept.arrivals, List.pairwise_singleton _ _, fun earlier member new here => ?_⟩
      rw [List.mem_singleton.1 here]
      exact kept.counted earlier member
    · intro entry member
      cases List.mem_append.1 member with
      | inl old => exact Nat.lt_succ_of_lt (kept.counted entry old)
      | inr new =>
        rw [List.mem_singleton.1 new]
        exact Nat.lt_succ_self _
    · rw [List.map_append, List.range_succ, List.append_assoc]
      refine (List.Perm.append_left _ List.perm_append_comm).trans ?_
      rw [← List.append_assoc]
      exact kept.tickets.append_right _
    · intro entry member
      cases List.mem_append.1 member with
      | inl old => exact kept.horizon entry old
      | inr new =>
        rw [List.mem_singleton.1 new]
        exact notLate

theorem drain (kept : Kept world instantUs) {nowUs : Nat} (forward : instantUs ≤ nowUs) :
    Kept (world.drain nowUs) nowUs := by
  have whole : (world.drain nowUs).drained ++ (world.drain nowUs).held = world.drained ++ world.held := by
    change (world.drained ++ (world.buffer.drainBelow nowUs).2) ++ (world.buffer.drainBelow nowUs).1.pending.toList = _
    rw [List.append_assoc, IngressReorderBuffer.drainBelow_toList]
    rfl
  refine { kept with sound := kept.sound.drainBelow nowUs, once := ?_, sorted := ?_, past := ?_ }
  · rw [whole]
    exact kept.once
  · rw [whole]
    exact kept.sorted
  · intro entry member
    cases List.mem_append.1 member with
    | inl old => exact (kept.later forward).past entry old
    | inr due => exact ((IngressReorderBuffer.mem_drainBelow _ _).1 due).2

end Kept

/-- Every event keeps the history in order, at the instant it reads. -/
theorem Kept.step {world : IngressWorld C} {instantUs : Nat} (kept : Kept world instantUs) (event : IngressEvent C)
    (forward : ∀ nowUs, event.instant? = some nowUs → instantUs ≤ nowUs) :
    Kept (world.step event) (event.instant?.getD instantUs) := by
  cases event with
  | admission nowMs offset session command =>
    exact kept.submitReordered (forward _ rfl) offset session command
  | elsewhere =>
    refine kept.counter ?_
    cases minted : checkedNext world.arrivalCounter with
    | none => exact le_rfl
    | some counter =>
      obtain ⟨-, rfl⟩ := checkedNext_eq_some.1 minted
      exact Nat.le_succ _
  | drain nowUs => exact kept.drain (forward _ rfl)

theorem Kept.run {world : IngressWorld C} {instantUs : Nat} (kept : Kept world instantUs)
    {events : List (IngressEvent C)} (timed : Timed events)
    (forward : ∀ nowUs ∈ events.filterMap IngressEvent.instant?, instantUs ≤ nowUs) :
    ∃ lastUs, Kept (world.run events) lastUs := by
  induction events generalizing world instantUs with
  | nil => exact ⟨instantUs, kept⟩
  | cons event rest ih =>
    simp only [Timed, List.filterMap_cons] at timed forward
    have next := kept.step event fun nowUs read => by
      rw [read] at forward
      exact forward nowUs (by simp)
    refine ih next ?_ ?_
    · cases read : event.instant? with
      | none =>
        rw [read] at timed
        exact timed
      | some nowUs =>
        rw [read] at timed
        exact (List.pairwise_cons.1 timed).2
    · intro laterUs member
      cases read : event.instant? with
      | none =>
        rw [read] at forward
        exact forward laterUs member
      | some nowUs =>
        rw [read] at timed
        exact (List.pairwise_cons.1 timed).1 laterUs member

/-- The release contract of a buffer: what was accepted is drained or held, and what is drained came out in the
order of the release keys, before anything with a later key. -/
structure Reordered (world : IngressWorld C) : Prop where
  /-- Each submission is accepted or refused, once. -/
  tickets : (world.accepted.map (·.pending.reply) ++ world.refused.map (·.reply)).Perm (List.range world.replies)
  /-- What has been drained and what is held are the accepted commands, each once. -/
  once : (world.drained ++ world.held).Perm (world.accepted.map Accepted.entry)
  refusedStay : ∀ pending ∈ world.refused, ∀ entry ∈ world.drained, entry.2.reply ≠ pending.reply
  increasing : world.drained.Pairwise fun left right => ReleaseKey.Before left.1 right.1
  notOvertaken : ∀ entry ∈ world.accepted, ∀ released ∈ world.drained, ReleaseKey.Before entry.key released.1 →
    [entry.entry, released].Sublist world.drained
  arrivalOrder : ∀ earlier later, [earlier, later].Sublist world.accepted →
    earlier.key.sessionId = later.key.sessionId → earlier.key.deadlineUs ≤ later.key.deadlineUs →
    later.entry ∈ world.drained → [earlier.entry, later.entry].Sublist world.drained
  /-- A drain past the largest offset releases the command. -/
  horizon : ∀ entry ∈ world.accepted, ∀ nowUs, entry.admittedMs * 1000 + maxIngressOffsetUs < nowUs →
    entry.entry ∈ (world.step (.drain nowUs)).drained
  counted : ∀ session, world.buffer.perSession.getD session 0 = world.buffer.heldBy session
  quota : ∀ session, world.buffer.heldBy session ≤ world.buffer.maxPerSession.toNat
  room : world.held.length ≤ world.buffer.capacity.toNat

namespace Kept
variable {world : IngressWorld C} {instantUs : Nat}

theorem refusedStay (kept : Kept world instantUs) {pending : PendingIngress C} (refused : pending ∈ world.refused)
    {entry : ReleaseKey × PendingIngress C} (drained : entry ∈ world.drained) : entry.2.reply ≠ pending.reply := by
  have distinct := kept.tickets.nodup_iff.2 List.nodup_range
  obtain ⟨accepted, member, same⟩ := List.mem_map.1 (kept.once.subset (List.mem_append_left _ drained))
  have apart := (List.nodup_append.1 distinct).2.2 _ (List.mem_map_of_mem member) _ (List.mem_map_of_mem refused)
  rw [← same]
  exact apart

/-- What has an earlier key than a drained entry was drained before it. -/
theorem notOvertaken (kept : Kept world instantUs) {entry : Accepted C} (accepted : entry ∈ world.accepted)
    {released : ReleaseKey × PendingIngress C} (drained : released ∈ world.drained)
    (before : ReleaseKey.Before entry.key released.1) : [entry.entry, released].Sublist world.drained := by
  obtain ⟨increasing, -, apart⟩ := List.pairwise_append.1 kept.sorted
  have somewhere := kept.once.symm.subset (List.mem_map_of_mem (f := Accepted.entry) accepted)
  cases List.mem_append.1 somewhere with
  | inl gone =>
    exact pair_sublist (fun left right => ReleaseKey.Before.asymm left.1 right.1) increasing gone drained before
  | inr waiting => exact absurd before (ReleaseKey.Before.asymm _ _ (apart released drained _ waiting))

theorem arrivalOrder (kept : Kept world instantUs) {earlier later : Accepted C}
    (order : [earlier, later].Sublist world.accepted) (session : earlier.key.sessionId = later.key.sessionId)
    (deadline : earlier.key.deadlineUs ≤ later.key.deadlineUs) (drained : later.entry ∈ world.drained) :
    [earlier.entry, later.entry].Sublist world.drained := by
  have arrived := List.rel_of_pairwise_cons (kept.arrivals.sublist order) (List.mem_singleton_self later)
  refine kept.notOvertaken (order.subset (by simp)) drained (ReleaseKey.before_iff.2 ?_)
  by_cases tied : earlier.key.deadlineUs = later.key.deadlineUs
  · exact Or.inr ⟨tied, Or.inr ⟨session, arrived⟩⟩
  · exact Or.inl (Nat.lt_of_le_of_ne deadline tied)

theorem released (kept : Kept world instantUs) {entry : Accepted C} (accepted : entry ∈ world.accepted) {nowUs : Nat}
    (past : entry.admittedMs * 1000 + maxIngressOffsetUs < nowUs) : entry.entry ∈ (world.drain nowUs).drained := by
  have somewhere := kept.once.symm.subset (List.mem_map_of_mem (f := Accepted.entry) accepted)
  apply List.mem_append.2
  cases List.mem_append.1 somewhere with
  | inl gone => exact Or.inl gone
  | inr waiting =>
    have deadline := kept.horizon entry accepted
    exact Or.inr ((IngressReorderBuffer.mem_drainBelow _ _).2 ⟨waiting, Nat.lt_of_le_of_lt deadline past⟩)

theorem reordered (kept : Kept world instantUs) : Reordered world where
  tickets := kept.tickets
  once := kept.once
  refusedStay _ refused _ drained := kept.refusedStay refused drained
  increasing := (List.pairwise_append.1 kept.sorted).1
  notOvertaken _ accepted _ drained before := kept.notOvertaken accepted drained before
  arrivalOrder _ _ order session deadline drained := kept.arrivalOrder order session deadline drained
  horizon _ accepted _ past := kept.released accepted past
  counted := kept.sound.counted
  quota := kept.sound.quota
  room := by
    rw [held, Std.ExtTreeMap.length_toList]
    exact kept.sound.room

end Kept

/-- Every run of admissions and drains under a clock that never goes back keeps the release contract. -/
theorem run_reordered (capacity maxPerSession : UInt64) (events : List (IngressEvent C)) (timed : Timed events) :
    Reordered ((start capacity maxPerSession).run events) := by
  obtain ⟨lastUs, kept⟩ := (kept_start capacity maxPerSession).run timed fun _ _ => Nat.zero_le _
  exact kept.reordered

/-- A quota of one refuses the second command of session `a`, and the faster command of `b` overtakes its first. -/
theorem overtaking_reordered :
    let events : List (IngressEvent Unit) :=
      [.admission 1 500 "a" (), .admission 1 0 "a" (), .admission 1 100 "b" (), .drain 1500, .drain 1501]
    Timed events ∧ Reordered ((start 2 8).run events) ∧
      ((start 2 8).run events).drained.map (·.2.reply) = [2, 0] := by
  refine ⟨by decide, run_reordered 2 8 _ (by decide), by decide +kernel⟩

end IngressWorld

end Fauxchange.Microstructure
