import Fauxchange.Lib.GuardedRuns
import Fauxchange.Microstructure.IngressRuns
import Mathlib.Logic.Function.Basic

/-! The futures that submit into one underlying's ingress channel and release it. Each runs from one await to
the next; a request future can be dropped wherever it awaits. -/

namespace Fauxchange.Microstructure
open Exchange Lib

/-- Where a future stands. A caller has a reply to await after its own release; a pump has none. -/
inductive ReleasePhase (C : Type) where
  | gone
  | clocked (session : String) (command : C) (deadlineUs : Nat)
  | minted (key : ReleaseKey) (command : C)
  | lockWait (awaited : Option Nat)
  /-- The actor owes an answer to the command forwarded last; the rest of the batch is still to be forwarded. -/
  | forwarding (awaited : Option Nat) (rest : List (ReleaseKey × PendingIngress C))
  | replyWait (reply : Nat)

/-- The commands of a batch that a future has still to forward. -/
def ReleasePhase.unsent {C : Type} : ReleasePhase C → List (ReleaseKey × PendingIngress C)
  | .forwarding _ rest => rest
  | _ => []

/-- A caller goes on to await its own reply after its release; a pump is done. -/
def ReleasePhase.released {C : Type} : Option Nat → ReleasePhase C
  | none => .gone
  | some reply => .replyWait reply

inductive ReleaseAction (C : Type) where
  | advanceTo (targetMs : Nat)
  | arrive (task : Nat) (session : String) (command : C) (offset : Nat)
  | mint (task : Nat)
  | hold (task : Nat)
  | pump (task : Nat)
  | acquire (task : Nat)
  | answered (task : Nat)
  | resolved (task : Nat)
  | drop (task : Nat)
  | receive
  | enqueue (command : C)
  | shutDown

/-- An ingress channel with its futures and its actor's mailbox, and the history of the accepted commands: what
the mailbox took, what it turned away with a typed answer, and what went with a dropped future. -/
structure ReleaseWorld (C : Type) where
  clockMs : Nat
  arrivalCounter : Nat
  replies : Nat
  buffer : IngressReorderBuffer (PendingIngress C)
  releaseLock : Option Nat
  tasks : Nat → ReleasePhase C
  mailbox : List C
  mailboxCapacity : Nat
  closed : Bool
  accepted : List (ReleaseKey × PendingIngress C)
  handed : List (ReleaseKey × PendingIngress C)
  turnedAway : List (ReleaseKey × PendingIngress C)
  discarded : List (ReleaseKey × PendingIngress C)

namespace ReleaseWorld
variable {C : Type}

def start (capacity maxPerSession : UInt64) (mailboxCapacity : Nat) : ReleaseWorld C :=
  ⟨0, 0, 0, .withCeilings capacity maxPerSession, none, fun _ => .gone, [], mailboxCapacity, false, [], [], [], []⟩

variable (world : ReleaseWorld C)

def held : List (ReleaseKey × PendingIngress C) := world.buffer.pending.toList

/-- `try_send` finds room in an open mailbox. -/
def accepts : Bool := !world.closed && world.mailbox.length < world.mailboxCapacity

def park (task : Nat) (phase : ReleasePhase C) : ReleaseWorld C :=
  { world with tasks := Function.update world.tasks task phase }

theorem park_self (task : Nat) (phase : ReleasePhase C) : (world.park task phase).tasks task = phase := by
  simp only [park, Function.update_self]

theorem park_of_ne {task other : Nat} (phase : ReleasePhase C) (apart : other ≠ task) :
    (world.park task phase).tasks other = world.tasks other := by
  simp only [park, Function.update_of_ne apart]

def finish (task : Nat) (awaited : Option Nat) : ReleaseWorld C :=
  { world.park task (.released awaited) with releaseLock := none }

/-- The loop over a batch, up to its next await: a mailbox that takes the command owes an answer, one that
refuses it has answered. -/
def forward (task : Nat) (awaited : Option Nat) : ReleaseWorld C → List (ReleaseKey × PendingIngress C) → ReleaseWorld C
  | world, [] => world.finish task awaited
  | world, entry :: rest =>
    if world.accepts then
      { world.park task (.forwarding awaited rest) with
        mailbox := world.mailbox ++ [entry.2.command], handed := world.handed ++ [entry] }
    else forward task awaited { world with turnedAway := world.turnedAway ++ [entry] } rest

/-- The insertion under the buffer's mutex; a full buffer ends the call. -/
def holdIn (task : Nat) (key : ReleaseKey) (command : C) : ReleaseWorld C :=
  match world.buffer.insert key ⟨command, world.replies⟩ with
  | .error _ => world.park task .gone
  | .ok buffer =>
    { world.park task (.lockWait (some world.replies)) with
      buffer, replies := world.replies + 1, accepted := world.accepted ++ [(key, ⟨command, world.replies⟩)] }

/-- The batch that is due is taken out in one piece, at one reading of the clock. -/
def release (task : Nat) (awaited : Option Nat) : ReleaseWorld C :=
  let released := world.buffer.drainBelow (ingressNowUs world.clockMs)
  forward task awaited { world with releaseLock := some task, buffer := released.1 } released.2

/-- A dropped future frees the lock it holds, and what it owns goes with it. -/
def dropped (task : Nat) : ReleaseWorld C :=
  { world.park task .gone with
    releaseLock := if world.releaseLock = some task then none else world.releaseLock
    discarded := world.discarded ++ (world.tasks task).unsent }

def step : ReleaseAction C → Option (ReleaseWorld C)
  | .advanceTo targetMs => some { world with clockMs := max world.clockMs targetMs }
  | .arrive task session command offset =>
    match world.tasks task with
    | .gone =>
      match releaseDeadlineUs world.clockMs offset with
      | none => some world
      | some deadlineUs => some (world.park task (.clocked session command deadlineUs))
    | _ => none
  | .mint task =>
    match world.tasks task with
    | .clocked session command deadlineUs =>
      match checkedNext world.arrivalCounter with
      | none => some (world.park task .gone)
      | some counter =>
        some { world.park task (.minted ⟨deadlineUs, session, world.arrivalCounter⟩ command) with
          arrivalCounter := counter }
    | _ => none
  | .hold task =>
    match world.tasks task with
    | .minted key command => some (world.holdIn task key command)
    | _ => none
  | .pump task =>
    match world.tasks task with
    | .gone => some (world.park task (.lockWait none))
    | _ => none
  | .acquire task =>
    match world.tasks task, world.releaseLock with
    | .lockWait awaited, none => some (world.release task awaited)
    | _, _ => none
  | .answered task =>
    match world.tasks task with
    | .forwarding awaited rest => some (forward task awaited world rest)
    | _ => none
  | .resolved task =>
    match world.tasks task with
    | .replyWait _ => some (world.park task .gone)
    | _ => none
  | .drop task =>
    match world.tasks task with
    | .lockWait _ | .forwarding .. | .replyWait _ => some (world.dropped task)
    | _ => none
  | .receive => some { world with mailbox := world.mailbox.tail }
  | .enqueue command => some (if world.accepts then { world with mailbox := world.mailbox ++ [command] } else world)
  | .shutDown => some { world with closed := true }

/-- Every accepted command is held, in the batch of a release that still runs, or in the actor's hands. -/
def Located : Prop :=
  ∀ entry ∈ world.accepted, entry ∈ world.held ∨
    (∃ task, entry ∈ (world.tasks task).unsent) ∨ entry ∈ world.handed

/-- A step spares the accepted commands: a dropped future has nothing left of its batch to forward, and the
mailbox takes the command that a release forwards next. -/
def Spares : ReleaseAction C → Prop
  | .drop task => (world.tasks task).unsent = []
  | .acquire task =>
    ∀ awaited, world.tasks task = .lockWait awaited → world.releaseLock = none →
      (world.buffer.drainBelow (ingressNowUs world.clockMs)).2 ≠ [] → world.accepts
  | .answered task => (world.tasks task).unsent ≠ [] → world.accepts
  | _ => True

def batchOf (tasks : Nat → ReleasePhase C) : Option Nat → List (ReleaseKey × PendingIngress C)
  | none => []
  | some task => (tasks task).unsent

/-- What is left of the batch that the holder of the lock forwards. -/
def batch : List (ReleaseKey × PendingIngress C) := batchOf world.tasks world.releaseLock

/-- The accepted commands are accounted for, each once, with a given batch under way. -/
structure Ledger (batch : List (ReleaseKey × PendingIngress C)) : Prop where
  whole : (world.held ++ (batch ++ (world.handed ++ (world.turnedAway ++ world.discarded)))).Perm world.accepted
  distinct : (world.accepted.map (·.1.arrivalSequence)).Nodup
  counted : ∀ entry ∈ world.accepted, entry.1.arrivalSequence < world.arrivalCounter
  minted : ∀ task key command, world.tasks task = .minted key command →
    key.arrivalSequence < world.arrivalCounter ∧ ∀ entry ∈ world.accepted, entry.1.arrivalSequence ≠ key.arrivalSequence
  mintedOnce : ∀ task key command, world.tasks task = .minted key command → ∀ other otherKey otherCommand,
    world.tasks other = .minted otherKey otherCommand → otherKey.arrivalSequence = key.arrivalSequence → other = task

/-- The batch under way is the one that the holder of the lock forwards. -/
structure Accounted : Prop extends Ledger world world.batch where
  locked : ∀ task awaited rest, world.tasks task = .forwarding awaited rest → world.releaseLock = some task

variable {world}

theorem accounted_start (capacity maxPerSession : UInt64) (mailboxCapacity : Nat) :
    Accounted (start capacity maxPerSession mailboxCapacity : ReleaseWorld C) := by
  have none : (start capacity maxPerSession mailboxCapacity : ReleaseWorld C).held = [] := by
    change (∅ : Std.ExtTreeMap ReleaseKey (PendingIngress C) ReleaseKey.order).toList = []
    exact Std.ExtTreeMap.toList_eq_nil_iff.2 rfl
  refine ⟨⟨?_, List.nodup_nil, ?_, ?_, ?_⟩, ?_⟩
  · rw [none]
    exact .nil
  all_goals simp [start]

namespace Accounted

/-- What is in a running batch is in the batch of the holder of the lock. -/
theorem batch_of_unsent (accounted : Accounted world) {task : Nat} {entry : ReleaseKey × PendingIngress C}
    (unsent : entry ∈ (world.tasks task).unsent) : entry ∈ world.batch := by
  cases phase : world.tasks task with
  | forwarding awaited rest =>
    rw [batch, accounted.locked task awaited rest phase]
    exact unsent
  | _ =>
    rw [phase] at unsent
    cases unsent

theorem unsent_of_batch {entry : ReleaseKey × PendingIngress C} (waiting : entry ∈ world.batch) :
    ∃ task, entry ∈ (world.tasks task).unsent := by
  unfold batch at waiting
  cases holder : world.releaseLock with
  | none =>
    rw [holder] at waiting
    cases waiting
  | some task =>
    rw [holder] at waiting
    exact ⟨task, waiting⟩

/-- The commands are located exactly when none was turned away and none was discarded. -/
theorem located_iff (accounted : Accounted world) : world.Located ↔ world.turnedAway ++ world.discarded = [] := by
  have distinct : (world.held ++ (world.batch ++ (world.handed ++ (world.turnedAway ++ world.discarded)))).Nodup :=
    accounted.whole.nodup_iff.2 (accounted.distinct.of_map _)
  rw [← List.append_assoc, ← List.append_assoc] at distinct
  constructor
  · intro located
    refine List.eq_nil_iff_forall_not_mem.2 fun entry astray => ?_
    have accepted : entry ∈ world.accepted :=
      accounted.whole.subset (List.mem_append_right _ (List.mem_append_right _ (List.mem_append_right _ astray)))
    have somewhere : entry ∈ world.held ++ world.batch ++ world.handed := by
      rw [List.mem_append, List.mem_append]
      obtain held | ⟨task, unsent⟩ | handed := located entry accepted
      · exact Or.inl (Or.inl held)
      · exact Or.inl (Or.inr (accounted.batch_of_unsent unsent))
      · exact Or.inr handed
    exact (List.nodup_append.1 distinct).2.2 entry somewhere entry astray rfl
  · intro none entry accepted
    have somewhere := accounted.whole.symm.subset accepted
    rw [none, List.append_nil, List.mem_append, List.mem_append] at somewhere
    obtain held | waiting | handed := somewhere
    · exact Or.inl held
    · exact Or.inr (Or.inl (unsent_of_batch waiting))
    · exact Or.inr (Or.inr handed)

end Accounted

namespace Ledger
variable {batch : List (ReleaseKey × PendingIngress C)} {task : Nat}

/-- A future that moves on leaves the ledger alone; a key that it minted has to be new. -/
theorem park (ledger : Ledger world batch) (phase : ReleasePhase C)
    (fresh : ∀ key command, phase = .minted key command →
      key.arrivalSequence < world.arrivalCounter ∧
        (∀ entry ∈ world.accepted, entry.1.arrivalSequence ≠ key.arrivalSequence) ∧
        ∀ other otherKey otherCommand, world.tasks other = .minted otherKey otherCommand →
          otherKey.arrivalSequence ≠ key.arrivalSequence) :
    Ledger (world.park task phase) batch := by
  refine ⟨ledger.whole, ledger.distinct, ledger.counted, ?_, ?_⟩
  · intro other key command mints
    by_cases same : other = task
    · rw [same, park_self] at mints
      exact ⟨(fresh key command mints).1, (fresh key command mints).2.1⟩
    · rw [park_of_ne _ _ same] at mints
      exact ledger.minted other key command mints
  · intro first key command mints second otherKey otherCommand mintsToo tied
    by_cases left : first = task <;> by_cases right : second = task
    · rw [left, right]
    · rw [left, park_self] at mints
      rw [park_of_ne _ _ right] at mintsToo
      exact absurd tied ((fresh key command mints).2.2 second otherKey otherCommand mintsToo)
    · rw [park_of_ne _ _ left] at mints
      rw [right, park_self] at mintsToo
      exact absurd tied.symm ((fresh otherKey otherCommand mintsToo).2.2 first key command mints)
    · rw [park_of_ne _ _ left] at mints
      rw [park_of_ne _ _ right] at mintsToo
      exact ledger.mintedOnce first key command mints second otherKey otherCommand mintsToo tied

theorem settle (ledger : Ledger world batch) (phase : ReleasePhase C)
    (unminted : ∀ key command, phase ≠ .minted key command) : Ledger (world.park task phase) batch :=
  ledger.park phase fun key command mints => absurd mints (unminted key command)

theorem count (ledger : Ledger world batch) {counter : Nat} (forward : world.arrivalCounter ≤ counter) :
    Ledger { world with arrivalCounter := counter } batch :=
  { ledger with
    counted := fun entry member => Nat.lt_of_lt_of_le (ledger.counted entry member) forward
    minted := fun task key command mints =>
      ⟨Nat.lt_of_lt_of_le (ledger.minted task key command mints).1 forward, (ledger.minted task key command mints).2⟩ }

end Ledger

namespace Accounted
variable {task : Nat}

/-- A future that forwards nothing moves to a phase in which it forwards nothing. -/
theorem park (accounted : Accounted world) {phase : ReleasePhase C}
    (idle : ∀ awaited rest, world.tasks task ≠ .forwarding awaited rest)
    (calm : ∀ awaited rest, phase ≠ .forwarding awaited rest)
    (ledger : Ledger (world.park task phase) world.batch) : Accounted (world.park task phase) := by
  have unsent : ∀ phase : ReleasePhase C, (∀ awaited rest, phase ≠ .forwarding awaited rest) → phase.unsent = [] := by
    intro phase calm
    cases phase with
    | forwarding awaited rest => exact absurd rfl (calm awaited rest)
    | _ => rfl
  have same : (world.park task phase).batch = world.batch := by
    change batchOf (world.park task phase).tasks world.releaseLock = batchOf world.tasks world.releaseLock
    cases world.releaseLock with
    | none => rfl
    | some holder =>
      by_cases here : holder = task
      · simp only [batchOf, here, park_self, unsent _ calm, unsent _ idle]
      · simp only [batchOf, park_of_ne _ _ here]
  refine ⟨same ▸ ledger, fun other awaited rest forwards => ?_⟩
  by_cases here : other = task
  · rw [here, park_self] at forwards
    exact absurd forwards (calm awaited rest)
  · rw [park_of_ne _ _ here] at forwards
    exact accounted.locked other awaited rest forwards

theorem settle (accounted : Accounted world) {before : ReleasePhase C} (phase : ReleasePhase C)
    (stands : world.tasks task = before) (idle : ∀ awaited rest, before ≠ .forwarding awaited rest)
    (calm : ∀ awaited rest, phase ≠ .forwarding awaited rest)
    (unminted : ∀ key command, phase ≠ .minted key command) : Accounted (world.park task phase) :=
  accounted.park (stands ▸ idle) calm (accounted.toLedger.settle phase unminted)

theorem mint (accounted : Accounted world) {session : String} {command : C} {deadlineUs : Nat}
    (stands : world.tasks task = .clocked session command deadlineUs) :
    Accounted { world.park task (.minted ⟨deadlineUs, session, world.arrivalCounter⟩ command) with
      arrivalCounter := world.arrivalCounter + 1 } := by
  have counted : Accounted { world with arrivalCounter := world.arrivalCounter + 1 } :=
    ⟨accounted.toLedger.count (Nat.le_succ _), accounted.locked⟩
  refine counted.park (fun awaited rest forwards => by simp [stands] at forwards)
    nofun (counted.toLedger.park _ fun key _ mints => ?_)
  cases mints
  refine ⟨Nat.lt_succ_self _, fun entry accepted => ?_, fun other otherKey otherCommand otherMints => ?_⟩
  · exact Nat.ne_of_lt (accounted.counted entry accepted)
  · exact Nat.ne_of_lt (accounted.minted other otherKey otherCommand otherMints).1

/-- A key that is not among the accepted ones is not held. -/
theorem absent (accounted : Accounted world) {key : ReleaseKey}
    (fresh : ∀ entry ∈ world.accepted, entry.1.arrivalSequence ≠ key.arrivalSequence) :
    world.buffer.pending[key]? = none := by
  cases found : world.buffer.pending[key]? with
  | none => rfl
  | some pending =>
    have listed : (key, pending) ∈ world.held := Std.ExtTreeMap.mem_toList_iff_getElem?_eq_some.2 found
    exact absurd rfl (fresh _ (accounted.whole.subset (List.mem_append_left _ listed)))

theorem holdIn (accounted : Accounted world) {key : ReleaseKey} {command : C}
    (stands : world.tasks task = .minted key command) : Accounted (world.holdIn task key command) := by
  have idle : ∀ awaited rest, (.minted key command : ReleasePhase C) ≠ .forwarding awaited rest :=
    nofun
  obtain ⟨early, fresh⟩ := accounted.minted task key command stands
  unfold ReleaseWorld.holdIn
  cases inserted : world.buffer.insert key ⟨command, world.replies⟩ with
  | error _ =>
    exact accounted.settle _ stands idle nofun nofun
  | ok buffer =>
    have parked : Accounted (world.park task (.lockWait (some world.replies))) :=
      accounted.settle _ stands idle nofun nofun
    have perm := IngressReorderBuffer.insert_perm inserted (accounted.absent fresh)
    refine ⟨⟨?_, ?_, ?_, ?_, parked.mintedOnce⟩, parked.locked⟩
    · refine (perm.append_right _).trans ?_
      exact (parked.whole.cons _).trans (List.perm_append_singleton _ _).symm
    · rw [List.map_append, List.nodup_append]
      refine ⟨accounted.distinct, List.nodup_singleton _, fun arrival listed last here => ?_⟩
      obtain ⟨entry, accepted, same⟩ := List.mem_map.1 listed
      rw [List.mem_singleton.1 here, ← same]
      exact fresh entry accepted
    · intro entry member
      cases List.mem_append.1 member with
      | inl old => exact accounted.counted entry old
      | inr new =>
        rw [List.mem_singleton.1 new]
        exact early
    · intro other otherKey otherCommand mints
      refine ⟨(parked.minted other otherKey otherCommand mints).1, fun entry member => ?_⟩
      cases List.mem_append.1 member with
      | inl old => exact (parked.minted other otherKey otherCommand mints).2 entry old
      | inr new =>
        -- the future that minted the new key has moved on, and no other holds its arrival sequence
        rw [List.mem_singleton.1 new]
        intro tied
        change (world.park task _).tasks other = _ at mints
        by_cases here : other = task
        · rw [here, park_self] at mints
          cases mints
        · rw [park_of_ne _ _ here] at mints
          exact here (accounted.mintedOnce task key command stands other otherKey otherCommand mints tied.symm)

end Accounted

section Forward
variable {task : Nat} {awaited : Option Nat}

theorem forward_accounted {due : List (ReleaseKey × PendingIngress C)} (ledger : Ledger world due)
    (holds : world.releaseLock = some task)
    (alone : ∀ other awaited rest, world.tasks other = .forwarding awaited rest → other = task) :
    Accounted (forward task awaited world due) := by
  induction due generalizing world with
  | nil =>
    have unminted : ∀ key command, (.released awaited : ReleasePhase C) ≠ .minted key command := by
      cases awaited <;> nofun
    have settled : Ledger (world.park task (.released awaited)) [] := ledger.settle _ unminted
    refine ⟨⟨settled.whole, settled.distinct, settled.counted, settled.minted, settled.mintedOnce⟩, ?_⟩
    intro other otherAwaited rest forwards
    change (world.park task _).tasks other = _ at forwards
    by_cases here : other = task
    · rw [here, park_self] at forwards
      cases awaited <;> cases forwards
    · rw [park_of_ne _ _ here] at forwards
      exact absurd (alone other otherAwaited rest forwards) here
  | cons entry rest ih =>
    unfold forward
    split
    next takes =>
      have settled : Ledger (world.park task (.forwarding awaited rest)) (entry :: rest) := ledger.settle _ nofun
      have waiting : ({ world.park task (.forwarding awaited rest) with
          mailbox := world.mailbox ++ [entry.2.command], handed := world.handed ++ [entry] } : ReleaseWorld C).batch =
          rest := by
        change batchOf (world.park task (.forwarding awaited rest)).tasks world.releaseLock = rest
        rw [holds]
        exact congrArg ReleasePhase.unsent (park_self ..)
      refine ⟨⟨?_, settled.distinct, settled.counted, settled.minted, settled.mintedOnce⟩, ?_⟩
      · rw [waiting]
        refine List.Perm.trans (List.Perm.append_left _ ?_) settled.whole
        change (rest ++ ((world.handed ++ [entry]) ++ (world.turnedAway ++ world.discarded))).Perm
          (entry :: (rest ++ (world.handed ++ (world.turnedAway ++ world.discarded))))
        rw [List.append_assoc, ← List.append_assoc, ← List.append_assoc rest]
        exact List.perm_middle
      · intro other otherAwaited otherRest forwards
        change (world.park task _).tasks other = _ at forwards
        by_cases here : other = task
        · rw [here]
          exact holds
        · rw [park_of_ne _ _ here] at forwards
          exact absurd (alone other otherAwaited otherRest forwards) here
    next refuses =>
      refine ih ⟨?_, ledger.distinct, ledger.counted, ledger.minted, ledger.mintedOnce⟩ holds alone
      refine List.Perm.trans (List.Perm.append_left _ ?_) ledger.whole
      change (rest ++ (world.handed ++ ((world.turnedAway ++ [entry]) ++ world.discarded))).Perm
        (entry :: (rest ++ (world.handed ++ (world.turnedAway ++ world.discarded))))
      rw [List.append_assoc world.turnedAway, ← List.append_assoc, ← List.append_assoc, ← List.append_assoc rest,
        ← List.append_assoc (rest ++ world.handed)]
      exact List.perm_middle

/-- A mailbox that takes a command takes the first of the batch; one that refuses turns the whole batch away. -/
theorem forward_turnedAway (due : List (ReleaseKey × PendingIngress C)) :
    (forward task awaited world due).turnedAway = world.turnedAway ++ if world.accepts then [] else due := by
  induction due generalizing world with
  | nil =>
    rw [ite_self, List.append_nil]
    rfl
  | cons entry rest ih =>
    unfold forward
    split
    next => rw [List.append_nil]; rfl
    next refuses =>
      have still : ({ world with turnedAway := world.turnedAway ++ [entry] } : ReleaseWorld C).accepts = false :=
        Bool.not_eq_true _ ▸ refuses
      rw [ih, still]
      simp

theorem forward_discarded (due : List (ReleaseKey × PendingIngress C)) :
    (forward task awaited world due).discarded = world.discarded := by
  induction due generalizing world with
  | nil => rfl
  | cons entry rest ih =>
    unfold forward
    split
    next => rfl
    next => exact ih

end Forward

/-- What a dropped future had still to forward goes from the batch to what is discarded. -/
theorem Accounted.dropped (accounted : Accounted world) (task : Nat) : Accounted (world.dropped task) := by
  have settled : Ledger (world.park task .gone) world.batch := accounted.toLedger.settle _ nofun
  have tasks_eq (other : Nat) (apart : other ≠ task) : (world.dropped task).tasks other = world.tasks other :=
    park_of_ne world .gone apart
  have gone : (world.dropped task).tasks task = .gone := park_self world task .gone
  have locked : ∀ other awaited rest, (world.dropped task).tasks other = .forwarding awaited rest →
      (world.dropped task).releaseLock = some other := by
    intro other awaited rest forwards
    by_cases here : other = task
    · rw [here, gone] at forwards
      cases forwards
    · rw [tasks_eq other here] at forwards
      have holds := accounted.locked other awaited rest forwards
      simp only [ReleaseWorld.dropped, holds, Option.some.injEq, here, if_false]
  refine ⟨⟨?_, settled.distinct, settled.counted, settled.minted, settled.mintedOnce⟩, locked⟩
  have parts : ((world.dropped task).batch ++ (world.tasks task).unsent).Perm world.batch := by
    by_cases holds : world.releaseLock = some task
    · have left : (world.dropped task).batch = [] := by
        rw [batch, ReleaseWorld.dropped, if_pos holds]
        rfl
      rw [left, batch, holds]
      exact List.Perm.refl _
    · have sent : (world.tasks task).unsent = [] := by
        cases stands : world.tasks task with
        | forwarding awaited rest => exact absurd (accounted.locked task awaited rest stands) holds
        | _ => rfl
      have same : (world.dropped task).batch = world.batch := by
        change batchOf (world.dropped task).tasks (if world.releaseLock = some task then none else world.releaseLock) = _
        rw [if_neg holds, batch]
        cases holder : world.releaseLock with
        | none => rfl
        | some other => exact congrArg ReleasePhase.unsent (tasks_eq other fun here => holds (here ▸ holder))
      rw [sent, List.append_nil, same]
  refine List.Perm.trans (List.Perm.append_left _ ?_) accounted.whole
  change ((world.dropped task).batch ++ (world.handed ++ (world.turnedAway ++ (world.discarded ++
    (world.tasks task).unsent)))).Perm _
  rw [← List.append_assoc world.turnedAway, ← List.append_assoc world.handed]
  refine (List.Perm.append_left _ List.perm_append_comm).trans ?_
  rw [← List.append_assoc]
  exact parts.append_right _

/-- The clock and the mailbox are no part of the accounts. -/
theorem Accounted.elsewhere (accounted : Accounted world) (clockMs : Nat) (mailbox : List C) (closed : Bool) :
    Accounted { world with clockMs, mailbox, closed } :=
  ⟨⟨accounted.whole, accounted.distinct, accounted.counted, accounted.minted, accounted.mintedOnce⟩, accounted.locked⟩

/-- Every step keeps the accounts. -/
theorem Accounted.step {action : ReleaseAction C} {next : ReleaseWorld C} (accounted : Accounted world)
    (taken : world.step action = some next) : Accounted next := by
  cases action with
  | advanceTo targetMs =>
    cases taken
    exact accounted.elsewhere _ _ _
  | arrive task session command offset =>
    cases stands : world.tasks task with
    | gone =>
      simp only [ReleaseWorld.step, stands] at taken
      cases computed : releaseDeadlineUs world.clockMs offset with
      | none =>
        simp only [computed] at taken
        cases taken
        exact accounted
      | some deadlineUs =>
        simp only [computed] at taken
        cases taken
        exact accounted.settle _ stands nofun nofun nofun
    | _ => simp [ReleaseWorld.step, stands] at taken
  | mint task =>
    cases stands : world.tasks task with
    | clocked session command deadlineUs =>
      simp only [ReleaseWorld.step, stands] at taken
      cases minted : checkedNext world.arrivalCounter with
      | none =>
        simp only [minted] at taken
        cases taken
        exact accounted.settle _ stands nofun nofun nofun
      | some counter =>
        obtain ⟨-, rfl⟩ := checkedNext_eq_some.1 minted
        simp only [minted] at taken
        cases taken
        exact accounted.mint stands
    | _ => simp [ReleaseWorld.step, stands] at taken
  | hold task =>
    cases stands : world.tasks task with
    | minted key command =>
      simp only [ReleaseWorld.step, stands] at taken
      cases taken
      exact accounted.holdIn stands
    | _ => simp [ReleaseWorld.step, stands] at taken
  | pump task =>
    cases stands : world.tasks task with
    | gone =>
      simp only [ReleaseWorld.step, stands] at taken
      cases taken
      exact accounted.settle _ stands nofun nofun nofun
    | _ => simp [ReleaseWorld.step, stands] at taken
  | acquire task =>
    cases stands : world.tasks task with
    | lockWait awaited =>
      cases free : world.releaseLock with
      | some holder => simp [ReleaseWorld.step, stands, free] at taken
      | none =>
        simp only [ReleaseWorld.step, stands, free] at taken
        cases taken
        refine forward_accounted ⟨?_, accounted.distinct, accounted.counted, accounted.minted, accounted.mintedOnce⟩ rfl ?_
        · -- no batch was under way; the new one comes out of what was held
          have idle : world.batch = [] := by rw [batch, free]; rfl
          have whole := accounted.whole
          rw [idle, List.nil_append, held, ← IngressReorderBuffer.drainBelow_toList world.buffer
            (ingressNowUs world.clockMs)] at whole
          refine List.Perm.trans ?_ whole
          rw [← List.append_assoc]
          exact List.perm_append_comm.append_right _
        · intro other otherAwaited rest forwards
          have holds := accounted.locked other otherAwaited rest forwards
          rw [free] at holds
          cases holds
    | _ => simp [ReleaseWorld.step, stands] at taken
  | answered task =>
    cases stands : world.tasks task with
    | forwarding awaited rest =>
      have holds := accounted.locked task awaited rest stands
      have running : world.batch = rest := by rw [batch, holds, batchOf, stands]; rfl
      simp only [ReleaseWorld.step, stands] at taken
      cases taken
      refine forward_accounted (running ▸ accounted.toLedger) holds ?_
      intro other otherAwaited otherRest forwards
      have same := accounted.locked other otherAwaited otherRest forwards
      rw [holds] at same
      exact (Option.some.inj same).symm
    | _ => simp [ReleaseWorld.step, stands] at taken
  | resolved task =>
    cases stands : world.tasks task with
    | replyWait reply =>
      simp only [ReleaseWorld.step, stands] at taken
      cases taken
      exact accounted.settle _ stands nofun nofun nofun
    | _ => simp [ReleaseWorld.step, stands] at taken
  | drop task =>
    have next_eq : next = world.dropped task := by
      cases stands : world.tasks task <;> simp only [ReleaseWorld.step, stands] at taken <;> cases taken <;> rfl
    rw [next_eq]
    exact accounted.dropped task
  | receive =>
    cases taken
    exact accounted.elsewhere _ _ _
  | enqueue command =>
    simp only [ReleaseWorld.step] at taken
    cases taken
    split
    next => exact accounted.elsewhere _ _ _
    next => exact accounted
  | shutDown =>
    cases taken
    exact accounted.elsewhere _ _ _

/-- With nothing astray before it, a step leaves nothing astray exactly when it spares the accepted commands. -/
theorem astray_step {action : ReleaseAction C} (none : world.turnedAway ++ world.discarded = []) :
    (∀ next, world.step action = some next → next.turnedAway ++ next.discarded = []) ↔ world.Spares action := by
  obtain ⟨away, gone⟩ := List.append_eq_nil_iff.1 none
  have forwards (task : Nat) (awaited : Option Nat) (before : ReleaseWorld C)
      (due : List (ReleaseKey × PendingIngress C)) (same : before.turnedAway = []) (sameGone : before.discarded = []) :
      (forward task awaited before due).turnedAway ++ (forward task awaited before due).discarded = [] ↔
        (due ≠ [] → before.accepts) := by
    rw [forward_turnedAway, forward_discarded, same, sameGone, List.nil_append, List.append_nil]
    by_cases takes : before.accepts = true
    · simp [takes]
    · simp [takes]
  cases action with
  | advanceTo targetMs => simp [step, Spares, away, gone]
  | arrive task session command offset =>
    cases stands : world.tasks task <;> simp only [step, stands, Spares, iff_true] <;> intro next taken
    case gone =>
      cases computed : releaseDeadlineUs world.clockMs offset with
      | none =>
        simp only [computed] at taken
        cases taken
        exact none
      | some deadlineUs =>
        simp only [computed] at taken
        cases taken
        exact none
    all_goals cases taken
  | mint task =>
    cases stands : world.tasks task <;> simp only [step, stands, Spares, iff_true] <;> intro next taken
    case clocked =>
      cases minted : checkedNext world.arrivalCounter with
      | none =>
        simp only [minted] at taken
        cases taken
        exact none
      | some counter =>
        simp only [minted] at taken
        cases taken
        exact none
    all_goals cases taken
  | hold task =>
    cases stands : world.tasks task <;> simp only [step, stands, Spares, iff_true] <;> intro next taken
    case minted key command =>
      cases taken
      unfold holdIn
      cases world.buffer.insert key ⟨command, world.replies⟩ <;> exact none
    all_goals cases taken
  | pump task =>
    cases stands : world.tasks task <;> simp only [step, stands, Spares, iff_true] <;> intro next taken <;> cases taken
    exact none
  | acquire task =>
    cases stands : world.tasks task with
    | lockWait awaited =>
      cases free : world.releaseLock with
      | some holder => simp [step, stands, free, Spares]
      | none =>
        have batch := forwards task awaited
          { world with
            releaseLock := some task, buffer := (world.buffer.drainBelow (ingressNowUs world.clockMs)).1 }
          (world.buffer.drainBelow (ingressNowUs world.clockMs)).2 away gone
        simp only [step, stands, free, Spares, Option.some.injEq, forall_eq', ReleasePhase.lockWait.injEq,
          true_implies]
        exact batch
    | _ => simp [step, stands, Spares]
  | answered task =>
    cases stands : world.tasks task with
    | forwarding awaited rest =>
      simp only [step, stands, Spares, Option.some.injEq, forall_eq', ReleasePhase.unsent]
      exact forwards task awaited world rest away gone
    | _ => simp [step, stands, Spares, ReleasePhase.unsent]
  | resolved task =>
    cases stands : world.tasks task <;> simp only [step, stands, Spares, iff_true] <;> intro next taken <;> cases taken
    exact none
  | drop task =>
    cases stands : world.tasks task <;> simp [step, stands, Spares, dropped, park, ReleasePhase.unsent, away, gone]
  | receive => simp [step, Spares, away, gone]
  | enqueue command =>
    simp only [step, Spares, iff_true, Option.some.injEq, forall_eq']
    split <;> exact none
  | shutDown => simp [step, Spares, away, gone]

/-- In every run of callers, pumps and clock advances, the accepted commands stay located exactly when every
step spares them. -/
theorem run_located_iff (capacity maxPerSession : UInt64) (mailboxCapacity : Nat) (actions : List (ReleaseAction C)) :
    Always step Located (start capacity maxPerSession mailboxCapacity) actions ↔
      Throughout step Spares (start capacity maxPerSession mailboxCapacity) actions := by
  refine always_iff_throughout (fun world => world.Accounted ∧ world.turnedAway ++ world.discarded = []) ?_ ?_
    ⟨accounted_start _ _ _, rfl⟩
  · intro world action next kept spares taken
    exact ⟨kept.1.step taken, (astray_step kept.2).2 spares next taken⟩
  · intro world action kept
    rw [← astray_step kept.2]
    refine forall_congr' fun next => forall_congr' fun taken => ?_
    exact (kept.1.step taken).located_iff

/-- Two callers wait for their deadlines; a third arrives once the clock has passed them, releases both commands,
and goes away while the actor works on the first. -/
def releaserGone : List (ReleaseAction String) :=
  [.arrive 1 "a" "buy" 0, .mint 1, .hold 1, .acquire 1, .arrive 2 "b" "sell" 0, .mint 2, .hold 2, .acquire 2,
    .advanceTo 1, .arrive 3 "c" "buy" 0, .mint 3, .hold 3, .acquire 3, .drop 3]

/-- The command of session `b` is nowhere after that. -/
theorem releaserGone_loses :
    ∃ world : ReleaseWorld String, runFrom step (start 16 8 4) releaserGone = some world ∧
      world.accepted.map (·.1.sessionId) = ["a", "b", "c"] ∧ world.handed.map (·.1.sessionId) = ["a"] ∧
        ¬ world.Located := by
  have sessions : (runFrom step (start 16 8 4) releaserGone).map (fun world : ReleaseWorld String =>
      (world.accepted.map (·.1.sessionId), world.handed.map (·.1.sessionId),
        (world.turnedAway ++ world.discarded).map (·.1.sessionId))) = some (["a", "b", "c"], ["a"], ["b"]) := by
    decide +kernel
  cases run : runFrom step (start 16 8 4 : ReleaseWorld String) releaserGone with
  | none =>
    rw [run] at sessions
    cases sessions
  | some world =>
    rw [run, Option.map_some, Option.some.injEq, Prod.mk.injEq, Prod.mk.injEq] at sessions
    refine ⟨world, rfl, sessions.1, sessions.2.1, fun located => ?_⟩
    have accounted : Accounted world :=
      runFrom_preserved (fun _ _ _ kept taken => Accounted.step kept taken) (accounted_start 16 8 4) run
    rw [accounted.located_iff.1 located] at sessions
    cases sessions.2.2

end ReleaseWorld

end Fauxchange.Microstructure
