import Fauxchange.Exchange.DurableTurns
import Fauxchange.Exchange.RestoreAtomic
import Fauxchange.Lib.GuardedRuns
import Mathlib.Logic.Function.Basic

/-! The price simulator and the journals: an emit hands its step to a queue, and publishes its price once the queue has
taken it. The forwarder submits the queued steps one by one, and may yet drop them. -/

namespace Fauxchange.Simulation
open Lib Exchange Microstructure

structure PriceUpdate where
  underlying : String
  price : Nat
  nowMs : Nat
  deriving DecidableEq, Repr

/-- The step that an emit routes with its update. -/
def PriceUpdate.step (update : PriceUpdate) : VenueCommand :=
  .simStep update.nowMs update.underlying update.price none none

/-- An emit whose step is admitted, with the number of its admission. -/
structure Emit where
  ticket : Nat
  update : PriceUpdate
  deriving DecidableEq, Repr

/-- The actors, the forwarder's queue and the step that it has submitted, the emits between the two calls of `emit`, the
tickets of the steps that were dropped behind the queue, and what is published. -/
structure PriceVenue (U : Upstream) where
  microstructure : MicrostructureConfig
  capacity : Nat
  actors : String → Option (VenueActor U)
  running : Bool
  admissions : Nat
  queue : List Emit
  submitted : Option Emit
  emitting : List Emit
  dropped : List Nat
  published : List Emit

/-- The two calls of an emit, what the forwarder and the mailboxes do, turns of other commands, and the shutdown. -/
inductive PriceAction where
  | apply (update : PriceUpdate)
  | publish (position : Nat)
  | forward
  | refuse
  | turn (venueTs : Nat)
  | other (underlying : String) (venueTs : Nat) (command : VenueCommand)
  | stop

namespace PriceVenue
variable {U : Upstream} (venue : PriceVenue U)

/-- The queue takes a step while the forwarder runs and has room for it. -/
def trySend : Bool := venue.running ∧ venue.queue.length < max venue.capacity 1

/-- `apply_step`: the step is admitted against the price band, and offered to the queue. -/
def applyStep (update : PriceUpdate) : PriceVenue U :=
  match venue.microstructure.admitPrice update.underlying update.price with
  | .error _ => venue
  | .ok () =>
    if venue.trySend then
      { venue with
        admissions := venue.admissions + 1
        queue := venue.queue ++ [⟨venue.admissions, update⟩]
        emitting := venue.emitting ++ [⟨venue.admissions, update⟩] }
    else venue

/-- The forwarder takes the next step; one of an unhosted underlying is dropped. -/
def forwarded (emit : Emit) (rest : List Emit) : PriceVenue U :=
  match venue.actors emit.update.underlying with
  | none => { venue with queue := rest, dropped := venue.dropped ++ [emit.ticket] }
  | some _ => { venue with queue := rest, submitted := some emit }

def handled (underlying : String) (actor : VenueActor U) (input : Submission) : PriceVenue U :=
  { venue with actors := Function.update venue.actors underlying (some (actor.handle input).2) }

/-- The turn of the submitted step: it is dropped by a sealed actor, and where its write-ahead does not commit. -/
def taken (emit : Emit) (actor : VenueActor U) (venueTs : Nat) : PriceVenue U :=
  let input : Submission := ⟨venueTs, emit.update.step⟩
  { venue.handled emit.update.underlying actor input with
    submitted := none
    dropped := if actor.sealed = none ∧ (actor.ahead input).1 = .committed then venue.dropped
      else venue.dropped ++ [emit.ticket] }

def step : PriceAction → Option (PriceVenue U)
  | .apply update => some (venue.applyStep update)
  | .publish position =>
    venue.emitting[position]?.map fun emit =>
      { venue with emitting := venue.emitting.eraseIdx position, published := venue.published ++ [emit] }
  | .forward =>
    match venue.running, venue.submitted, venue.queue with
    | true, none, emit :: rest => some (venue.forwarded emit rest)
    | _, _, _ => none
  | .refuse =>
    venue.submitted.map fun emit => { venue with submitted := none, dropped := venue.dropped ++ [emit.ticket] }
  | .turn venueTs =>
    match venue.submitted with
    | none => none
    | some emit => (venue.actors emit.update.underlying).map fun actor => venue.taken emit actor venueTs
  | .other underlying venueTs command =>
    (venue.actors underlying).map fun actor => venue.handled underlying actor ⟨venueTs, command⟩
  | .stop =>
    some { venue with running := false, queue := [], dropped := venue.dropped ++ venue.queue.map Emit.ticket }

/-- The journal of an underlying. -/
def records (underlying : String) : List JournalRecord :=
  ((venue.actors underlying).map fun actor => actor.journal.records).getD []

/-- The updates published for an underlying, oldest first. -/
def publishedOn (underlying : String) : List PriceUpdate :=
  (venue.published.filter fun emit => emit.update.underlying = underlying).map Emit.update

/-- A process before its first step. -/
def new (microstructure : MicrostructureConfig) (capacity : Nat) (actors : String → Option (VenueActor U)) : PriceVenue U :=
  ⟨microstructure, capacity, actors, true, 0, [], none, [], [], []⟩

end PriceVenue

/-- The step of an update is durable at a sequence. -/
def Journaled (records : List JournalRecord) (update : PriceUpdate) (sequence : Nat) : Prop :=
  ∃ venueTs, .command ⟨sequence, venueTs, update.step⟩ ∈ records

/-- Every published price has a journaled step, and those of one underlying are published in the order of their steps. -/
def JournaledFirst {U : Upstream} (venue : PriceVenue U) : Prop :=
  ∀ underlying, ∃ sequences : List Nat, sequences.Pairwise (· < ·) ∧
    List.Forall₂ (Journaled (venue.records underlying)) (venue.publishedOn underlying) sequences

section Condition
variable {U : Upstream} (venue : PriceVenue U)

/-- The step of an emit has left the queue and the mailbox without being dropped, and no later emit of its underlying is
published. -/
structure Concluded (emit : Emit) : Prop where
  forwarded : emit ∉ venue.queue
  answered : venue.submitted ≠ some emit
  kept : emit.ticket ∉ venue.dropped
  rising : ∀ earlier ∈ venue.published, earlier.update.underlying = emit.update.underlying → earlier.ticket < emit.ticket

instance (emit : Emit) : Decidable (Concluded venue emit) :=
  decidable_of_iff (emit ∉ venue.queue ∧ venue.submitted ≠ some emit ∧ emit.ticket ∉ venue.dropped ∧
      ∀ earlier ∈ venue.published, earlier.update.underlying = emit.update.underlying → earlier.ticket < emit.ticket)
    ⟨fun ⟨forwarded, answered, kept, rising⟩ => ⟨forwarded, answered, kept, rising⟩,
      fun concluded => ⟨concluded.forwarded, concluded.answered, concluded.kept, concluded.rising⟩⟩

/-- An emit publishes once its step is concluded, and no write-ahead of a step meets a rival. -/
def Awaits : PriceAction → Prop
  | .publish position => ∀ emit ∈ venue.emitting[position]?, Concluded venue emit
  | .turn venueTs => ∀ emit ∈ venue.submitted, ∀ actor ∈ venue.actors emit.update.underlying,
      actor.journal.RivalFree (actor.envelope ⟨venueTs, emit.update.step⟩)
  | _ => True

instance : (action : PriceAction) → Decidable (Awaits venue action)
  | .publish position => inferInstanceAs (Decidable (∀ emit ∈ venue.emitting[position]?, Concluded venue emit))
  | .turn venueTs => inferInstanceAs (Decidable (∀ emit ∈ venue.submitted, ∀ actor ∈ venue.actors emit.update.underlying,
      actor.journal.RivalFree (actor.envelope ⟨venueTs, emit.update.step⟩)))
  | .apply _ | .forward | .refuse | .other .. | .stop => .isTrue trivial

end Condition

/-- What is known of a venue with the steps that it has journaled, in their order: each is durable at its sequence, behind
which its actor has gone on; the queue comes after all of them; and every emit under way is queued, submitted, dropped
or journaled. -/
structure Ledger {U : Upstream} (venue : PriceVenue U) (journaled : List (Emit × Nat)) : Prop where
  durable : ∀ entry ∈ journaled, ∃ actor, venue.actors entry.1.update.underlying = some actor ∧
    Journaled actor.journal.records entry.1.update entry.2 ∧ actor.Past entry.2
  ordered : journaled.Pairwise fun early late => early.1.ticket < late.1.ticket ∧
    (early.1.update.underlying = late.1.update.underlying → early.2 < late.2)
  waiting : (venue.submitted.toList ++ venue.queue).Pairwise fun early late => early.ticket < late.ticket
  behind : ∀ entry ∈ journaled, ∀ emit ∈ venue.submitted.toList ++ venue.queue, entry.1.ticket < emit.ticket
  counted : ∀ emit ∈ venue.submitted.toList ++ venue.queue, emit.ticket < venue.admissions
  numbered : ∀ entry ∈ journaled, entry.1.ticket < venue.admissions
  underWay : ∀ emit ∈ venue.emitting, emit ∈ venue.queue ∨ venue.submitted = some emit ∨ emit.ticket ∈ venue.dropped ∨
    ∃ sequence, (emit, sequence) ∈ journaled
  published : ∀ emit ∈ venue.published, ∃ sequence, (emit, sequence) ∈ journaled
  rising : venue.published.Pairwise fun early late =>
    early.update.underlying = late.update.underlying → early.ticket < late.ticket

namespace Ledger
variable {U : Upstream} {venue next : PriceVenue U} {journaled : List (Emit × Nat)} {action : PriceAction}

theorem new (microstructure : MicrostructureConfig) (capacity : Nat) (actors : String → Option (VenueActor U)) :
    Ledger (.new microstructure capacity actors) [] where
  durable := List.forall_mem_nil _
  ordered := List.Pairwise.nil
  waiting := List.Pairwise.nil
  behind := List.forall_mem_nil _
  counted := List.forall_mem_nil _
  numbered := List.forall_mem_nil _
  underWay := List.forall_mem_nil _
  published := List.forall_mem_nil _
  rising := List.Pairwise.nil

/-- Of two journaled steps of one underlying, the one with the lower ticket has the lower sequence. -/
theorem sequence_lt (ledger : Ledger venue journaled) {early late : Emit × Nat} (first : early ∈ journaled)
    (second : late ∈ journaled) (same : early.1.update.underlying = late.1.update.underlying)
    (lower : early.1.ticket < late.1.ticket) : early.2 < late.2 := by
  obtain ⟨front, back, rfl⟩ := List.append_of_mem first
  obtain ⟨-, behind, across⟩ := List.pairwise_append.1 ledger.ordered
  rcases List.mem_append.1 second with before | after
  · have higher := (across late before early (by simp)).1
    omega
  · rcases List.mem_cons.1 after with rfl | later
    · omega
    · exact ((List.pairwise_cons.1 behind).1 late later).2 same

/-- The published prices of one underlying, with the sequences of their steps. -/
theorem journaledFirst (ledger : Ledger venue journaled) : JournaledFirst venue := by
  intro underlying
  have listed : ∀ emits : List Emit, (∀ emit ∈ emits, emit.update.underlying = underlying ∧
      ∃ sequence, (emit, sequence) ∈ journaled) → emits.Pairwise (fun early late => early.ticket < late.ticket) →
      ∃ sequences : List Nat, sequences.Pairwise (· < ·) ∧
        List.Forall₂ (fun emit sequence => emit.update.underlying = underlying ∧ (emit, sequence) ∈ journaled) emits
          sequences := by
    intro emits known rising
    induction emits with
    | nil => exact ⟨[], List.Pairwise.nil, .nil⟩
    | cons emit rest ih =>
      obtain ⟨⟨here, sequence, entered⟩, others⟩ := List.forall_mem_cons.1 known
      obtain ⟨lower, later⟩ := List.pairwise_cons.1 rising
      obtain ⟨sequences, ascending, matched⟩ := ih others later
      refine ⟨sequence :: sequences, List.pairwise_cons.2 ⟨fun other member => ?_, ascending⟩, .cons ⟨here, entered⟩ matched⟩
      obtain ⟨position, bound, rfl⟩ := List.mem_iff_getElem.1 member
      have short : position < rest.length := matched.length_eq ▸ bound
      have entry := (List.forall₂_iff_get.1 matched).2 position short bound
      exact ledger.sequence_lt entered entry.2 (here.trans entry.1.symm)
        (lower _ (List.getElem_mem short))
  obtain ⟨sequences, ascending, matched⟩ := listed (venue.published.filter fun emit => emit.update.underlying = underlying)
    (fun emit member => by
      obtain ⟨shown, here⟩ := List.mem_filter.1 member
      exact ⟨of_decide_eq_true here, ledger.published emit shown⟩)
    (by
      have filtered := ledger.rising.filter fun emit => emit.update.underlying = underlying
      refine filtered.imp_of_mem fun first second lower => lower ?_
      rw [of_decide_eq_true (List.mem_filter.1 first).2, of_decide_eq_true (List.mem_filter.1 second).2])
  refine ⟨sequences, ascending, ?_⟩
  unfold PriceVenue.publishedOn
  rw [List.forall₂_map_left_iff]
  refine List.Forall₂.imp ?_ matched
  rintro emit sequence ⟨here, entry⟩
  obtain ⟨actor, hosted, durable, -⟩ := ledger.durable _ entry
  have hosted : venue.actors underlying = some actor := here ▸ hosted
  unfold PriceVenue.records
  rw [hosted]
  exact durable

/-- A turn of an actor, whatever it is of, keeps what is journaled. -/
theorem handled (ledger : Ledger venue journaled) {underlying : String} {actor : VenueActor U}
    (hosted : venue.actors underlying = some actor) (input : Submission) :
    Ledger (venue.handled underlying actor input) journaled where
  durable := by
    intro entry member
    obtain ⟨owner, owned, ⟨venueTs, durable⟩, past⟩ := ledger.durable entry member
    unfold PriceVenue.handled
    dsimp only
    by_cases here : entry.1.update.underlying = underlying
    · rw [here, hosted] at owned
      cases owned
      obtain ⟨kept, passed⟩ := actor.handle_keeps input
      refine ⟨(actor.handle input).2, ?_, ⟨venueTs, kept _ durable⟩, passed _ past⟩
      rw [here, Function.update_self]
    · refine ⟨owner, ?_, ⟨venueTs, durable⟩, past⟩
      rw [Function.update_of_ne here, owned]
  ordered := ledger.ordered
  waiting := ledger.waiting
  behind := ledger.behind
  counted := ledger.counted
  numbered := ledger.numbered
  underWay := ledger.underWay
  published := ledger.published
  rising := ledger.rising

theorem applyStep (ledger : Ledger venue journaled) (update : PriceUpdate) : Ledger (venue.applyStep update) journaled := by
  unfold PriceVenue.applyStep
  split
  · exact ledger
  · split
    · have fresh : ∀ emit ∈ venue.submitted.toList ++ venue.queue ++ [⟨venue.admissions, update⟩],
          emit ∈ venue.submitted.toList ++ venue.queue ∨ emit = ⟨venue.admissions, update⟩ :=
        fun emit member => (List.mem_append.1 member).imp_right List.mem_singleton.1
      refine { ledger with waiting := ?_, behind := ?_, counted := ?_, numbered := ?_, underWay := ?_ }
      · rw [← List.append_assoc]
        refine List.pairwise_append.2 ⟨ledger.waiting, List.pairwise_singleton _ _, fun early first late second => ?_⟩
        rw [List.mem_singleton.1 second]
        exact ledger.counted early first
      · rw [← List.append_assoc]
        intro entry member emit queued
        rcases fresh emit queued with old | rfl
        · exact ledger.behind entry member emit old
        · exact ledger.numbered entry member
      · rw [← List.append_assoc]
        intro emit queued
        rcases fresh emit queued with old | rfl
        · exact Nat.lt_succ_of_lt (ledger.counted emit old)
        · exact Nat.lt_succ_self _
      · exact fun entry member => Nat.lt_succ_of_lt (ledger.numbered entry member)
      · intro emit member
        rcases List.mem_append.1 member with old | new
        · exact (ledger.underWay emit old).imp_left fun queued => List.mem_append_left _ queued
        · exact Or.inl (List.mem_append_right _ new)
    · exact ledger

/-- A price that is published once its step is concluded. -/
theorem publish (ledger : Ledger venue journaled) {position : Nat} {emit : Emit}
    (present : venue.emitting[position]? = some emit) (concluded : Concluded venue emit) :
    Ledger { venue with emitting := venue.emitting.eraseIdx position, published := venue.published ++ [emit] } journaled := by
  have entered : ∃ sequence, (emit, sequence) ∈ journaled := by
    rcases ledger.underWay emit (List.mem_of_getElem? present) with queued | submitted | dropped | entered
    · exact absurd queued concluded.forwarded
    · exact absurd submitted concluded.answered
    · exact absurd dropped concluded.kept
    · exact entered
  refine { ledger with underWay := ?_, published := ?_, rising := ?_ }
  · exact fun other member => ledger.underWay other (List.eraseIdx_subset member)
  · intro other member
    rcases List.mem_append.1 member with old | new
    · exact ledger.published other old
    · exact List.mem_singleton.1 new ▸ entered
  · refine List.pairwise_append.2 ⟨ledger.rising, List.pairwise_singleton _ _, fun early first late second same => ?_⟩
    rw [List.mem_singleton.1 second] at same ⊢
    exact concluded.rising early first same

theorem forwarded (ledger : Ledger venue journaled) {emit : Emit} {rest : List Emit} (free : venue.submitted = none)
    (queued : venue.queue = emit :: rest) : Ledger (venue.forwarded emit rest) journaled := by
  obtain ⟨-, -, waiting, behind, counted, -, underWay, -, -⟩ := id ledger
  rw [free, queued] at waiting behind counted
  unfold PriceVenue.forwarded
  split
  · refine { ledger with waiting := ?_, behind := ?_, counted := ?_, underWay := ?_ }
    · rw [free]
      exact (List.pairwise_cons.1 waiting).2
    · rw [free]
      exact fun entry member => (List.forall_mem_cons.1 (behind entry member)).2
    · rw [free]
      exact (List.forall_mem_cons.1 counted).2
    · intro other member
      rcases underWay other member with here | submitted | dropped | entered
      · rw [queued] at here
        rcases List.mem_cons.1 here with rfl | later
        · exact Or.inr (Or.inr (Or.inl (by simp)))
        · exact Or.inl later
      · exact Or.inr (Or.inl submitted)
      · exact Or.inr (Or.inr (Or.inl (List.mem_append_left _ dropped)))
      · exact Or.inr (Or.inr (Or.inr entered))
  · refine { ledger with waiting := waiting, behind := behind, counted := counted, underWay := ?_ }
    intro other member
    rcases underWay other member with here | submitted | ended
    · rw [queued] at here
      rcases List.mem_cons.1 here with rfl | later
      · exact Or.inr (Or.inl rfl)
      · exact Or.inl later
    · rw [free] at submitted
      cases submitted
    · exact Or.inr (Or.inr ended)

/-- The submitted step is answered: it is dropped or journaled, and the queue comes after it. -/
theorem answered (ledger : Ledger venue journaled) {emit : Emit} (held : venue.submitted = some emit)
    {dropped : List Nat} {entries : List (Emit × Nat)} (kept : ∀ ticket ∈ venue.dropped, ticket ∈ dropped)
    (durable : ∀ entry ∈ journaled ++ entries, ∃ actor, venue.actors entry.1.update.underlying = some actor ∧
      Journaled actor.journal.records entry.1.update entry.2 ∧ actor.Past entry.2)
    (ordered : (journaled ++ entries).Pairwise fun early late => early.1.ticket < late.1.ticket ∧
      (early.1.update.underlying = late.1.update.underlying → early.2 < late.2))
    (only : ∀ entry ∈ entries, entry.1 = emit)
    (ended : emit.ticket ∈ dropped ∨ ∃ sequence, (emit, sequence) ∈ entries) :
    Ledger { venue with submitted := none, dropped := dropped } (journaled ++ entries) := by
  obtain ⟨-, -, waiting, behind, counted, numbered, underWay, published, rising⟩ := id ledger
  rw [held] at waiting behind counted
  obtain ⟨lower, later⟩ := List.pairwise_cons.1 waiting
  constructor
  · exact durable
  · exact ordered
  · exact later
  · intro entry member other queued
    rcases List.mem_append.1 member with old | new
    · exact behind entry old other (List.mem_cons_of_mem _ queued)
    · rw [only entry new]
      exact lower other queued
  · exact (List.forall_mem_cons.1 counted).2
  · intro entry member
    rcases List.mem_append.1 member with old | new
    · exact numbered entry old
    · rw [only entry new]
      exact (List.forall_mem_cons.1 counted).1
  · intro other member
    rcases underWay other member with queued | submitted | gone | ⟨sequence, entered⟩
    · exact Or.inl queued
    · rw [held] at submitted
      cases submitted
      rcases ended with gone | ⟨sequence, entered⟩
      · exact Or.inr (Or.inr (Or.inl gone))
      · exact Or.inr (Or.inr (Or.inr ⟨sequence, List.mem_append_right _ entered⟩))
    · exact Or.inr (Or.inr (Or.inl (kept _ gone)))
    · exact Or.inr (Or.inr (Or.inr ⟨sequence, List.mem_append_left _ entered⟩))
  · intro other member
    obtain ⟨sequence, entered⟩ := published other member
    exact ⟨sequence, List.mem_append_left _ entered⟩
  · exact rising

/-- A dropped step. -/
theorem refused (ledger : Ledger venue journaled) {emit : Emit} (held : venue.submitted = some emit) :
    Ledger { venue with submitted := none, dropped := venue.dropped ++ [emit.ticket] } journaled := by
  have unchanged := List.append_nil journaled
  have after : Ledger { venue with submitted := none, dropped := venue.dropped ++ [emit.ticket] } (journaled ++ []) :=
    ledger.answered held (fun _ gone => List.mem_append_left _ gone) (unchanged.symm ▸ ledger.durable)
      (unchanged.symm ▸ ledger.ordered) (List.forall_mem_nil _)
      (Or.inl (List.mem_append_right _ (List.mem_singleton_self _)))
  rwa [unchanged] at after

/-- The turn of the submitted step: journaled behind every other, or dropped. -/
theorem taken (ledger : Ledger venue journaled) {emit : Emit} (held : venue.submitted = some emit) {actor : VenueActor U}
    (hosted : venue.actors emit.update.underlying = some actor) {venueTs : Nat}
    (rivalFree : actor.journal.RivalFree (actor.envelope ⟨venueTs, emit.update.step⟩)) :
    ∃ entries, Ledger (venue.taken emit actor venueTs) (journaled ++ entries) := by
  have after := ledger.handled hosted ⟨venueTs, emit.update.step⟩
  unfold PriceVenue.taken
  dsimp only
  split
  next kept =>
    obtain ⟨opened, committed⟩ := kept
    obtain ⟨durable, past⟩ := UnderlyingActor.handle_commits opened committed rivalFree
    refine ⟨[(emit, actor.nextSequence)], after.answered held (fun _ gone => gone) ?_ ?_ ?_ ?_⟩
    · intro entry member
      rcases List.mem_append.1 member with old | new
      · exact after.durable entry old
      · rw [List.mem_singleton.1 new]
        exact ⟨_, Function.update_self .., ⟨venueTs, durable⟩, past⟩
    · refine List.pairwise_append.2 ⟨ledger.ordered, List.pairwise_singleton _ _, fun early first late second => ?_⟩
      rw [List.mem_singleton.1 second]
      refine ⟨ledger.behind early first emit ?_, fun same => ?_⟩
      · simp [held]
      · -- the earlier step of this underlying is past at its actor, so its sequence is lower
        obtain ⟨owner, owned, -, behind⟩ := ledger.durable early first
        have own : owner = actor := Option.some.inj (owned.symm.trans ((congrArg venue.actors same).trans hosted))
        exact own ▸ behind (own ▸ opened)
    · exact fun entry member => congrArg Prod.fst (List.mem_singleton.1 member)
    · exact Or.inr ⟨_, List.mem_singleton_self _⟩
  next => exact ⟨[], (List.append_nil journaled).symm ▸ after.refused held⟩

/-- The shutdown drops what waits in the queue. -/
theorem stopped (ledger : Ledger venue journaled) : Ledger
    { venue with running := false, queue := [], dropped := venue.dropped ++ venue.queue.map Emit.ticket } journaled := by
  have front : ∀ emit ∈ venue.submitted.toList ++ [], emit ∈ venue.submitted.toList ++ venue.queue :=
    fun emit member => List.mem_append_left _ ((List.append_nil venue.submitted.toList) ▸ member)
  refine { ledger with waiting := ?_, behind := ?_, counted := ?_, underWay := ?_ }
  · rw [List.append_nil]
    exact (List.pairwise_append.1 ledger.waiting).1
  · exact fun entry member emit queued => ledger.behind entry member emit (front emit queued)
  · exact fun emit queued => ledger.counted emit (front emit queued)
  · intro emit member
    rcases ledger.underWay emit member with queued | submitted | gone | entered
    · exact Or.inr (Or.inr (Or.inl (List.mem_append_right _ (List.mem_map_of_mem queued))))
    · exact Or.inr (Or.inl submitted)
    · exact Or.inr (Or.inr (Or.inl (List.mem_append_left _ gone)))
    · exact Or.inr (Or.inr (Or.inr entered))

/-- Every step keeps the ledger, with what it journals. -/
theorem step (ledger : Ledger venue journaled) (awaits : Awaits venue action) (taken : venue.step action = some next) :
    ∃ journaled, Ledger next journaled := by
  cases action with
  | apply update =>
    cases taken
    exact ⟨journaled, ledger.applyStep update⟩
  | publish position =>
    obtain ⟨emit, present, rfl⟩ := Option.map_eq_some_iff.1 taken
    exact ⟨journaled, ledger.publish present (awaits emit present)⟩
  | forward =>
    unfold PriceVenue.step at taken
    dsimp only at taken
    split at taken
    next emit rest running free queued =>
      cases taken
      exact ⟨journaled, ledger.forwarded free queued⟩
    next => cases taken
  | refuse =>
    obtain ⟨emit, held, rfl⟩ := Option.map_eq_some_iff.1 taken
    exact ⟨journaled, ledger.refused held⟩
  | turn venueTs =>
    unfold PriceVenue.step at taken
    dsimp only at taken
    split at taken
    next => cases taken
    next emit held =>
      obtain ⟨actor, hosted, rfl⟩ := Option.map_eq_some_iff.1 taken
      obtain ⟨entries, after⟩ := ledger.taken held hosted (awaits emit held actor hosted)
      exact ⟨_, after⟩
  | other underlying venueTs command =>
    obtain ⟨actor, hosted, rfl⟩ := Option.map_eq_some_iff.1 taken
    exact ⟨journaled, ledger.handled hosted _⟩
  | stop =>
    cases taken
    exact ⟨journaled, ledger.stopped⟩

end Ledger

/-- In every run where an emit publishes once its step is concluded, each published price has its step journaled before,
and the prices of an underlying are published in the order of its journaled steps. -/
theorem prices_journaledFirst {U : Upstream} (microstructure : MicrostructureConfig) (capacity : Nat)
    (actors : String → Option (VenueActor U)) (actions : List PriceAction)
    (awaiting : Throughout PriceVenue.step Awaits (.new microstructure capacity actors) actions) {venue : PriceVenue U}
    (run : runFrom PriceVenue.step (.new microstructure capacity actors) actions = some venue) : JournaledFirst venue := by
  have preserved : ∀ (venue : PriceVenue U) action next, (∃ journaled, Ledger venue journaled) → Awaits venue action →
      venue.step action = some next → ∃ journaled, Ledger next journaled :=
    fun _ _ _ ⟨_, ledger⟩ awaits taken => ledger.step awaits taken
  obtain ⟨journaled, ledger⟩ := runFrom_invariant preserved ⟨[], .new microstructure capacity actors⟩ awaiting run
  exact ledger.journaledFirst

/-- A venue that hosts one fresh underlying. -/
def steppingActor (underlying : String) : Option (VenueActor referenceUpstream) :=
  if underlying = "BTC" then
    some
      { underlying := "BTC", lineageId := "run-1", journal := ⟨⟨[], []⟩, []⟩
        executor := freshExecutor referenceUpstream "BTC" none none fun _ _ => Equiv.refl _
        fanOut := .new referenceUpstream, nextSequence := 0, epoch := 0, sealed := none, clordidIndex := none }
  else none

def steppingVenue : PriceVenue referenceUpstream := .new .default 4096 steppingActor

def steppedPrice : PriceUpdate := ⟨"BTC", 5000000, 1000⟩

/-- The mailbox is full when the forwarder submits the step, and the price is out. -/
theorem dropped_step_published : ∃ venue,
    runFrom PriceVenue.step steppingVenue [.apply steppedPrice, .forward, .refuse, .publish 0] = some venue ∧
      ¬ JournaledFirst venue := by
  have dropped : (runFrom PriceVenue.step steppingVenue [.apply steppedPrice, .forward, .refuse, .publish 0]).map
      (fun venue => decide (venue.publishedOn "BTC" = [steppedPrice] ∧ venue.records "BTC" = [])) = some true := by
    decide +kernel
  obtain ⟨venue, run, same⟩ := Option.map_eq_some_iff.1 dropped
  obtain ⟨out, empty⟩ := of_decide_eq_true same
  refine ⟨venue, run, fun first => ?_⟩
  obtain ⟨sequences, -, matched⟩ := first "BTC"
  rw [out, empty] at matched
  cases matched with
  | cons journaled _ =>
    obtain ⟨venueTs, durable⟩ := journaled
    cases durable

/-- The price is published once its step is journaled. -/
theorem journaled_step_published : ∃ venue,
    runFrom PriceVenue.step steppingVenue [.apply steppedPrice, .forward, .turn 1000, .publish 0] = some venue ∧
      venue.publishedOn "BTC" = [steppedPrice] ∧ JournaledFirst venue := by
  have stepped : (runFrom PriceVenue.step steppingVenue [.apply steppedPrice, .forward, .turn 1000, .publish 0]).map
      (fun venue => decide (venue.publishedOn "BTC" = [steppedPrice])) = some true := by decide +kernel
  obtain ⟨venue, run, same⟩ := Option.map_eq_some_iff.1 stepped
  exact ⟨venue, run, of_decide_eq_true same, prices_journaledFirst .default 4096 steppingActor _ (by decide +kernel) run⟩

end Fauxchange.Simulation
