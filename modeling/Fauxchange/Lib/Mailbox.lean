import Fauxchange.Lib.GuardedRuns
import Mathlib.Data.List.Basic

/-! A server behind a bounded mailbox. Callers put messages in, one loop takes them out and answers them, and the owner may
ask the loop to stop: it then refuses what it has not begun. In whatever order all this happens, the answers are those of the
messages one after another, up to where the loop was stopped. -/

namespace Fauxchange.Lib

/-- What a turn does with a message, the answer to one that is not begun any more, and the size of the mailbox. -/
structure MailboxServer (S I M R : Type) where
  turn : S → I → M → R × S
  refuse : M → R
  capacity : Nat

/-- Why a message is turned away: no room, or no loop to take it, which the owner has stopped or not. -/
inductive TurnedAway where
  | full
  | closed (cancelled : Bool)
  deriving DecidableEq, Repr

structure Mailbox (S M R : Type) where
  state : S
  queue : List M
  /-- The message that the loop has taken out and not begun. -/
  hand : Option M
  cancelled : Bool
  closed : Bool
  stopped : Bool
  /-- Whether any caller can still reach the mailbox. -/
  reachable : Bool
  accepted : List M
  answers : List R
  turnedAway : List (M × TurnedAway)

/-- Steps of the callers and the owner, and of the loop. -/
inductive MailboxStep (I M : Type) where
  | send (message : M)
  | hangUp
  | cancel
  | receive
  | turn (input : I)
  | close
  | drain
  | stop
  deriving DecidableEq

/-- The steps of the loop. -/
def MailboxStep.own {I M : Type} : MailboxStep I M → Bool
  | .send _ | .hangUp | .cancel => false
  | _ => true

namespace Mailbox
variable {S I M R : Type}

def opened (state : S) : Mailbox S M R := ⟨state, [], none, false, false, false, true, [], [], []⟩

/-- What has been accepted and not answered. -/
def waiting (box : Mailbox S M R) : List M := box.hand.toList ++ box.queue

end Mailbox

namespace MailboxServer
variable {S I M R : Type} (server : MailboxServer S I M R)

def send (box : Mailbox S M R) (message : M) : Mailbox S M R :=
  if box.closed then { box with turnedAway := box.turnedAway ++ [(message, .closed box.cancelled)] }
  else if server.capacity ≤ box.queue.length then { box with turnedAway := box.turnedAway ++ [(message, .full)] }
  else { box with queue := box.queue ++ [message], accepted := box.accepted ++ [message] }

/-- The loop asks once more whether it is stopped before it begins a message. -/
def begun (box : Mailbox S M R) (input : I) (message : M) : Mailbox S M R :=
  if box.cancelled then { box with hand := none, answers := box.answers ++ [server.refuse message] }
  else
    let turned := server.turn box.state input message
    { box with hand := none, state := turned.2, answers := box.answers ++ [turned.1] }

def step (box : Mailbox S M R) : MailboxStep I M → Option (Mailbox S M R)
  | .send message => if box.reachable then some (server.send box message) else none
  | .hangUp => some { box with reachable := false }
  | .cancel => some { box with cancelled := true }
  | .receive =>
    match box.hand, box.queue with
    | none, message :: rest => if box.closed then none else some { box with hand := some message, queue := rest }
    | _, _ => none
  | .turn input => box.hand.map (server.begun box input)
  | .close => if box.hand.isNone ∧ box.cancelled ∧ ¬ box.closed then some { box with closed := true } else none
  | .drain =>
    match box.queue with
    | message :: rest =>
      if box.closed then some { box with queue := rest, answers := box.answers ++ [server.refuse message] } else none
    | [] => none
  | .stop =>
    if box.waiting.isEmpty ∧ (box.closed ∨ ¬ box.reachable) then some { box with closed := true, stopped := true } else none

/-- Messages one after another, each with what its turn reads. -/
def serve (state : S) : List (I × M) → List R × S
  | [] => ([], state)
  | (input, message) :: rest =>
    let turned := server.turn state input message
    let later := serve turned.2 rest
    (turned.1 :: later.1, later.2)

theorem serve_append (state : S) (early late : List (I × M)) :
    server.serve state (early ++ late) =
      ((server.serve state early).1 ++ (server.serve (server.serve state early).2 late).1,
        (server.serve (server.serve state early).2 late).2) := by
  induction early generalizing state with
  | nil => rfl
  | cons entry rest ih =>
    obtain ⟨input, message⟩ := entry
    simp only [List.cons_append, serve, ih]

theorem serve_length (state : S) (entries : List (I × M)) : (server.serve state entries).1.length = entries.length := by
  induction entries generalizing state with
  | nil => rfl
  | cons entry rest ih => exact congrArg (· + 1) (ih _)

/-- The answer to one message is that of its turn after all before it. -/
theorem serve_at (state : S) (before after : List (I × M)) (input : I) (message : M) :
    (server.serve state (before ++ (input, message) :: after)).1[before.length]? =
      some (server.turn (server.serve state before).2 input message).1 := by
  rw [serve_append, ← server.serve_length state before, List.getElem?_append_right (Nat.le_refl _), Nat.sub_self]
  rfl

variable {server} {start : S} {box next : Mailbox S M R} {served : List (I × M)} {refused : List M}

/-- The messages that were accepted are, in their order, those served one after another, those refused once the loop was
asked to stop, and those that wait. -/
structure Linearized (server : MailboxServer S I M R) (start : S) (box : Mailbox S M R) (served : List (I × M)) (refused : List M) :
    Prop where
  accepted : box.accepted = served.map Prod.snd ++ refused ++ box.waiting
  answers : box.answers = (server.serve start served).1 ++ refused.map server.refuse
  state : box.state = (server.serve start served).2
  refusing : refused ≠ [] → box.cancelled = true
  room : box.queue.length ≤ server.capacity
  away : ∀ entry ∈ box.turnedAway, entry.2 = .full ∨ entry.2 = .closed true
  closed : box.closed = true → box.hand = none ∧ (box.cancelled = true ∨ box.reachable = false ∧ box.queue = [])
  stopped : box.stopped = true → box.closed = true ∧ box.queue = []

theorem linearized_opened (start : S) : server.Linearized start (.opened start) [] [] where
  accepted := rfl
  answers := rfl
  state := rfl
  refusing := by simp
  room := Nat.zero_le _
  away := by simp [Mailbox.opened]
  closed := by simp [Mailbox.opened]
  stopped := by simp [Mailbox.opened]

namespace Linearized

theorem send (linear : server.Linearized start box served refused) (reachable : box.reachable = true) (message : M) :
    server.Linearized start (server.send box message) served refused := by
  unfold MailboxServer.send
  split
  next shut =>
    have cancelled : box.cancelled = true := (linear.closed shut).2.resolve_right fun alone => nomatch reachable.symm.trans alone.1
    refine { linear with away := fun entry member => ?_ }
    rcases List.mem_append.1 member with old | new
    · exact linear.away entry old
    · rw [List.mem_singleton.1 new, cancelled]
      exact Or.inr rfl
  next shut =>
    split
    next =>
      refine { linear with away := fun entry member => ?_ }
      rcases List.mem_append.1 member with old | new
      · exact linear.away entry old
      · rw [List.mem_singleton.1 new]
        exact Or.inl rfl
    next room =>
      refine { linear with
        accepted := ?_, room := ?_, closed := fun closed => absurd closed shut
        stopped := fun stopped => absurd (linear.stopped stopped).1 shut }
      · have before := linear.accepted
        unfold Mailbox.waiting at before ⊢
        dsimp only
        rw [before]
        simp only [List.append_assoc]
      · dsimp only
        rw [List.length_append, List.length_singleton]
        omega

/-- A message that is begun is served if none before it was refused. -/
theorem begun (linear : server.Linearized start box served refused) (input : I) {message : M} (held : box.hand = some message) :
    ∃ served refused, server.Linearized start (server.begun box input message) served refused := by
  have accepted : box.accepted = served.map Prod.snd ++ refused ++ message :: box.queue := by
    rw [linear.accepted, Mailbox.waiting, held]
    rfl
  have running : box.closed = true → False := fun shut => nomatch held.symm.trans (linear.closed shut).1
  unfold MailboxServer.begun
  split
  next cancelled =>
    refine ⟨served, refused ++ [message], { linear with
      accepted := ?_, answers := ?_, refusing := fun _ => cancelled, closed := fun shut => (running shut).elim }⟩
    · rw [accepted]
      simp [Mailbox.waiting]
    · rw [linear.answers, List.map_append, List.append_assoc]
      rfl
  next going =>
    have none : refused = [] := by
      by_contra some
      exact going (linear.refusing some)
    subst none
    refine ⟨served ++ [(input, message)], [], { linear with
      accepted := ?_, answers := ?_, state := ?_, refusing := fun some => absurd rfl some, closed := fun shut => (running shut).elim }⟩
    · rw [accepted]
      simp [Mailbox.waiting]
    · rw [linear.answers, serve_append, linear.state]
      simp [serve]
    · rw [serve_append, linear.state]
      rfl

theorem step {action : MailboxStep I M} (linear : server.Linearized start box served refused)
    (taken : server.step box action = some next) : ∃ served refused, server.Linearized start next served refused := by
  cases action with
  | send message =>
    unfold MailboxServer.step at taken
    dsimp only at taken
    split at taken
    next reachable =>
      cases taken
      exact ⟨served, refused, linear.send reachable message⟩
    next => cases taken
  | hangUp =>
    cases taken
    exact ⟨served, refused, { linear with
      closed := fun shut => ⟨(linear.closed shut).1, (linear.closed shut).2.imp_right fun alone => ⟨rfl, alone.2⟩⟩ }⟩
  | cancel =>
    cases taken
    exact ⟨served, refused, { linear with
      refusing := fun _ => rfl, closed := fun shut => ⟨(linear.closed shut).1, Or.inl rfl⟩ }⟩
  | receive =>
    unfold MailboxServer.step at taken
    dsimp only at taken
    split at taken
    next message rest free queue =>
      split at taken
      next => cases taken
      next running =>
        cases taken
        refine ⟨served, refused, { linear with
          accepted := ?_
          room := ?_
          closed := fun shut => absurd shut running
          stopped := fun stopped => absurd (linear.stopped stopped).1 running }⟩
        · rw [linear.accepted, Mailbox.waiting, free, queue]
          rfl
        · have room := linear.room
          rw [queue, List.length_cons] at room
          exact Nat.le_of_succ_le room
    next => cases taken
  | turn input =>
    obtain ⟨message, held, rfl⟩ := Option.map_eq_some_iff.1 taken
    exact linear.begun input held
  | close =>
    unfold MailboxServer.step at taken
    dsimp only at taken
    split at taken
    next ready =>
      cases taken
      exact ⟨served, refused, { linear with
        closed := fun _ => ⟨Option.isNone_iff_eq_none.1 ready.1, Or.inl ready.2.1⟩
        stopped := fun stopped => ⟨rfl, (linear.stopped stopped).2⟩ }⟩
    next => cases taken
  | drain =>
    unfold MailboxServer.step at taken
    dsimp only at taken
    split at taken
    next message rest queue =>
      split at taken
      next shut =>
        cases taken
        obtain ⟨free, stopping⟩ := linear.closed shut
        have cancelled : box.cancelled = true := stopping.resolve_right fun alone => nomatch queue.symm.trans alone.2
        refine ⟨served, refused ++ [message], { linear with
          accepted := ?_, answers := ?_, refusing := fun _ => cancelled, room := ?_, closed := fun _ => ⟨free, Or.inl cancelled⟩
          stopped := fun stopped => nomatch queue.symm.trans (linear.stopped stopped).2 }⟩
        · rw [linear.accepted, Mailbox.waiting, free, queue]
          simp [Mailbox.waiting]
        · rw [linear.answers, List.map_append, List.append_assoc]
          rfl
        · have room := linear.room
          rw [queue, List.length_cons] at room
          exact Nat.le_of_succ_le room
      next => cases taken
    next => cases taken
  | stop =>
    unfold MailboxServer.step at taken
    dsimp only at taken
    split at taken
    next ready =>
      cases taken
      obtain ⟨empty, ending⟩ := ready
      obtain ⟨free, queue⟩ := List.append_eq_nil_iff.1 (List.isEmpty_iff.1 empty)
      have alone : box.cancelled = true ∨ box.reachable = false ∧ box.queue = [] := by
        rcases ending with shut | gone
        · exact (linear.closed shut).2
        · exact Or.inr ⟨Bool.eq_false_iff.2 gone, queue⟩
      exact ⟨served, refused, { linear with
        closed := fun _ => ⟨Option.toList_eq_nil_iff.1 free, alone⟩, stopped := fun _ => ⟨rfl, queue⟩ }⟩
    next => cases taken

theorem later {steps : List (MailboxStep I M)} {last : Mailbox S M R} (linear : server.Linearized start box served refused)
    (ran : runFrom server.step box steps = some last) : ∃ served refused, server.Linearized start last served refused := by
  let serial (box : Mailbox S M R) : Prop := ∃ served refused, server.Linearized start box served refused
  have preserved (box : Mailbox S M R) (action : MailboxStep I M) (next : Mailbox S M R) (before : serial box)
      (taken : server.step box action = some next) : serial next := by
    obtain ⟨served, refused, linear⟩ := before
    exact linear.step taken
  exact runFrom_preserved preserved ⟨served, refused, linear⟩ ran

/-- Whatever the callers, the owner and the loop do, the mailbox serves one message after another. -/
theorem run {steps : List (MailboxStep I M)} (ran : runFrom server.step (.opened start) steps = some box) :
    ∃ served refused, server.Linearized start box served refused := (linearized_opened start).later ran

/-- A loop that has stopped has answered everything that was accepted. -/
theorem answered (linear : server.Linearized start box served refused) (stopped : box.stopped = true) :
    box.accepted = served.map Prod.snd ++ refused ∧ box.answers.length = box.accepted.length := by
  obtain ⟨shut, queue⟩ := linear.stopped stopped
  have whole : box.accepted = served.map Prod.snd ++ refused := by
    rw [linear.accepted, Mailbox.waiting, (linear.closed shut).1, queue]
    exact List.append_nil _
  refine ⟨whole, ?_⟩
  rw [whole, linear.answers, List.length_append, List.length_append, List.length_map, List.length_map, serve_length]

end Linearized

/-- Once the loop is asked to stop, nothing is served any more. -/
theorem step_still {action : MailboxStep I M} (cancelled : box.cancelled = true) (taken : server.step box action = some next) :
    next.state = box.state ∧ next.cancelled = true := by
  cases action with
  | hangUp | cancel =>
    cases taken
    exact ⟨rfl, by simp [cancelled]⟩
  | turn input =>
    obtain ⟨message, -, rfl⟩ := Option.map_eq_some_iff.1 taken
    unfold begun
    rw [if_pos cancelled]
    exact ⟨rfl, cancelled⟩
  | send message =>
    unfold MailboxServer.step at taken
    dsimp only at taken
    split at taken
    next =>
      cases taken
      unfold send
      split
      next => exact ⟨rfl, cancelled⟩
      next =>
        split
        next => exact ⟨rfl, cancelled⟩
        next => exact ⟨rfl, cancelled⟩
    next => cases taken
  | receive | drain =>
    unfold MailboxServer.step at taken
    dsimp only at taken
    split at taken
    next =>
      split at taken
      all_goals
        cases taken
        try exact ⟨rfl, cancelled⟩
    next => cases taken
  | close | stop =>
    unfold MailboxServer.step at taken
    dsimp only at taken
    split at taken
    next =>
      cases taken
      exact ⟨rfl, cancelled⟩
    next => cases taken

theorem run_still {steps : List (MailboxStep I M)} {last : Mailbox S M R} (cancelled : box.cancelled = true)
    (ran : runFrom server.step box steps = some last) : last.state = box.state ∧ last.cancelled = true := by
  let still (middle : Mailbox S M R) : Prop := middle.state = box.state ∧ middle.cancelled = true
  have preserved (middle : Mailbox S M R) (action : MailboxStep I M) (next : Mailbox S M R) (before : still middle)
      (taken : server.step middle action = some next) : still next := by
    obtain ⟨same, later⟩ := step_still before.2 taken
    exact ⟨same.trans before.1, later⟩
  exact runFrom_preserved preserved ⟨rfl, cancelled⟩ ran

/-- What the loop does once it is closed: it drains the mailbox and stops. -/
def draining (I : Type) (box : Mailbox S M R) : List (MailboxStep I M) := List.replicate box.queue.length .drain ++ [.stop]

theorem own_of_draining {action : MailboxStep I M} (member : action ∈ draining I box) : action.own = true := by
  rcases List.mem_append.1 member with drains | stops
  · rw [List.eq_of_mem_replicate drains]
    rfl
  · rw [List.mem_singleton.1 stops]
    rfl

theorem drains (server : MailboxServer S I M R) (box : Mailbox S M R) (shut : box.closed = true) (free : box.hand = none) :
    ∃ last, runFrom server.step box (draining I box) = some last ∧ last.stopped = true := by
  unfold draining
  generalize waiting : box.queue = queue
  induction queue generalizing box with
  | nil =>
    refine ⟨{ box with closed := true, stopped := true }, ?_, rfl⟩
    simp [runFrom, step, Mailbox.waiting, waiting, free, shut]
  | cons message rest ih =>
    have drained : server.step box .drain = some { box with queue := rest, answers := box.answers ++ [server.refuse message] } := by
      simp only [step, waiting]
      rw [if_pos shut]
    obtain ⟨last, ran, stopped⟩ := ih { box with queue := rest, answers := box.answers ++ [server.refuse message] } shut free rfl
    refine ⟨last, ?_, stopped⟩
    rw [List.length_cons, List.replicate_succ, List.cons_append, runFrom, drained]
    exact ran

/-- From the select the loop takes up the owner's wish. -/
theorem closes (server : MailboxServer S I M R) (box : Mailbox S M R) (cancelled : box.cancelled = true) (free : box.hand = none) :
    ∃ steps last, (∀ action ∈ steps, action.own = true) ∧ runFrom server.step box steps = some last ∧ last.stopped = true := by
  by_cases shut : box.closed = true
  · obtain ⟨last, ran, stopped⟩ := drains server box shut free
    exact ⟨draining I box, last, fun _ => own_of_draining, ran, stopped⟩
  · obtain ⟨last, ran, stopped⟩ := drains server { box with closed := true } rfl free
    refine ⟨.close :: draining I box, last, ?_, ?_, stopped⟩
    · exact List.forall_mem_cons.2 ⟨rfl, fun _ => own_of_draining⟩
    · have closed : server.step box .close = some { box with closed := true } := by
        simp [step, free, cancelled, shut]
      rw [runFrom, closed]
      exact ran

/-- A loop that is asked to stop can: it refuses what it has in hand and what waits. -/
theorem settles (server : MailboxServer S I M R) (box : Mailbox S M R) (input : I) (cancelled : box.cancelled = true) :
    ∃ steps last, (∀ action ∈ steps, action.own = true) ∧ runFrom server.step box steps = some last ∧ last.stopped = true := by
  cases held : box.hand with
  | none => exact closes server box cancelled held
  | some message =>
    have refused : server.step box (.turn input) = some { box with hand := none, answers := box.answers ++ [server.refuse message] } := by
      simp [step, held, begun, cancelled]
    obtain ⟨steps, last, own, ran, stopped⟩ := closes server
      { box with hand := none, answers := box.answers ++ [server.refuse message] } cancelled rfl
    refine ⟨.turn input :: steps, last, List.forall_mem_cons.2 ⟨rfl, own⟩, ?_, stopped⟩
    rw [runFrom, refused]
    exact ran

end MailboxServer

end Fauxchange.Lib
