import Fauxchange.Ws.Subscriptions

/-! What one step of a socket's loop does to the streams of its client. -/

namespace Fauxchange.Ws
open Lib MarketData
open Exchange hiding VenueError
open Fauxchange.Fix (VenueError Renormal)
open Connection (Sound Subscribes Filters)

/-- Whether a reply belongs to a stream: a message of the market, or the mark of a loss. -/
def Reply.streams : Reply → Bool
  | .market _ | .resync .. => true
  | _ => false

def streamed (replies : List Reply) : List Reply := replies.filter Reply.streams

theorem streamed_append (early late : List Reply) : streamed (early ++ late) = streamed early ++ streamed late := List.filter_append ..

theorem streamed_mute {replies : List Reply} (mute : ∀ reply ∈ replies, reply.streams = false) : streamed replies = [] :=
  List.filter_eq_nil_iff.2 fun reply member => by simp [mute reply member]

theorem streamed_append_mute {replies late : List Reply} (mute : ∀ reply ∈ late, reply.streams = false) :
    streamed (replies ++ late) = streamed replies := by
  rw [streamed_append, streamed_mute mute, List.append_nil]

theorem deliverable_plain {replies : List Reply} (plain : ∀ reply ∈ replies, reply.terminal = false) : deliverable replies = replies := by
  induction replies with
  | nil => rfl
  | cons reply rest ih =>
    obtain ⟨first, later⟩ := List.forall_mem_cons.1 plain
    rw [deliverable, ih later, if_neg (by simp [first])]

theorem deliverable_subset (replies : List Reply) : deliverable replies ⊆ replies := by
  induction replies with
  | nil => exact List.Subset.refl _
  | cons reply rest ih =>
    unfold deliverable
    split
    next => exact List.cons_subset_cons _ (List.nil_subset _)
    next => exact List.cons_subset_cons _ ih

namespace Socket

/-- The subscriptions that a resync has not come to yet. -/
def awaited (socket : Socket) : List ((String × SubscriptionChannel) × Option Nat) :=
  match socket.task with
  | some (.resnapshotting rest) => rest
  | _ => []

/-- A socket in order: a resync goes through subscriptions, and the replies of a task do not close the socket. -/
structure Tidy (U : Upstream) (socket : Socket) : Prop where
  sound : Sound U socket.connection
  queued : ∀ item ∈ socket.awaited, socket.connection.subscriptions[item.1]? = some item.2
  plain : ∀ reply ∈ socket.out, reply.terminal = false
  idle : socket.task = none → socket.out = []

theorem tidy_opened (U : Upstream) (sent : List WsMessage) : Tidy U (opened sent) :=
  ⟨Connection.sound_new, nofun, List.forall_mem_nil _, fun _ => rfl⟩

/-- What one step does to the streams. -/
inductive Moved (U : Upstream) (capacity : Nat) (feed : Feed) (socket next : Socket) : Prop where
  | said (kept : streamed next.all = streamed socket.all) (same : next.connection = socket.connection)
      (place : next.position = socket.position) (awaited : next.awaited = socket.awaited)
  | subscribed (params : SubscribeParams) (replies : List Reply)
      (done : Subscribes U feed.manager socket.connection params replies next.connection)
      (grown : streamed next.all = streamed socket.all ++ streamed replies)
      (place : next.position = socket.position) (before : socket.awaited = []) (after : next.awaited = [])
  | unsubscribed (items : List SubscribeParams)
      (done : next.connection = items.foldl (fun connection item => (connection.unsubscribe U item.channel item.symbol).2) socket.connection)
      (kept : streamed next.all = streamed socket.all)
      (place : next.position = socket.position) (before : socket.awaited = []) (after : next.awaited = [])
  | pulled (message : WsMessage) (forward : Option WsMessage) (there : feed.sent[socket.position]? = some message)
      (near : feed.sent.length - socket.position ≤ capacity)
      (done : Filters socket.connection message forward next.connection)
      (grown : streamed next.all = streamed socket.all ++ (forward.map Reply.market).toList)
      (place : next.position = socket.position + 1) (before : socket.awaited = []) (after : next.awaited = [])
  | lagged (behind : socket.position < feed.sent.length) (far : capacity < feed.sent.length - socket.position)
      (kept : streamed next.all = streamed socket.all)
      (same : next.connection = socket.connection) (place : next.position = feed.sent.length - capacity)
      (before : socket.awaited = []) (after : next.awaited = socket.connection.subscriptions.toList)
  | resynced (item : (String × SubscriptionChannel) × Option Nat) (rest : List ((String × SubscriptionChannel) × Option Nat))
      (before : socket.awaited = item :: rest) (after : next.awaited = rest)
      (done : next.connection = (socket.connection.resnapshotItem U feed.manager item).2)
      (grown : streamed next.all = streamed socket.all ++ streamed (socket.connection.resnapshotItem U feed.manager item).1)
      (place : next.position = socket.position)

section Moves
variable {U : Upstream} {capacity : Nat} {feed : Feed} {manager : OrderbookSubscriptionManager} {socket : Socket}
  {connection : Connection} {params : SubscribeParams}

theorem awaited_idle (idle : socket.task = none) : socket.awaited = [] := by
  unfold awaited
  rw [idle]

theorem subscribes_plain {replies : List Reply} {after : Connection} (done : Subscribes U manager connection params replies after) :
    ∀ reply ∈ replies, reply.terminal = false := by
  cases done with
  | refused error plain => simpa [Reply.terminal] using plain
  | streamed => simp [Reply.terminal]
  | booked => simp [Reply.terminal]

theorem batchItem_streamed {replies : List Reply} {after : Connection} (done : Subscribes U manager connection params replies after) :
    streamed (replies.filter fun
      | .market (.orderbookSnapshot ..) | .error _ => true
      | _ => false) = streamed replies := by
  cases done with
  | refused error plain => rfl
  | streamed => rfl
  | booked => rfl

theorem resnapshotItem_plain (item : (String × SubscriptionChannel) × Option Nat) :
    ∀ reply ∈ (connection.resnapshotItem U manager item).1, reply.terminal = false := by
  unfold Connection.resnapshotItem
  split
  next =>
    split
    next => simp [Connection.snapshotAt, Reply.terminal]
    next => simp
  next => simp [resyncMarker, Reply.terminal]

/-- The count of idle ticks is apart from all this. -/
theorem Moved.awake {next : Socket} {ticks : Nat} (moved : Moved U capacity feed { socket with idleTicks := ticks } next) :
    Moved U capacity feed socket next := by
  cases moved with
  | said kept same place awaited => exact .said kept same place awaited
  | subscribed params replies done grown place before after => exact .subscribed params replies done grown place before after
  | unsubscribed items done kept place before after => exact .unsubscribed items done kept place before after
  | pulled message forward there near done grown place before after => exact .pulled message forward there near done grown place before after
  | lagged behind far kept same place before after => exact .lagged behind far kept same place before after
  | resynced item rest before after done grown place => exact .resynced item rest before after done grown place

variable (tidy : Tidy U socket)
include tidy

theorem Tidy.all_idle (idle : socket.task = none) : socket.all = socket.told := by
  unfold all
  rw [tidy.idle idle, List.append_nil]

/-- Replies that belong to no stream leave the socket as it is, alive or not. -/
theorem Tidy.mute (idle : socket.task = none) {messages : List Reply} (mute : ∀ reply ∈ messages, reply.streams = false) :
    Tidy U (socket.sendAll messages) ∧ Moved U capacity feed socket (socket.sendAll messages) := by
  refine ⟨⟨tidy.sound, tidy.queued, tidy.plain, tidy.idle⟩, .said ?_ rfl rfl rfl⟩
  have same : (socket.sendAll messages).all = socket.told ++ deliverable messages := by
    unfold all sendAll
    dsimp only
    rw [tidy.idle idle, List.append_nil]
  rw [same, tidy.all_idle idle, streamed_append_mute fun reply member => mute reply (deliverable_subset _ member)]

/-- The replies to a subscription that is carried out at once. -/
theorem Tidy.subscribing (idle : socket.task = none) (params : SubscribeParams) {answer : List Reply × Connection}
    (done : Subscribes U feed.manager socket.connection params answer.1 answer.2) (sound : Sound U answer.2) :
    Tidy U (socket.answering answer) ∧ Moved U capacity feed socket (socket.answering answer) := by
  refine ⟨⟨sound, ?_, tidy.plain, tidy.idle⟩, .subscribed params answer.1 done ?_ rfl (awaited_idle idle) (awaited_idle idle)⟩
  · intro item member
    rw [show (socket.answering _).awaited = [] from awaited_idle idle] at member
    cases member
  · unfold answering sendAll all
    dsimp only
    rw [tidy.idle idle, List.append_nil, List.append_nil, deliverable_plain (subscribes_plain done), streamed_append]

theorem Tidy.unsubscribing (idle : socket.task = none) (items : List SubscribeParams) {answer : List Reply × Connection}
    (done : answer.2 = items.foldl (fun connection item => (connection.unsubscribe U item.channel item.symbol).2) socket.connection)
    (sound : Sound U answer.2) (mute : ∀ reply ∈ answer.1, reply.streams = false) :
    Tidy U (socket.answering answer) ∧ Moved U capacity feed socket (socket.answering answer) := by
  refine ⟨⟨sound, ?_, tidy.plain, tidy.idle⟩, .unsubscribed items done ?_ rfl (awaited_idle idle) (awaited_idle idle)⟩
  · intro item member
    rw [show (socket.answering _).awaited = [] from awaited_idle idle] at member
    cases member
  · unfold answering sendAll all
    dsimp only
    rw [tidy.idle idle, List.append_nil, List.append_nil,
      streamed_append_mute fun reply member => mute reply (deliverable_subset _ member)]

/-- A client's frame. -/
theorem Tidy.framed (renormal : Renormal U) (idle : socket.task = none) (frame : FrameOutcome) :
    Tidy U (socket.onFrame U feed.manager frame) ∧ Moved U capacity feed socket (socket.onFrame U feed.manager frame) := by
  cases frame with
  | undecodable requestId message => exact tidy.mute idle (by simp [Reply.streams])
  | orderEntry requestId => exact tidy.mute idle (by simp [Reply.streams])
  | action action requestId =>
    cases action with
    | subscribe params =>
      exact tidy.subscribing idle params (Connection.subscribe_cases U feed.manager socket.connection params) (tidy.sound.subscribe renormal)
    | unsubscribe params =>
      exact tidy.unsubscribing idle [params] rfl (tidy.sound.unsubscribe params.symbol) (by simp [Connection.unsubscribe, Reply.streams])
    | batchSubscribe batch =>
      unfold onFrame onAction
      dsimp only
      split
      next => exact tidy.mute idle (by simp [Reply.streams])
      next => exact ⟨⟨tidy.sound, nofun, tidy.plain, fun _ => tidy.idle idle⟩, .said rfl rfl rfl (awaited_idle idle).symm⟩
    | batchUnsubscribe batch =>
      have kept := tidy.sound.batchUnsubscribe batch
      unfold onFrame onAction
      dsimp only
      unfold Connection.batchUnsubscribe at kept ⊢
      split
      next large =>
        rw [if_pos large] at kept
        exact tidy.unsubscribing idle [] rfl kept (by simp [Reply.streams])
      next small =>
        rw [if_neg small] at kept
        exact tidy.unsubscribing idle batch.subscriptions rfl kept (by simp [Reply.streams])
    | listSubscriptions => exact tidy.mute idle (by simp [Connection.listSubscriptions, Reply.streams])
    | control answer =>
      cases answer with
      | ok ack => exact tidy.mute idle (by simp [Reply.streams])
      | error error => exact tidy.mute idle (by simp [Reply.streams])

/-- A pull from the broadcast. -/
theorem Tidy.received {next : Socket} (idle : socket.task = none) (pulled : socket.receive capacity feed.sent = some next) :
    Tidy U next ∧ Moved U capacity feed socket next := by
  unfold receive at pulled
  split at pulled
  next => cases pulled
  next message there =>
    have behind : socket.position < feed.sent.length := (List.getElem?_eq_some_iff.1 there).1
    split at pulled
    next far =>
      cases pulled
      refine ⟨⟨tidy.sound, ?_, tidy.plain, nofun⟩, .lagged behind far rfl rfl rfl (awaited_idle idle) rfl⟩
      intro item member
      exact Std.ExtTreeMap.mem_toList_iff_getElem?_eq_some.1 member
    next near =>
      have done := Connection.filter_cases socket.connection message
      have sound := tidy.sound.filter message
      revert done sound pulled
      rcases socket.connection.filter message with ⟨forward, after⟩
      intro pulled done sound
      cases pulled
      refine ⟨⟨sound, ?_, tidy.plain, tidy.idle⟩,
        .pulled message _ there (Nat.le_of_not_lt near) done ?_ rfl (awaited_idle idle) (awaited_idle idle)⟩
      · intro item member
        have none := member
        unfold awaited at none
        rw [show _ = _ from idle] at none
        cases none
      · unfold all
        dsimp only
        rw [tidy.idle idle, List.append_nil, List.append_nil, streamed_append]
        congr 1
        cases forward with
        | none => rfl
        | some forward => rfl

/-- The next item of a task, or its end. -/
theorem Tidy.worked (renormal : Renormal U) {task : Task} (busy : socket.task = some task) :
    Tidy U (socket.work U feed.manager task) ∧ Moved U capacity feed socket (socket.work U feed.manager task) := by
  have flushed : deliverable socket.out = socket.out := deliverable_plain tidy.plain
  cases task with
  | subscribing requestId rest results =>
    have before : socket.awaited = [] := by
      unfold awaited
      rw [busy]
    cases rest with
    | nil =>
      have sent : deliverable (socket.out ++ [.batchSubscribed requestId results]) = socket.out ++ [.batchSubscribed requestId results] := by
        refine deliverable_plain fun reply member => ?_
        rcases List.mem_append.1 member with built | last
        · exact tidy.plain reply built
        · rw [List.mem_singleton.1 last]
          rfl
      refine ⟨⟨tidy.sound, List.forall_mem_nil _, List.forall_mem_nil _, fun _ => rfl⟩, .said ?_ rfl rfl before.symm⟩
      unfold work sendAll all
      dsimp only
      rw [sent, List.append_nil, ← List.append_assoc, streamed_append_mute (by simp [Reply.streams])]
    | cons item rest =>
      have done := Connection.subscribe_cases U feed.manager socket.connection item
      refine ⟨⟨tidy.sound.subscribe renormal, nofun, ?_, nofun⟩, .subscribed item _ done ?_ rfl before rfl⟩
      · intro reply member
        rcases List.mem_append.1 member with built | new
        · exact tidy.plain reply built
        · exact subscribes_plain done reply (List.mem_filter.1 new).1
      · unfold work all
        dsimp only
        rw [← List.append_assoc, streamed_append]
        exact congrArg _ (batchItem_streamed done)
  | resnapshotting rest =>
    have before : socket.awaited = rest := by
      unfold awaited
      rw [busy]
    cases rest with
    | nil =>
      refine ⟨⟨tidy.sound, List.forall_mem_nil _, List.forall_mem_nil _, fun _ => rfl⟩, .said ?_ rfl rfl before.symm⟩
      unfold work sendAll all
      dsimp only
      rw [flushed, List.append_nil]
    | cons item rest =>
      have held : ∀ other ∈ item :: rest, socket.connection.subscriptions[other.1]? = some other.2 := before ▸ tidy.queued
      have inside := Connection.mem_of_found (held item List.mem_cons_self)
      refine ⟨⟨tidy.sound.resnapshotItem inside, ?_, ?_, nofun⟩, .resynced item rest before rfl rfl ?_ rfl⟩
      · intro other member
        change (socket.connection.resnapshotItem U feed.manager item).2.subscriptions[other.1]? = some other.2
        rw [Connection.resnapshotItem_subscriptions]
        exact held other (List.mem_cons_of_mem _ member)
      · intro reply member
        rcases List.mem_append.1 member with built | new
        · exact tidy.plain reply built
        · exact resnapshotItem_plain item reply new
      · unfold work all
        dsimp only
        rw [← List.append_assoc, streamed_append]

/-- A heartbeat. -/
theorem Tidy.ticked (idle : socket.task = none) (revalidated : Except VenueError Unit) (timestamp : Nat) :
    Tidy U (socket.tick revalidated timestamp) ∧ Moved U capacity feed socket (socket.tick revalidated timestamp) := by
  have told (reply : Reply) (mute : reply.streams = false) :
      streamed (socket.told ++ [reply] ++ socket.out) = streamed socket.all := by
    rw [tidy.idle idle, List.append_nil, tidy.all_idle idle, streamed_append_mute (by simpa using mute)]
  unfold tick
  split
  next error => exact ⟨⟨tidy.sound, tidy.queued, tidy.plain, tidy.idle⟩, .said (told _ rfl) rfl rfl rfl⟩
  next =>
    dsimp only
    split
    next => exact ⟨⟨tidy.sound, tidy.queued, tidy.plain, tidy.idle⟩, .said rfl rfl rfl rfl⟩
    next => exact ⟨⟨tidy.sound, tidy.queued, tidy.plain, tidy.idle⟩, .said (told _ rfl) rfl rfl rfl⟩

end Moves

end Socket

namespace Watch
variable {U : Upstream} {capacity : Nat} {watch next : Watch} {step : SocketStep}

/-- The loop takes something up. -/
def Ready (watch : Watch) : Prop := watch.socket.live = true ∧ watch.socket.task = none

/-- What a step does where it can be taken. -/
inductive Taken (U : Upstream) (capacity : Nat) (watch : Watch) : SocketStep → Watch → Prop where
  | feed (fed : FeedStep) : Taken U capacity watch (.feed fed) { watch with history := watch.history ++ [fed] }
  | close : Taken U capacity watch .close { watch with socket := { watch.socket with live := false } }
  | work {task : Task} (live : watch.socket.live = true) (busy : watch.socket.task = some task) :
      Taken U capacity watch .work { watch with socket := watch.socket.work U (watch.feed U).manager task }
  | frame {frame : FrameOutcome} (ready : watch.Ready) : Taken U capacity watch (.frame frame)
      { watch with socket := { watch.socket with idleTicks := 0 }.onFrame U (watch.feed U).manager frame }
  | binary (ready : watch.Ready) : Taken U capacity watch .binary
      { watch with
        socket := { watch.socket with idleTicks := 0 }.sendAll [.error (decodeError none "binary frames are not supported")] }
  | alive (ready : watch.Ready) : Taken U capacity watch .alive { watch with socket := { watch.socket with idleTicks := 0 } }
  | receive {socket : Socket} (ready : watch.Ready) (pulled : watch.socket.receive capacity (watch.feed U).sent = some socket) :
      Taken U capacity watch .receive { watch with socket := socket }
  | tick {revalidated : Except VenueError Unit} {timestamp : Nat} (ready : watch.Ready) :
      Taken U capacity watch (.tick revalidated timestamp) { watch with socket := watch.socket.tick revalidated timestamp }

theorem step_taken (taken : watch.step U capacity step = some next) : watch.Taken U capacity step next := by
  cases step with
  | feed fed =>
    cases taken
    exact .feed fed
  | close =>
    cases taken
    exact .close
  | work =>
    simp only [Watch.step] at taken
    split at taken
    next task live busy =>
      cases taken
      exact .work live busy
    next => cases taken
  | receive =>
    simp only [Watch.step] at taken
    split at taken
    next ready =>
      obtain ⟨socket, pulled, rfl⟩ := Option.map_eq_some_iff.1 taken
      exact .receive ready pulled
    next => cases taken
  | _ =>
    simp only [Watch.step] at taken
    split at taken
    next ready =>
      cases taken
      constructor
      exact ready
    next => cases taken

/-- A step is one of the actors, or the socket's beside which they stand still. -/
theorem step_cases (renormal : Renormal U) (tidy : watch.socket.Tidy U) (taken : watch.step U capacity step = some next) :
    (∃ fed, step = .feed fed ∧ next = { watch with history := watch.history ++ [fed] }) ∨
      (next.history = watch.history ∧ next.socket.Tidy U ∧ watch.socket.Moved U capacity (watch.feed U) next.socket) := by
  have awake : { watch.socket with idleTicks := 0 }.Tidy U := ⟨tidy.sound, tidy.queued, tidy.plain, tidy.idle⟩
  cases step_taken taken with
  | feed fed => exact Or.inl ⟨fed, rfl, rfl⟩
  | close => exact Or.inr ⟨rfl, ⟨tidy.sound, tidy.queued, tidy.plain, tidy.idle⟩, .said rfl rfl rfl rfl⟩
  | work live busy => exact Or.inr ⟨rfl, tidy.worked renormal busy⟩
  | frame ready =>
    obtain ⟨kept, moved⟩ := awake.framed renormal ready.2 _
    exact Or.inr ⟨rfl, kept, moved.awake⟩
  | binary ready =>
    have mute : ∀ reply ∈ [Reply.error (decodeError none "binary frames are not supported")], reply.streams = false := by
      simp [Reply.streams]
    obtain ⟨kept, moved⟩ := awake.mute ready.2 mute
    exact Or.inr ⟨rfl, kept, moved.awake⟩
  | alive ready => exact Or.inr ⟨rfl, awake, .said rfl rfl rfl rfl⟩
  | receive ready pulled => exact Or.inr ⟨rfl, tidy.received ready.2 pulled⟩
  | tick ready => exact Or.inr ⟨rfl, tidy.ticked ready.2 _ _⟩

end Watch

namespace Socket

/-- A terminal error is the last thing that a client is told, and the socket is not live behind it. -/
structure Closing (socket : Socket) : Prop where
  last : ∀ reply ∈ socket.told.dropLast, reply.terminal = false
  live : socket.live = true → ∀ reply ∈ socket.told, reply.terminal = false

theorem deliverable_cases (replies : List Reply) :
    (deliverable replies = replies ∧ ∀ reply ∈ replies, reply.terminal = false) ∨
      ∃ early final, deliverable replies = early ++ [final] ∧ (∀ reply ∈ early, reply.terminal = false) ∧
        final ∈ replies ∧ final.terminal = true := by
  induction replies with
  | nil => exact Or.inl ⟨rfl, List.forall_mem_nil _⟩
  | cons reply rest ih =>
    unfold deliverable
    split
    next terminal => exact Or.inr ⟨[], reply, rfl, List.forall_mem_nil _, List.mem_cons_self, terminal⟩
    next plain =>
      have first : reply.terminal = false := Bool.eq_false_iff.2 plain
      rcases ih with ⟨whole, all⟩ | ⟨early, final, whole, all, member, terminal⟩
      · exact Or.inl ⟨by rw [whole], List.forall_mem_cons.2 ⟨first, all⟩⟩
      · exact Or.inr ⟨reply :: early, final, by rw [whole, List.cons_append], List.forall_mem_cons.2 ⟨first, all⟩,
          List.mem_cons_of_mem _ member, terminal⟩

section Closing
variable {socket : Socket} (plain : ∀ reply ∈ socket.told, reply.terminal = false)
include plain

theorem closing_of_plain : socket.Closing := ⟨fun reply member => plain reply (List.dropLast_subset _ member), fun _ => plain⟩

theorem closing_sendAll (messages : List Reply) : (socket.sendAll messages).Closing := by
  rcases deliverable_cases messages with ⟨whole, all⟩ | ⟨early, final, whole, all, member, terminal⟩
  · refine closing_of_plain fun reply told => ?_
    unfold sendAll at told
    rw [whole] at told
    exact (List.mem_append.1 told).elim (plain reply) (all reply)
  · constructor
    · unfold sendAll
      rw [whole, ← List.append_assoc, List.dropLast_concat]
      exact fun reply told => (List.mem_append.1 told).elim (plain reply) (all reply)
    · intro live
      have answered := List.all_eq_true.1 live final member
      simp [terminal] at answered

theorem closing_onFrame (U : Upstream) (manager : OrderbookSubscriptionManager) (frame : FrameOutcome) :
    (socket.onFrame U manager frame).Closing := by
  cases frame with
  | undecodable requestId message => exact closing_sendAll plain _
  | orderEntry requestId => exact closing_sendAll plain _
  | action action requestId =>
    change (socket.onAction U manager action requestId).Closing
    unfold onAction answering
    repeat' split
    all_goals first
      | exact closing_of_plain plain
      | refine closing_sendAll ?_ _
        exact plain

theorem closing_work (U : Upstream) (manager : OrderbookSubscriptionManager) (task : Task) :
    (socket.work U manager task).Closing := by
  cases task with
  | subscribing requestId rest results =>
    cases rest with
    | nil =>
      refine closing_sendAll ?_ _
      exact plain
    | cons item rest => exact closing_of_plain plain
  | resnapshotting rest =>
    cases rest with
    | nil =>
      refine closing_sendAll ?_ _
      exact plain
    | cons item rest => exact closing_of_plain plain

theorem closing_receive {capacity : Nat} {sent : List WsMessage} {next : Socket}
    (pulled : socket.receive capacity sent = some next) : next.Closing := by
  unfold receive at pulled
  split at pulled
  next => cases pulled
  next message there =>
    split at pulled
    next =>
      cases pulled
      exact closing_of_plain plain
    next =>
      cases pulled
      refine closing_of_plain fun reply told => (List.mem_append.1 told).elim (plain reply) fun forwarded => ?_
      obtain ⟨market, -, rfl⟩ := Option.map_eq_some_iff.1 (Option.mem_toList.1 forwarded)
      rfl

theorem closing_tick (revalidated : Except VenueError Unit) (timestamp : Nat) : (socket.tick revalidated timestamp).Closing := by
  unfold tick
  split
  next error =>
    refine ⟨?_, nofun⟩
    dsimp only
    rw [List.dropLast_concat]
    exact plain
  next =>
    dsimp only
    split
    next => exact closing_of_plain plain
    next =>
      refine closing_of_plain fun reply told => (List.mem_append.1 told).elim (plain reply) fun beat => ?_
      rw [List.mem_singleton.1 beat]
      rfl

end Closing

end Socket

namespace Watch
variable {U : Upstream} {capacity : Nat} {watch next : Watch} {step : SocketStep}

/-- A socket that is not live tells its client nothing more. -/
theorem step_silent (shut : watch.socket.live = false) (taken : watch.step U capacity step = some next) :
    next.socket.live = false ∧ next.socket.told = watch.socket.told := by
  have dead (live : watch.socket.live = true) : False := by simp [shut] at live
  cases step_taken taken with
  | feed fed => exact ⟨shut, rfl⟩
  | close => exact ⟨rfl, rfl⟩
  | work live busy => exact (dead live).elim
  | _ ready => exact (dead ready.1).elim

theorem step_closing (closing : watch.socket.Closing) (taken : watch.step U capacity step = some next) : next.socket.Closing := by
  have plain (live : watch.socket.live = true) : ∀ reply ∈ { watch.socket with idleTicks := 0 }.told, reply.terminal = false :=
    closing.live live
  cases step_taken taken with
  | feed fed => exact closing
  | close => exact ⟨closing.last, nofun⟩
  | work live busy => exact Socket.closing_work (closing.live live) U _ _
  | frame ready => exact Socket.closing_onFrame (plain ready.1) U _ _
  | binary ready => exact Socket.closing_sendAll (plain ready.1) _
  | alive ready => exact ⟨closing.last, closing.live⟩
  | receive ready pulled => exact Socket.closing_receive (closing.live ready.1) pulled
  | tick ready => exact Socket.closing_tick (closing.live ready.1) _ _

end Watch

end Fauxchange.Ws
