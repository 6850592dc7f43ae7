import Fauxchange.Lib.LastWrite
import Fauxchange.Lib.Relay
import Fauxchange.Ws.BookFollowed

/-! A stream of events, of trades, fills or prices, as a client is told it: every message of the broadcast that concerns the
subscription, in order and once, and a resync marker in the place of what the receiver has lost. -/

namespace Fauxchange.Ws
open Lib MarketData
open Exchange hiding VenueError
open Fauxchange.Fix (VenueError Renormal)
open Connection (Subscribes Filters)

/-- Whether a message of the broadcast belongs to a stream. -/
def concerns (channel : SubscriptionChannel) (key : String) (message : WsMessage) : Bool :=
  (classify message).any fun (other, symbol, _) => other = channel ∧ symbol = key

/-- An event of a stream, or its marker. -/
def Reply.event? (channel : SubscriptionChannel) (key : String) : Reply → Option (Option WsMessage)
  | .market message => if concerns channel key message then some (some message) else none
  | .resync other symbol _ => if other = channel ∧ symbol = key then some none else none
  | _ => none

def eventsOf (channel : SubscriptionChannel) (key : String) (replies : List Reply) : List (Option WsMessage) :=
  replies.filterMap (Reply.event? channel key)

section Events
variable {U : Upstream} {channel : SubscriptionChannel} {key : String} {manager : OrderbookSubscriptionManager}
  {connection : Connection}

theorem concerns_iff {message : WsMessage} :
    concerns channel key message = true ↔ ∃ sequence, classify message = some (channel, key, sequence) := by
  unfold concerns
  rw [Option.any_eq_true]
  constructor
  · rintro ⟨⟨other, symbol, sequence⟩, classified, same⟩
    obtain ⟨rfl, rfl⟩ := of_decide_eq_true same
    exact ⟨sequence, classified⟩
  · rintro ⟨sequence, classified⟩
    exact ⟨_, classified, by simp⟩

theorem eventsOf_append (early late : List Reply) :
    eventsOf channel key (early ++ late) = eventsOf channel key early ++ eventsOf channel key late := List.filterMap_append

theorem eventsOf_streamed (replies : List Reply) : eventsOf channel key (streamed replies) = eventsOf channel key replies := by
  unfold eventsOf streamed
  rw [List.filterMap_filter]
  refine List.filterMap_congr fun reply _ => ?_
  cases reply <;> rfl

theorem eventsOf_kept {before after : List Reply} (kept : streamed after = streamed before) :
    eventsOf channel key after = eventsOf channel key before := by
  rw [← eventsOf_streamed after, kept, eventsOf_streamed]

theorem eventsOf_grown {before after late : List Reply} (grown : streamed after = streamed before ++ streamed late) :
    eventsOf channel key after = eventsOf channel key before ++ eventsOf channel key late := by
  rw [← eventsOf_streamed after, grown, eventsOf_append, eventsOf_streamed, eventsOf_streamed]

theorem eventsOf_subscribes {params : SubscribeParams} {replies : List Reply} {after : Connection}
    (done : Subscribes U manager connection params replies after) : eventsOf channel key replies = [] := by
  cases done with
  | refused error plain => rfl
  | streamed => rfl
  | booked => rfl

/-- What a message comes to for a client that has subscribed to the stream. -/
theorem eventsOf_filters {message : WsMessage} {forward : Option WsMessage} {after : Connection} (apart : channel ≠ .orderbook)
    (inside : (key, channel) ∈ connection.subscriptions) (done : Filters connection message forward after) :
    eventsOf channel key (forward.map Reply.market).toList =
      (if concerns channel key message then some message else none).toList.map some := by
  have passed : eventsOf channel key [.market message] = (if concerns channel key message then some message else none).toList.map some := by
    unfold eventsOf
    rw [List.filterMap_cons, Reply.event?]
    by_cases wants : concerns channel key message
    · simp [wants]
    · simp [wants]
  cases done with
  | fresh => exact passed
  | streamed => exact passed
  | unwanted outside =>
    have none : concerns channel key message = false := by
      refine Bool.eq_false_iff.2 fun wants => ?_
      obtain ⟨sequence, classified⟩ := concerns_iff.1 wants
      exact outside _ _ _ classified inside
    rw [none]
    rfl
  | seen other sequence classified =>
    have none : concerns channel key message = false := by
      refine Bool.eq_false_iff.2 fun wants => ?_
      obtain ⟨_, again⟩ := concerns_iff.1 wants
      cases classified.symm.trans again
      exact apart rfl
    rw [none]
    rfl

/-- A laggard is told a marker for the stream, and nothing of it for another subscription. -/
theorem eventsOf_resnapshotItem (apart : channel ≠ .orderbook) (item : (String × SubscriptionChannel) × Option Nat) :
    eventsOf channel key (connection.resnapshotItem U manager item).1 = if item.1 = (key, channel) then [none] else [] := by
  obtain ⟨⟨symbol, other⟩, depth⟩ := item
  by_cases book : other = .orderbook
  · subst book
    rw [if_neg fun same => apart (congrArg Prod.snd same).symm]
    unfold Connection.resnapshotItem
    dsimp only
    split
    next => rfl
    next => rfl
  · rw [Connection.resnapshotItem_stream book]
    unfold eventsOf resyncMarker
    rw [List.filterMap_cons, Reply.event?]
    simp only [Prod.mk.injEq, and_comm]
    split <;> simp_all

end Events

/-- The broadcast only grows. -/
theorem Watch.sent_grows (U : Upstream) (watch : Watch) (fed : FeedStep) :
    (watch.feed U).sent <+: (Watch.feed U { watch with history := watch.history ++ [fed] }).sent := by
  unfold Watch.feed
  rw [Feed.run_append]
  change _ <+: ((Feed.new.run U watch.history).step U fed).sent
  cases fed with
  | send underlying => exact List.prefix_append _ _
  | commit underlying event =>
    unfold Feed.step
    dsimp only
    split
    next => exact List.prefix_rfl
    next => exact List.prefix_rfl

/-- The receiver of a socket is within the broadcast, and a resync comes to each subscription once. -/
structure Watch.Placed (U : Upstream) (watch : Watch) : Prop where
  tidy : watch.socket.Tidy U
  within : watch.socket.position ≤ (watch.feed U).sent.length
  once : (watch.socket.awaited.map Prod.fst).Nodup

namespace Watch
variable {U : Upstream} {capacity : Nat} {watch : Watch}

theorem placed_opened (U : Upstream) (history : List FeedStep) : Placed U (.opened U history) :=
  ⟨Socket.tidy_opened U _, le_rfl, List.nodup_nil⟩

theorem Placed.fed (placed : Placed U watch) (fed : FeedStep) : Placed U { watch with history := watch.history ++ [fed] } :=
  ⟨placed.tidy, placed.within.trans (watch.sent_grows U fed).length_le, placed.once⟩

theorem Placed.moved (placed : Placed U watch) {socket : Socket} (tidy : socket.Tidy U)
    (moved : watch.socket.Moved U capacity (watch.feed U) socket) : Placed U ⟨watch.history, socket⟩ := by
  suffices kept : socket.position ≤ (watch.feed U).sent.length ∧ (socket.awaited.map Prod.fst).Nodup from ⟨tidy, kept.1, kept.2⟩
  have still (place : socket.position = watch.socket.position) : socket.position ≤ (watch.feed U).sent.length := place ▸ placed.within
  have idle (after : socket.awaited = []) : (socket.awaited.map Prod.fst).Nodup := by
    rw [after]
    exact List.nodup_nil
  cases moved with
  | said kept same place awaited => exact ⟨still place, awaited ▸ placed.once⟩
  | subscribed params replies done grown place before after => exact ⟨still place, idle after⟩
  | unsubscribed items done kept place before after => exact ⟨still place, idle after⟩
  | pulled message forward there near done grown place before after =>
    exact ⟨place ▸ (List.getElem?_eq_some_iff.1 there).1, idle after⟩
  | lagged behind far kept same place before after =>
    refine ⟨place ▸ Nat.sub_le _ _, ?_⟩
    rw [after]
    exact nodup_keys _
  | resynced item rest before after done grown place =>
    refine ⟨still place, ?_⟩
    have once := placed.once
    rw [before, List.map_cons, List.nodup_cons] at once
    rw [after]
    exact once.2

theorem Placed.step {next : Watch} {step : SocketStep} (renormal : Renormal U) (placed : Placed U watch)
    (taken : watch.step U capacity step = some next) : Placed U next := by
  rcases step_cases renormal placed.tidy taken with ⟨fed, -, rfl⟩ | ⟨history, tidy, moved⟩
  · exact placed.fed fed
  · obtain ⟨actors, socket⟩ := next
    obtain rfl : actors = watch.history := history
    exact placed.moved tidy moved

end Watch

/-- Whatever is asked of a socket, its subscriptions stay within the cap, under the names of instruments that parse, and its
baselines are those of its order books; a terminal error is the last thing that its client is told. -/
theorem socket_orderly {U : Upstream} {capacity : Nat} {history : List FeedStep} {steps : List SocketStep} {watch : Watch}
    (renormal : Renormal U) (ran : runFrom (Watch.step U capacity) (.opened U history) steps = some watch) :
    Connection.Sound U watch.socket.connection ∧ watch.socket.Closing ∧
      (watch.socket.live = false → ∀ more later, runFrom (Watch.step U capacity) watch more = some later →
        later.socket.told = watch.socket.told) := by
  have opened : (Watch.opened U history).socket.Closing :=
    Socket.closing_of_plain fun reply greeting => by
      rw [List.mem_singleton.1 greeting]
      rfl
  have placed : watch.Placed U := runFrom_preserved (fun _ _ _ placed taken => placed.step renormal taken) (Watch.placed_opened U history) ran
  refine ⟨placed.tidy.sound, runFrom_preserved (fun _ _ _ closing taken => Watch.step_closing closing taken) opened ran, ?_⟩
  intro shut more later further
  let silent (state : Watch) : Prop := state.socket.live = false ∧ state.socket.told = watch.socket.told
  have preserved (state : Watch) (step : SocketStep) (next : Watch) (quiet : silent state)
      (taken : state.step U capacity step = some next) : silent next := by
    obtain ⟨still, same⟩ := Watch.step_silent quiet.1 taken
    exact ⟨still, same.trans quiet.2⟩
  have quiet : silent watch := ⟨shut, rfl⟩
  exact (runFrom_preserved preserved quiet further).2

/-! A client whose session is withdrawn at the first heartbeat. -/

def withdrawnSteps : List SocketStep := [.frame (.action (.subscribe ⟨.prices, "BTC", none⟩) none), .tick (.error .unauthorized) 5]

def withdrawnWatch : Watch :=
  (runFrom (Watch.step referenceUpstream 1) (.opened referenceUpstream []) withdrawnSteps).getD (.opened referenceUpstream [])

theorem withdrawnWatch_run : runFrom (Watch.step referenceUpstream 1) (.opened referenceUpstream []) withdrawnSteps = some withdrawnWatch := by
  have finished : (runFrom (Watch.step referenceUpstream 1) (.opened referenceUpstream []) withdrawnSteps).isSome = true := by decide +kernel
  rw [withdrawnWatch, ← Option.get_eq_getD _ (h := finished), Option.some_get]

theorem withdrawn_orderly : withdrawnWatch.socket.Closing ∧
    withdrawnWatch.socket.told = [.connected "connected to fauxchange", .subscribed .prices "BTC", .error (wsError .unauthorized none)] :=
  ⟨(socket_orderly Fix.renormal_reference withdrawnWatch_run).2.1, by decide +kernel⟩

/-- What a client has been told of a stream since one moment: the broadcast as far as it was pulled, or up to a loss that a
resync has yet to come to. -/
structure EventsTold (U : Upstream) (channel : SubscriptionChannel) (key : String) (start watch : Watch)
    (told : List (Option WsMessage)) (place : Nat) : Prop where
  appended : eventsOf channel key watch.socket.all = eventsOf channel key start.socket.all ++ told
  relayed : Relayed (concerns channel key) (watch.feed U).sent start.socket.position place told
  settled : (key, channel) ∉ watch.socket.awaited.map Prod.fst → place = watch.socket.position
  owed : (key, channel) ∈ watch.socket.awaited.map Prod.fst → place < watch.socket.position

namespace EventsTold
variable {U : Upstream} {channel : SubscriptionChannel} {key : String} {start watch : Watch} {told : List (Option WsMessage)}
  {place : Nat} {socket : Socket}

theorem fed (events : EventsTold U channel key start watch told place) (step : FeedStep) :
    EventsTold U channel key start { watch with history := watch.history ++ [step] } told place :=
  ⟨events.appended, events.relayed.grown (watch.sent_grows U step), events.settled, events.owed⟩

/-- A step of the socket that tells nothing of the stream and leaves the receiver where it is. -/
theorem kept (events : EventsTold U channel key start watch told place)
    (same : eventsOf channel key socket.all = eventsOf channel key watch.socket.all)
    (stays : socket.position = watch.socket.position) (awaits : socket.awaited = watch.socket.awaited) :
    EventsTold U channel key start ⟨watch.history, socket⟩ told place := by
  refine ⟨same.trans events.appended, events.relayed, ?_, ?_⟩
  · rw [stays, awaits]
    exact events.settled
  · rw [stays, awaits]
    exact events.owed

theorem settled_idle (events : EventsTold U channel key start watch told place) (idle : watch.socket.awaited = []) :
    place = watch.socket.position := by
  refine events.settled ?_
  rw [idle]
  exact List.not_mem_nil

/-- What the socket does while its client is subscribed. -/
theorem moved (events : EventsTold U channel key start watch told place) (placed : watch.Placed U) (apart : channel ≠ .orderbook)
    (inside : (key, channel) ∈ watch.socket.connection.subscriptions) {capacity : Nat}
    (moved : watch.socket.Moved U capacity (watch.feed U) socket) :
    ∃ told place, EventsTold U channel key start ⟨watch.history, socket⟩ told place := by
  cases moved with
  | said kept same place awaited => exact ⟨_, _, events.kept (eventsOf_kept kept) place awaited⟩
  | unsubscribed items done kept place before after =>
    exact ⟨_, _, events.kept (eventsOf_kept kept) place (after.trans before.symm)⟩
  | subscribed params replies done grown place before after =>
    have none : eventsOf channel key socket.all = eventsOf channel key watch.socket.all := by
      rw [eventsOf_grown grown, eventsOf_subscribes done, List.append_nil]
    exact ⟨_, _, events.kept none place (after.trans before.symm)⟩
  | pulled message forward there near done grown next before after =>
    obtain rfl := events.settled_idle before
    refine ⟨_, _, ?_, .passed events.relayed there, fun _ => next.symm, ?_⟩
    · change eventsOf channel key socket.all = _
      rw [← eventsOf_streamed socket.all, grown, eventsOf_append, eventsOf_streamed, events.appended,
        eventsOf_filters apart inside done, List.append_assoc]
    · rw [after]
      exact fun member => absurd member List.not_mem_nil
  | lagged behind far kept same next before after =>
    -- the stream is among the subscriptions that the resync goes through
    obtain ⟨depth, found⟩ := Option.isSome_iff_exists.1 (Std.ExtTreeMap.mem_iff_isSome_getElem?.1 inside)
    refine ⟨told, place, (eventsOf_kept kept).trans events.appended, events.relayed, ?_, fun _ => ?_⟩
    · rw [after]
      exact fun ready => absurd (List.mem_map.2 ⟨_, Std.ExtTreeMap.mem_toList_iff_getElem?_eq_some.2 found, rfl⟩) ready
    · change place < socket.position
      rw [events.settled_idle before, next]
      omega
  | resynced item rest before after done grown next =>
    have once := placed.once
    have news : eventsOf channel key socket.all = eventsOf channel key start.socket.all ++ told ++
        if item.1 = (key, channel) then [none] else [] := by
      rw [eventsOf_grown grown, eventsOf_resnapshotItem apart, events.appended]
    rw [before, List.map_cons, List.nodup_cons] at once
    by_cases ours : item.1 = (key, channel)
    · have lost : place < watch.socket.position := by
        refine events.owed ?_
        rw [before, ← ours]
        exact List.mem_cons_self
      rw [if_pos ours, List.append_assoc] at news
      refine ⟨told ++ [none], watch.socket.position, news, .lost events.relayed lost placed.within, fun _ => next.symm, ?_⟩
      rw [after]
      exact fun member => absurd (ours ▸ member) once.1
    · rw [if_neg ours, List.append_nil] at news
      refine ⟨told, place, news, events.relayed, ?_, ?_⟩
      · rw [after, next]
        refine fun ready => events.settled fun member => ready ?_
        rw [before] at member
        exact (List.mem_cons.1 member).resolve_left (Ne.symm ours)
      · rw [after, next]
        intro member
        refine events.owed ?_
        rw [before]
        exact List.mem_cons_of_mem _ member

end EventsTold

section Streams
variable {U : Upstream} {channel : SubscriptionChannel} {key : String} {start watch : Watch}

/-- A client that stays subscribed to a stream of events is told every message of it that its receiver pulls, in order and
once; where the broadcast has gone on without it, it is told a marker, and what follows the last marker is all that was
broadcast since some moment after the loss. -/
theorem events_announced {capacity : Nat} {history : List FeedStep} {early steps : List SocketStep} (renormal : Renormal U)
    (ran : runFrom (Watch.step U capacity) (.opened U history) early = some start)
    (settled : (key, channel) ∉ start.socket.awaited.map Prod.fst) (apart : channel ≠ .orderbook)
    (kept : Throughout (Watch.step U capacity) (fun watch _ => (key, channel) ∈ watch.socket.connection.subscriptions) start steps)
    (further : runFrom (Watch.step U capacity) start steps = some watch) :
    ∃ told place, EventsTold U channel key start watch told place ∧
      told.reduceOption.Sublist (between (concerns channel key) (watch.feed U).sent start.socket.position place) ∧
      (none ∉ told → told = (between (concerns channel key) (watch.feed U).sent start.socket.position place).map some) ∧
      ∀ before after, told = before ++ none :: after → none ∉ after →
        ∃ next, start.socket.position < next ∧ next ≤ place ∧
          after = (between (concerns channel key) (watch.feed U).sent next place).map some := by
  have placed : start.Placed U := runFrom_preserved (fun _ _ _ placed taken => placed.step renormal taken) (Watch.placed_opened U history) ran
  let follows (state : Watch) : Prop := state.Placed U ∧ ∃ told place, EventsTold U channel key start state told place
  have preserved (state : Watch) (step : SocketStep) (next : Watch) (following : follows state)
      (inside : (key, channel) ∈ state.socket.connection.subscriptions) (taken : state.step U capacity step = some next) : follows next := by
    obtain ⟨placed, told, place, events⟩ := following
    refine ⟨placed.step renormal taken, ?_⟩
    rcases Watch.step_cases renormal placed.tidy taken with ⟨fed, -, rfl⟩ | ⟨history, -, moved⟩
    · exact ⟨told, place, events.fed fed⟩
    · obtain ⟨actors, socket⟩ := next
      obtain rfl : actors = state.history := history
      exact events.moved placed apart inside moved
  have initially : follows start :=
    ⟨placed, [], start.socket.position, (List.append_nil _).symm, .start, fun _ => rfl, fun owed => absurd owed settled⟩
  obtain ⟨-, told, place, events⟩ := runFrom_invariant preserved initially kept further
  exact ⟨told, place, events, events.relayed.sublist, events.relayed.whole, fun _ _ => events.relayed.resumed⟩

end Streams

/-! A follower of the prices of an underlying that loses one of three: the broadcast keeps one message. -/

def priceStep (sequence price : Nat) : FeedStep := .commit "BTC" (.new sequence sequence (.simStep 0 "BTC" price none none) (.controlApplied []))

def tickerStart : Watch :=
  (runFrom (Watch.step referenceUpstream 1) (.opened referenceUpstream [])
    [.frame (.action (.subscribe ⟨.prices, "BTC", none⟩) none)]).getD (.opened referenceUpstream [])

def tickerSteps : List SocketStep :=
  [.feed (priceStep 0 100), .feed (.send "BTC"), .receive, .feed (priceStep 1 101), .feed (.send "BTC"), .feed (priceStep 2 102),
    .feed (.send "BTC"), .receive, .work, .work, .receive]

def tickerWatch : Watch := (runFrom (Watch.step referenceUpstream 1) tickerStart tickerSteps).getD tickerStart

theorem tickerStart_run : runFrom (Watch.step referenceUpstream 1) (.opened referenceUpstream [])
    [.frame (.action (.subscribe ⟨.prices, "BTC", none⟩) none)] = some tickerStart := by
  have finished : (runFrom (Watch.step referenceUpstream 1) (.opened referenceUpstream [])
      [.frame (.action (.subscribe ⟨.prices, "BTC", none⟩) none)]).isSome = true := by decide +kernel
  rw [tickerStart, ← Option.get_eq_getD _ (h := finished), Option.some_get]

theorem tickerWatch_run : runFrom (Watch.step referenceUpstream 1) tickerStart tickerSteps = some tickerWatch := by
  have finished : (runFrom (Watch.step referenceUpstream 1) tickerStart tickerSteps).isSome = true := by decide +kernel
  rw [tickerWatch, ← Option.get_eq_getD _ (h := finished), Option.some_get]

theorem ticker_announced : ∃ told place, EventsTold referenceUpstream .prices "BTC" tickerStart tickerWatch told place :=
  have kept : Throughout (Watch.step referenceUpstream 1)
      (fun watch _ => ("BTC", .prices) ∈ watch.socket.connection.subscriptions) tickerStart tickerSteps := by decide +kernel
  have ⟨told, place, events, _⟩ :=
    events_announced Fix.renormal_reference tickerStart_run (by decide +kernel) (by decide) kept tickerWatch_run
  ⟨told, place, events⟩

end Fauxchange.Ws
