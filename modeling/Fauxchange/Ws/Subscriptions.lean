import Fauxchange.Fix.AcceptedMessages
import Fauxchange.Ws.Socket

/-! What a socket keeps of its subscriptions: within the cap, under canonical keys, with a baseline for each order book and
for nothing else. -/

namespace Fauxchange.Ws
open Lib MarketData
open Exchange hiding VenueError
open Fauxchange.Fix (VenueError Renormal)
open Fauxchange.Rest (parseSymbol)

section Keys
variable {U : Upstream} {text : String} {symbol : Symbol}

theorem parseSymbol_ok_iff : parseSymbol U text = .ok symbol ↔ Fix.Symbol.parse U text = .ok symbol := by
  unfold parseSymbol Fix.Symbol.parse
  cases U.parse text with
  | ok contract => simp
  | error reason => simp

theorem canonical_of_parsed (renormal : Renormal U) (parsed : parseSymbol U text = .ok symbol) : parseSymbol U symbol = .ok symbol :=
  parseSymbol_ok_iff.2 (renormal text symbol (parseSymbol_ok_iff.1 parsed))

/-- The key of a channel is canonical where it names a contract. -/
def CanonicalKey (U : Upstream) (key : String) (channel : SubscriptionChannel) : Prop :=
  channel ≠ .prices → parseSymbol U key = .ok key

theorem resolveKey_cases {channel : SubscriptionChannel} {key : String} {parsed : Option Symbol}
    (resolved : Connection.resolveKey U channel text = .ok (key, parsed)) :
    (channel = .prices ∧ key = text ∧ parsed = none) ∨ (channel ≠ .prices ∧ parseSymbol U text = .ok key ∧ parsed = some key) := by
  unfold Connection.resolveKey at resolved
  split at resolved
  next =>
    cases resolved
    exact Or.inl ⟨rfl, rfl, rfl⟩
  next apart =>
    split at resolved
    next contract grammar =>
      cases resolved
      exact Or.inr ⟨apart, grammar, rfl⟩
    next => cases resolved

theorem resolveKey_plain {channel : SubscriptionChannel} {error : WsError} (refused : Connection.resolveKey U channel text = .error error) :
    error.terminal = false := by
  unfold Connection.resolveKey at refused
  split at refused
  next => cases refused
  next =>
    split at refused
    next => cases refused
    next reason grammar =>
      cases refused
      unfold parseSymbol at grammar
      split at grammar
      next => cases grammar
      next =>
        cases grammar
        rfl

end Keys

namespace Connection
variable {U : Upstream} {connection : Connection} {manager : OrderbookSubscriptionManager} {key other : String}
  {channel : SubscriptionChannel} {params : SubscribeParams}

theorem mem_of_found {entry : String × SubscriptionChannel} {depth : Option Nat} (found : connection.subscriptions[entry]? = some depth) :
    entry ∈ connection.subscriptions := by
  rw [Std.ExtTreeMap.mem_iff_isSome_getElem?, found]
  rfl

theorem of_found_insert {entry : String × SubscriptionChannel} {depth held : Option Nat}
    (found : (connection.subscriptions.insert (key, channel) depth)[entry]? = some held) :
    entry = (key, channel) ∧ held = depth ∨ entry ≠ (key, channel) ∧ connection.subscriptions[entry]? = some held := by
  rw [Std.ExtTreeMap.getElem?_insert] at found
  split at found
  next same => exact Or.inl ⟨(pairCompare_eq_iff.1 same).symm, (Option.some.inj found).symm⟩
  next apart => exact Or.inr ⟨fun same => apart (pairCompare_eq_iff.2 same.symm), found⟩

theorem of_found_erase {entry : String × SubscriptionChannel} {held : Option Nat}
    (found : (connection.subscriptions.erase (key, channel))[entry]? = some held) :
    entry ≠ (key, channel) ∧ connection.subscriptions[entry]? = some held := by
  rw [Std.ExtTreeMap.getElem?_erase] at found
  split at found
  next => cases found
  next apart => exact ⟨fun same => apart (pairCompare_eq_iff.2 same.symm), found⟩

theorem mem_insert_iff {depth : Option Nat} {entry : String × SubscriptionChannel} :
    entry ∈ connection.subscriptions.insert (key, channel) depth ↔ entry = (key, channel) ∨ entry ∈ connection.subscriptions := by
  rw [Std.ExtTreeMap.mem_insert, pairCompare_eq_iff]
  exact or_congr_left eq_comm

theorem mem_erase_iff {entry : String × SubscriptionChannel} :
    entry ∈ connection.subscriptions.erase (key, channel) ↔ entry ≠ (key, channel) ∧ entry ∈ connection.subscriptions := by
  rw [Std.ExtTreeMap.mem_erase, ne_eq, ne_eq, pairCompare_eq_iff]
  exact and_congr_left' (not_congr eq_comm)

/-- A subscription that is taken up: to a channel without a book, or to an order book with its snapshot. -/
inductive Subscribes (U : Upstream) (manager : OrderbookSubscriptionManager) (connection : Connection) (params : SubscribeParams) :
    List Reply → Connection → Prop where
  | refused (error : WsError) (plain : error.terminal = false) : Subscribes U manager connection params [.error error] connection
  | streamed (key : String) (apart : params.channel ≠ .orderbook)
      (canonical : params.channel = .prices ∨ parseSymbol U params.symbol = .ok key)
      (room : (key, params.channel) ∈ connection.subscriptions ∨ connection.subscriptions.size < maxSubscriptionsPerConnection) :
      Subscribes U manager connection params [.subscribed params.channel key]
        { connection with subscriptions := connection.subscriptions.insert (key, params.channel) params.depth }
  | booked (symbol : Symbol) (book : params.channel = .orderbook) (parsed : parseSymbol U params.symbol = .ok symbol)
      (room : (symbol, params.channel) ∈ connection.subscriptions ∨ connection.subscriptions.size < maxSubscriptionsPerConnection) :
      Subscribes U manager connection params
        [.market (manager.orderbookSnapshot symbol params.depth), .subscribed params.channel symbol]
        { subscriptions := connection.subscriptions.insert (symbol, params.channel) params.depth
          baselines := connection.baselines.insert symbol (manager.instrument symbol).sequence }

theorem subscribe_cases (U : Upstream) (manager : OrderbookSubscriptionManager) (connection : Connection) (params : SubscribeParams) :
    Subscribes U manager connection params (connection.subscribe U manager params).1 (connection.subscribe U manager params).2 := by
  obtain ⟨channel, text, depth⟩ := params
  unfold subscribe
  split
  next error refused => exact .refused error (resolveKey_plain refused)
  next key parsed resolved =>
    split
    next => exact .refused _ rfl
    next taken =>
      have room : (key, channel) ∈ connection.subscriptions ∨ connection.subscriptions.size < maxSubscriptionsPerConnection := by
        by_contra neither
        exact taken ⟨fun inside => neither (Or.inl inside), Nat.le_of_not_lt fun below => neither (Or.inr below)⟩
      rcases resolveKey_cases resolved with ⟨rfl, rfl, rfl⟩ | ⟨named, grammar, rfl⟩
      · exact .streamed key nofun (Or.inl rfl) room
      · cases channel with
        | orderbook => exact .booked key rfl grammar room
        | prices => exact absurd rfl named
        | _ => exact .streamed key nofun (Or.inr grammar) room

/-- The state of a connection is in order. -/
structure Sound (U : Upstream) (connection : Connection) : Prop where
  keys : ∀ key channel, (key, channel) ∈ connection.subscriptions → CanonicalKey U key channel
  size : connection.subscriptions.size ≤ maxSubscriptionsPerConnection
  books : ∀ key, key ∈ connection.baselines ↔ (key, .orderbook) ∈ connection.subscriptions

theorem sound_new : Sound U .new where
  keys _ _ inside := by simp [new] at inside
  size := by simp [new]
  books key := by simp [new]

theorem size_insert_le {depth : Option Nat} {entry : String × SubscriptionChannel} (sound : Sound U connection)
    (room : entry ∈ connection.subscriptions ∨ connection.subscriptions.size < maxSubscriptionsPerConnection) :
    (connection.subscriptions.insert entry depth).size ≤ maxSubscriptionsPerConnection := by
  rw [Std.ExtTreeMap.size_insert]
  split
  next => exact sound.size
  next fresh => exact Nat.succ_le_of_lt (room.resolve_left fresh)

theorem Sound.subscribe (sound : Sound U connection) (renormal : Renormal U) :
    Sound U (connection.subscribe U manager params).2 := by
  have done := subscribe_cases U manager connection params
  revert done
  rcases connection.subscribe U manager params with ⟨replies, after⟩
  intro done
  cases done with
  | refused error plain => exact sound
  | streamed key apart canonical room =>
    refine ⟨fun other channel inside => ?_, size_insert_le sound room, fun other => ?_⟩
    · rcases mem_insert_iff.1 inside with same | old
      · cases same
        exact fun named => canonical_of_parsed renormal (canonical.resolve_left named)
      · exact sound.keys other channel old
    · rw [sound.books, mem_insert_iff]
      exact ⟨Or.inr, fun inside => inside.resolve_left fun same => apart (congrArg Prod.snd same).symm⟩
  | booked symbol book parsed room =>
    refine ⟨fun other channel inside => ?_, size_insert_le sound room, fun other => ?_⟩
    · rcases mem_insert_iff.1 inside with same | old
      · cases same
        exact fun _ => canonical_of_parsed renormal parsed
      · exact sound.keys other channel old
    · rw [mem_insert_iff, book, Std.ExtTreeMap.mem_insert, Std.LawfulEqCmp.compare_eq_iff_eq, sound.books]
      exact or_congr_left ⟨fun same => by rw [same], fun same => (congrArg Prod.fst same).symm⟩

theorem Sound.unsubscribe (sound : Sound U connection) (text : String) :
    Sound U (connection.unsubscribe U channel text).2 := by
  unfold Connection.unsubscribe
  dsimp only
  generalize tornDown U channel text = key
  refine ⟨fun other channel inside => sound.keys other channel (mem_erase_iff.1 inside).2, ?_, fun other => ?_⟩
  · exact Std.ExtTreeMap.size_erase_le.trans sound.size
  · dsimp only
    rw [mem_erase_iff]
    split
    next book =>
      rw [Std.ExtTreeMap.mem_erase, ne_eq, Std.LawfulEqCmp.compare_eq_iff_eq, sound.books, book]
      refine and_congr_left' (not_congr ⟨fun same => by rw [same], fun same => (congrArg Prod.fst same).symm⟩)
    next apart =>
      rw [sound.books]
      exact ⟨fun inside => ⟨fun same => apart (congrArg Prod.snd same).symm, inside⟩, And.right⟩

theorem Sound.batchUnsubscribe (sound : Sound U connection) (batch : BatchParams) :
    Sound U (connection.batchUnsubscribe U batch).2 := by
  unfold Connection.batchUnsubscribe
  split
  next => exact sound
  next =>
    dsimp only
    generalize batch.subscriptions = items
    induction items generalizing connection with
    | nil => exact sound
    | cons item rest ih => exact ih (sound.unsubscribe item.symbol)

/-- A baseline that is written for a subscribed order book. -/
theorem Sound.based (sound : Sound U connection) (inside : (key, .orderbook) ∈ connection.subscriptions) (sequence : Nat) :
    Sound U { connection with baselines := connection.baselines.insert key sequence } := by
  refine ⟨sound.keys, sound.size, fun other => ?_⟩
  rw [Std.ExtTreeMap.mem_insert, Std.LawfulEqCmp.compare_eq_iff_eq, sound.books]
  exact or_iff_right_of_imp fun same => same ▸ inside

/-- What becomes of a message of the broadcast. -/
inductive Filters (connection : Connection) (message : WsMessage) : Option WsMessage → Connection → Prop where
  | unwanted (apart : ∀ channel key sequence, classify message = some (channel, key, sequence) → (key, channel) ∉ connection.subscriptions) :
      Filters connection message none connection
  | seen (key : String) (sequence : Nat) (classified : classify message = some (.orderbook, key, some sequence))
      (inside : (key, .orderbook) ∈ connection.subscriptions) (below : sequence ≤ connection.baselines[key]?.getD 0) :
      Filters connection message none connection
  | fresh (key : String) (sequence : Nat) (classified : classify message = some (.orderbook, key, some sequence))
      (inside : (key, .orderbook) ∈ connection.subscriptions) (past : connection.baselines[key]?.getD 0 < sequence) :
      Filters connection message (some message) { connection with baselines := connection.baselines.insert key sequence }
  | streamed (channel : SubscriptionChannel) (key : String) (classified : classify message = some (channel, key, none))
      (inside : (key, channel) ∈ connection.subscriptions) : Filters connection message (some message) connection

theorem classify_sequence {message : WsMessage} {sequence : Option Nat} (classified : classify message = some (channel, key, sequence)) :
    (channel = .orderbook ∧ ∃ number, sequence = some number) ∨ (channel ≠ .orderbook ∧ sequence = none) := by
  cases message with
  | orderbookDelta symbol number changes =>
    cases classified
    exact Or.inl ⟨rfl, number, rfl⟩
  | orderbookSnapshot => cases classified
  | fill | trade | price =>
    cases classified
    exact Or.inr ⟨nofun, rfl⟩

theorem filter_cases (connection : Connection) (message : WsMessage) :
    Filters connection message (connection.filter message).1 (connection.filter message).2 := by
  unfold Connection.filter
  split
  next silent => exact .unwanted fun _ _ _ classified => nomatch silent.symm.trans classified
  next channel key sequence classified =>
    split
    next outside =>
      refine .unwanted fun _ _ _ again => ?_
      cases classified.symm.trans again
      exact outside
    next wanted =>
      have inside := not_not.1 wanted
      rcases classify_sequence classified with ⟨rfl, number, rfl⟩ | ⟨apart, rfl⟩
      · dsimp only
        split
        next below => exact .seen key number classified inside below
        next past => exact .fresh key number classified inside (Nat.lt_of_not_le past)
      · cases channel with
        | orderbook => exact absurd rfl apart
        | _ => exact .streamed _ key classified inside

theorem Sound.filter (sound : Sound U connection) (message : WsMessage) : Sound U (connection.filter message).2 := by
  have done := filter_cases connection message
  revert done
  rcases connection.filter message with ⟨forward, after⟩
  intro done
  cases done with
  | fresh key sequence classified inside past => exact sound.based inside sequence
  | _ => exact sound

/-- What a laggard is told of a subscription that it has. -/
theorem resnapshotItem_book (sound : Sound U connection) {depth : Option Nat} (inside : (key, .orderbook) ∈ connection.subscriptions) :
    connection.resnapshotItem U manager ((key, .orderbook), depth) = ([.market (manager.orderbookSnapshot key depth)],
      { connection with baselines := connection.baselines.insert key (manager.instrument key).sequence }) := by
  have canonical := sound.keys key .orderbook inside nofun
  unfold resnapshotItem
  simp only [canonical]
  rfl

theorem resnapshotItem_stream (apart : channel ≠ .orderbook) (depth : Option Nat) :
    connection.resnapshotItem U manager ((key, channel), depth) = ([resyncMarker U channel key manager], connection) := by
  cases channel with
  | orderbook => exact absurd rfl apart
  | _ => rfl

theorem resnapshotItem_subscriptions (item : (String × SubscriptionChannel) × Option Nat) :
    (connection.resnapshotItem U manager item).2.subscriptions = connection.subscriptions := by
  unfold resnapshotItem
  split
  next =>
    split
    next => rfl
    next => rfl
  next => rfl

theorem Sound.resnapshotItem (sound : Sound U connection) {item : (String × SubscriptionChannel) × Option Nat}
    (inside : item.1 ∈ connection.subscriptions) : Sound U (connection.resnapshotItem U manager item).2 := by
  obtain ⟨⟨key, channel⟩, depth⟩ := item
  by_cases book : channel = .orderbook
  · subst book
    rw [resnapshotItem_book sound inside]
    exact sound.based inside _
  · rw [resnapshotItem_stream book]
    exact sound

end Connection

end Fauxchange.Ws
