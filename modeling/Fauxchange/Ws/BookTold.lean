import Fauxchange.Ws.Moves

/-! The order book of one contract as the client of a socket is told it: snapshots of moments, each with the deltas past it,
in the order of their sequences and without a gap. -/

namespace Fauxchange.Ws
open Lib MarketData
open Exchange hiding VenueError
open Fauxchange.Fix (VenueError Renormal)
open Connection (Sound Subscribes Filters)

/-- A message of the order book of one contract. -/
def Reply.bookMessage? (symbol : Symbol) : Reply → Option WsMessage
  | .market (.orderbookSnapshot other sequence bids asks) =>
    if other = symbol then some (.orderbookSnapshot other sequence bids asks) else none
  | .market (.orderbookDelta other sequence changes) =>
    if other = symbol then some (.orderbookDelta other sequence changes) else none
  | _ => none

def bookOf (symbol : Symbol) (replies : List Reply) : List WsMessage := replies.filterMap (Reply.bookMessage? symbol)

section Books
variable {symbol other : Symbol} {replies : List Reply}

theorem bookOf_append (early late : List Reply) : bookOf symbol (early ++ late) = bookOf symbol early ++ bookOf symbol late :=
  List.filterMap_append

theorem bookOf_streamed (replies : List Reply) : bookOf symbol (streamed replies) = bookOf symbol replies := by
  unfold bookOf streamed
  rw [List.filterMap_filter]
  refine List.filterMap_congr fun reply _ => ?_
  cases reply <;> rfl

theorem bookOf_kept {before after : List Reply} (kept : streamed after = streamed before) : bookOf symbol after = bookOf symbol before := by
  rw [← bookOf_streamed after, kept, bookOf_streamed]

theorem bookOf_grown {before after late : List Reply} (grown : streamed after = streamed before ++ streamed late) :
    bookOf symbol after = bookOf symbol before ++ bookOf symbol late := by
  rw [← bookOf_streamed after, grown, bookOf_append, bookOf_streamed, bookOf_streamed]

theorem bookOf_snapshot (manager : OrderbookSubscriptionManager) (depth : Option Nat) :
    bookOf symbol [.market (manager.orderbookSnapshot other depth)] =
      if other = symbol then [manager.orderbookSnapshot other depth] else [] := by
  unfold bookOf OrderbookSubscriptionManager.orderbookSnapshot InstrumentState.snapshot Levels.snapshot
  rw [List.filterMap_cons, Reply.bookMessage?]
  split <;> simp_all

theorem delta_of_classified {message : WsMessage} {key : String} {sequence : Nat}
    (classified : classify message = some (.orderbook, key, some sequence)) : ∃ changes, message = .orderbookDelta key sequence changes := by
  cases message with
  | orderbookDelta =>
    cases classified
    exact ⟨_, rfl⟩
  | _ => cases classified

theorem delta_of_mem {message : WsMessage} {delta : Delta} (member : delta ∈ deltasOf symbol [message]) :
    ∃ changes, message = .orderbookDelta symbol delta.1 changes := by
  obtain ⟨listed, only, shown⟩ := List.mem_filterMap.1 member
  obtain rfl := List.mem_singleton.1 only
  cases listed with
  | orderbookDelta =>
    simp only [WsMessage.delta?, Option.ite_none_right_eq_some, Option.some.injEq] at shown
    obtain ⟨rfl, rfl⟩ := shown
    exact ⟨_, rfl⟩
  | _ => cases shown

end Books

/-- A snapshot and what follows it: the moment that it was read at, its depth, and the baseline that the deltas have come to. -/
structure Stretch where
  moment : List FeedStep
  depth : Option Nat
  baseline : Nat

namespace Stretch

/-- The sequence that the snapshot reflects. -/
def start (U : Upstream) (symbol : Symbol) (stretch : Stretch) : Nat := (Feed.new.run U stretch.moment).sequence symbol

def deltas (U : Upstream) (symbol : Symbol) (published : List Delta) (stretch : Stretch) : List Delta :=
  cut Prod.fst (stretch.start U symbol) stretch.baseline published

/-- The snapshot, then the deltas past it up to the baseline. -/
def messages (U : Upstream) (symbol : Symbol) (published : List Delta) (stretch : Stretch) : List WsMessage :=
  (Feed.new.run U stretch.moment).manager.orderbookSnapshot symbol stretch.depth ::
    (stretch.deltas U symbol published).map fun delta => .orderbookDelta symbol delta.1 delta.2

/-- The messages of stretches one after another. -/
def tape (U : Upstream) (symbol : Symbol) (published : List Delta) (stretches : List Stretch) : List WsMessage :=
  stretches.flatMap (messages U symbol published)

end Stretch

/-- What holds of a socket as to one order book. -/
structure Streams (U : Upstream) (owner : String) (symbol : Symbol) (watch : Watch) (stretches : List Stretch) : Prop where
  told : bookOf symbol watch.socket.all = Stretch.tape U symbol ((watch.feed U).published owner symbol) stretches
  moments : ∀ stretch ∈ stretches, stretch.moment <+: watch.history
  within : ∀ stretch ∈ stretches, stretch.start U symbol ≤ stretch.baseline ∧
    stretch.baseline ≤ (watch.feed U).sequence symbol
  ordered : stretches.Pairwise fun early late => early.baseline ≤ late.start U symbol
  place : watch.socket.position ≤ (watch.feed U).sent.length
  /-- The depth and the baseline of a subscription are those of the last stretch, and the baseline covers what the receiver is past. -/
  live : ∀ depth, watch.socket.connection.subscriptions[(symbol, SubscriptionChannel.orderbook)]? = some depth →
    ∃ before last, stretches = before ++ [last] ∧ last.depth = depth ∧ watch.socket.connection.baselines[symbol]? = some last.baseline ∧
      ((symbol, .orderbook) ∉ watch.socket.awaited.map Prod.fst →
        ∀ delta ∈ deltasOf symbol ((watch.feed U).sent.take watch.socket.position), delta.1 ≤ last.baseline)

namespace Streams
variable {U : Upstream} {owner : String} {symbol : Symbol} {watch : Watch} {stretches : List Stretch} {socket : Socket}

theorem opened (history : List FeedStep) : Streams U owner symbol (.opened U history) [] where
  told := rfl
  moments := nofun
  within := nofun
  ordered := .nil
  place := Nat.le_refl _
  live _ found := by simp [Watch.opened, Socket.opened, Connection.new] at found

/-- What the actors do leaves the stretches alone. -/
theorem grown (streams : Streams U owner symbol watch stretches) (more : List FeedStep)
    (routed : Feed.Routed owner symbol (watch.history ++ more))
    (room : (Feed.new.run U (watch.history ++ more)).sequence symbol < u64Max) :
    Streams U owner symbol { watch with history := watch.history ++ more } stretches := by
  obtain ⟨counted, after, grows⟩ : Feed.Counted owner symbol (watch.feed U) ∧
      Feed.Counted owner symbol (Feed.new.run U (watch.history ++ more)) ∧
        Feed.Grows owner symbol (watch.feed U) (Feed.new.run U (watch.history ++ more)) := Feed.counted_later routed room
  have longer := counted.sequence_le after grows
  obtain ⟨extra, published⟩ := grows.published
  obtain ⟨later, sent⟩ := grows.sent
  have kept : ∀ stretch ∈ stretches, stretch.messages U symbol ((Feed.new.run U (watch.history ++ more)).published owner symbol) =
      stretch.messages U symbol ((watch.feed U).published owner symbol) := by
    intro stretch member
    have apart : cut Prod.fst (stretch.start U symbol) stretch.baseline extra = [] := by
      refine cut_eq_nil fun delta listed inside => ?_
      have late := counted.lt_of_later after published.symm listed
      have early := (streams.within stretch member).2
      omega
    unfold Stretch.messages Stretch.deltas
    rw [← published, cut_append, apart, List.append_nil]
  refine ⟨?_, ?_, ?_, streams.ordered, streams.place.trans grows.sent.length_le, fun depth found => ?_⟩
  · exact streams.told.trans (List.flatMap_congr fun stretch member => (kept stretch member).symm)
  · exact fun stretch member => (streams.moments stretch member).trans (List.prefix_append _ _)
  · exact fun stretch member => ⟨(streams.within stretch member).1, (streams.within stretch member).2.trans longer⟩
  · obtain ⟨before, last, split, same, baseline, covers⟩ := streams.live depth found
    refine ⟨before, last, split, same, baseline, fun ready delta member => covers ready delta ?_⟩
    change delta ∈ deltasOf symbol ((Feed.new.run U (watch.history ++ more)).sent.take watch.socket.position) at member
    rwa [← sent, List.take_append_of_le_length streams.place] at member

/-- A step that tells nothing of the book and leaves the baseline where it is. -/
theorem kept (streams : Streams U owner symbol watch stretches) (told : bookOf symbol socket.all = bookOf symbol watch.socket.all)
    (place : socket.position ≤ (watch.feed U).sent.length)
    (live : ∀ depth, socket.connection.subscriptions[(symbol, SubscriptionChannel.orderbook)]? = some depth →
      watch.socket.connection.subscriptions[(symbol, SubscriptionChannel.orderbook)]? = some depth ∧
        socket.connection.baselines[symbol]? = watch.socket.connection.baselines[symbol]?)
    (covers : ∀ baseline, watch.socket.connection.baselines[symbol]? = some baseline →
      (symbol, .orderbook) ∈ socket.connection.subscriptions → (symbol, .orderbook) ∉ socket.awaited.map Prod.fst →
      (symbol, .orderbook) ∉ watch.socket.awaited.map Prod.fst ∧
        ∀ delta ∈ deltasOf symbol ((watch.feed U).sent.take socket.position),
          delta ∈ deltasOf symbol ((watch.feed U).sent.take watch.socket.position) ∨ delta.1 ≤ baseline) :
    Streams U owner symbol ⟨watch.history, socket⟩ stretches := by
  refine ⟨told.trans streams.told, streams.moments, streams.within, streams.ordered, place, fun depth found => ?_⟩
  obtain ⟨held, same⟩ := live depth found
  obtain ⟨before, last, split, deep, baseline, covered⟩ := streams.live depth held
  refine ⟨before, last, split, deep, same.trans baseline, fun ready delta member => ?_⟩
  obtain ⟨past, reach⟩ := covers last.baseline baseline (Connection.mem_of_found found) ready
  exact (reach delta member).elim (covered past delta) id

/-- A snapshot starts a stretch. -/
theorem refreshed (streams : Streams U owner symbol watch stretches) (counted : Feed.Counted owner symbol (watch.feed U))
    {depth : Option Nat} (told : bookOf symbol socket.all = bookOf symbol watch.socket.all ++
      [(watch.feed U).manager.orderbookSnapshot symbol depth])
    (place : socket.position ≤ (watch.feed U).sent.length)
    (deep : socket.connection.subscriptions[(symbol, SubscriptionChannel.orderbook)]? = some depth)
    (baseline : socket.connection.baselines[symbol]? = some ((watch.feed U).sequence symbol)) :
    Streams U owner symbol ⟨watch.history, socket⟩ (stretches ++ [⟨watch.history, depth, (watch.feed U).sequence symbol⟩]) := by
  have begun : Stretch.start U symbol ⟨watch.history, depth, (watch.feed U).sequence symbol⟩ = (watch.feed U).sequence symbol := rfl
  refine ⟨?_, ?_, ?_, ?_, place, fun other found =>
    ⟨stretches, _, rfl, Option.some.inj (deep.symm.trans found), baseline, fun _ delta member => ?_⟩⟩
  · change bookOf symbol socket.all = Stretch.tape U symbol ((watch.feed U).published owner symbol) _
    unfold Stretch.tape
    rw [told, streams.told, List.flatMap_append, List.flatMap_singleton, Stretch.messages, Stretch.deltas, begun, cut_self]
    rfl
  · intro stretch member
    rcases List.mem_append.1 member with old | last
    · exact streams.moments stretch old
    · rw [List.mem_singleton.1 last]
  · intro stretch member
    rcases List.mem_append.1 member with old | last
    · exact streams.within stretch old
    · rw [List.mem_singleton.1 last]
      exact ⟨Nat.le_refl _, Nat.le_refl _⟩
  · refine List.pairwise_append.2 ⟨streams.ordered, List.pairwise_singleton .., fun stretch old last member => ?_⟩
    rw [List.mem_singleton.1 member]
    exact (streams.within stretch old).2
  · exact counted.mem_le (List.mem_append_left _ (((List.take_sublist _ _).filterMap _).subset member))

/-- A delta that is passed on moves the baseline to its sequence. -/
theorem forwarded (streams : Streams U owner symbol watch stretches) (counted : Feed.Counted owner symbol (watch.feed U))
    {sequence baseline : Nat} {changes : List PriceLevelChange}
    (there : (watch.feed U).sent[watch.socket.position]? = some (.orderbookDelta symbol sequence changes))
    (same : socket.connection.subscriptions = watch.socket.connection.subscriptions)
    (inside : (symbol, .orderbook) ∈ watch.socket.connection.subscriptions) (ready : watch.socket.awaited = [])
    (before : watch.socket.connection.baselines[symbol]? = some baseline) (past : baseline < sequence)
    (told : bookOf symbol socket.all = bookOf symbol watch.socket.all ++ [.orderbookDelta symbol sequence changes])
    (place : socket.position = watch.socket.position + 1) (after : socket.connection.baselines[symbol]? = some sequence) :
    ∃ stretches, Streams U owner symbol ⟨watch.history, socket⟩ stretches := by
  obtain ⟨depth, found⟩ := Option.isSome_iff_exists.1 (Std.ExtTreeMap.mem_iff_isSome_getElem?.1 inside)
  obtain ⟨early, last, rfl, deep, based, covers⟩ := streams.live depth found
  obtain rfl : baseline = last.baseline := Option.some.inj (before.symm.trans based)
  have behind := covers (by rw [ready]; exact List.not_mem_nil)
  have below := (List.getElem?_eq_some_iff.1 there).1
  have taken : (watch.feed U).sent.take socket.position =
      (watch.feed U).sent.take watch.socket.position ++ [.orderbookDelta symbol sequence changes] := by
    rw [place, List.take_add_one, there]
    rfl
  have one : deltasOf symbol [.orderbookDelta symbol sequence changes] = [(sequence, changes)] := by
    simp [deltasOf, WsMessage.delta?]
  have published : (watch.feed U).published owner symbol =
      deltasOf symbol ((watch.feed U).sent.take watch.socket.position) ++ [(sequence, changes)] ++
        (deltasOf symbol ((watch.feed U).sent.drop socket.position) ++ deltasOf symbol ((watch.feed U).pending owner)) := by
    rw [← one, ← deltasOf_append, ← taken, ← List.append_assoc, ← deltasOf_append, List.take_append_drop]
    rfl
  have next : cut Prod.fst last.baseline sequence ((watch.feed U).published owner symbol) = [(sequence, changes)] := by
    have ascends := counted.ascends
    rw [published] at ascends
    have reads := cut_past ascends behind
    have reached : reaches Prod.fst last.baseline [(sequence, changes)] = sequence := max_eq_right past.le
    have read : Lib.past Prod.fst last.baseline [(sequence, changes)] = [(sequence, changes)] := by
      rw [Lib.past, if_neg (Nat.not_le.2 past)]
      rfl
    rw [reached, read] at reads
    rw [published]
    exact reads
  have listed : (sequence, changes) ∈ (watch.feed U).published owner symbol := by
    rw [published]
    simp
  have bounds := streams.within last List.mem_concat_self
  have moved : Stretch.messages U symbol ((watch.feed U).published owner symbol) { last with baseline := sequence } =
      last.messages U symbol ((watch.feed U).published owner symbol) ++ [.orderbookDelta symbol sequence changes] := by
    unfold Stretch.messages Stretch.deltas
    dsimp only
    rw [show Stretch.start U symbol { last with baseline := sequence } = last.start U symbol from rfl,
      cut_split counted.ascends bounds.1 past.le, next, List.map_append]
    rfl
  refine ⟨early ++ [{ last with baseline := sequence }], ?_, ?_, ?_, ?_, ?_, fun other again =>
    ⟨early, _, rfl, ?_, after, fun _ delta member => ?_⟩⟩
  · change bookOf symbol socket.all = Stretch.tape U symbol ((watch.feed U).published owner symbol) _
    unfold Stretch.tape
    rw [told, streams.told, Stretch.tape, List.flatMap_append, List.flatMap_append, List.flatMap_singleton, List.flatMap_singleton,
      moved, List.append_assoc]
  · intro stretch member
    rcases List.mem_append.1 member with old | new
    · exact streams.moments stretch (List.mem_append_left _ old)
    · rw [List.mem_singleton.1 new]
      exact streams.moments last List.mem_concat_self
  · intro stretch member
    rcases List.mem_append.1 member with old | new
    · exact streams.within stretch (List.mem_append_left _ old)
    · rw [List.mem_singleton.1 new]
      exact ⟨bounds.1.trans past.le, counted.mem_le listed⟩
  · obtain ⟨front, -, apart⟩ := List.pairwise_append.1 streams.ordered
    refine List.pairwise_append.2 ⟨front, List.pairwise_singleton .., fun stretch old new member => ?_⟩
    rw [List.mem_singleton.1 member]
    exact apart stretch old last (List.mem_singleton_self _)
  · rw [place]
    exact below
  · rw [same, found] at again
    exact deep.trans (Option.some.inj again)
  · change delta ∈ deltasOf symbol ((watch.feed U).sent.take socket.position) at member
    rw [taken, deltasOf_append, one] at member
    rcases List.mem_append.1 member with old | new
    · exact (behind delta old).trans past.le
    · rw [List.mem_singleton.1 new]

/-- What an unsubscription leaves of an order book is as it was. -/
theorem unsubscribed_book {connection : Connection} {depth : Option Nat} (items : List SubscribeParams)
    (found : (items.foldl (fun connection item => (connection.unsubscribe U item.channel item.symbol).2) connection).subscriptions[
      (symbol, SubscriptionChannel.orderbook)]? = some depth) :
    connection.subscriptions[(symbol, SubscriptionChannel.orderbook)]? = some depth ∧ (items.foldl
      (fun connection item => (connection.unsubscribe U item.channel item.symbol).2) connection).baselines[symbol]? =
        connection.baselines[symbol]? := by
  induction items generalizing connection with
  | nil => exact ⟨found, rfl⟩
  | cons item rest ih =>
    obtain ⟨held, same⟩ := ih found
    obtain ⟨apart, present⟩ := Connection.of_found_erase held
    refine ⟨present, same.trans ?_⟩
    unfold Connection.unsubscribe
    dsimp only
    split
    next book =>
      have unlike : Connection.tornDown U item.channel item.symbol ≠ symbol := fun equal => apart (by rw [equal, book])
      rw [Std.ExtTreeMap.getElem?_erase, if_neg (by rwa [Std.LawfulEqCmp.compare_eq_iff_eq])]
    next => rfl

/-- What the socket does. -/
theorem moved (streams : Streams U owner symbol watch stretches) (counted : Feed.Counted owner symbol (watch.feed U))
    (tidy : watch.socket.Tidy U) {capacity : Nat} (moved : watch.socket.Moved U capacity (watch.feed U) socket) :
    ∃ stretches, Streams U owner symbol ⟨watch.history, socket⟩ stretches := by
  cases moved with
  | said kept same place awaited =>
    refine ⟨stretches, streams.kept (bookOf_kept kept) (place ▸ streams.place) (fun depth found => ?_) fun _ _ _ ready => ?_⟩
    · rw [same] at found ⊢
      exact ⟨found, rfl⟩
    · rw [awaited] at ready
      rw [place]
      exact ⟨ready, fun _ member => Or.inl member⟩
  | unsubscribed items done kept place before after =>
    refine ⟨stretches, streams.kept (bookOf_kept kept) (place ▸ streams.place) (fun depth found => ?_) fun _ _ _ _ => ?_⟩
    · rw [done] at found ⊢
      exact unsubscribed_book items found
    · rw [before, place]
      exact ⟨List.not_mem_nil, fun _ member => Or.inl member⟩
  | subscribed params replies done grown place before after =>
    have told : bookOf symbol socket.all = bookOf symbol watch.socket.all ++ bookOf symbol replies := bookOf_grown grown
    have covers : ∀ baseline, watch.socket.connection.baselines[symbol]? = some baseline →
        (symbol, .orderbook) ∈ socket.connection.subscriptions → (symbol, .orderbook) ∉ socket.awaited.map Prod.fst →
        (symbol, .orderbook) ∉ watch.socket.awaited.map Prod.fst ∧
          ∀ delta ∈ deltasOf symbol ((watch.feed U).sent.take socket.position),
            delta ∈ deltasOf symbol ((watch.feed U).sent.take watch.socket.position) ∨ delta.1 ≤ baseline := by
      intro _ _ _ _
      rw [before, place]
      exact ⟨List.not_mem_nil, fun _ member => Or.inl member⟩
    generalize reached : socket.connection = connection at done
    cases done with
    | refused error plain =>
      refine ⟨stretches, streams.kept (told.trans (List.append_nil _)) (place ▸ streams.place) (fun depth found => ?_) covers⟩
      rw [reached] at found ⊢
      exact ⟨found, rfl⟩
    | streamed key apart canonical room =>
      refine ⟨stretches, streams.kept (told.trans (List.append_nil _)) (place ▸ streams.place) (fun depth found => ?_) covers⟩
      rw [reached] at found ⊢
      rcases Connection.of_found_insert found with ⟨same, -⟩ | ⟨-, old⟩
      · exact absurd (congrArg Prod.snd same).symm apart
      · exact ⟨old, rfl⟩
    | booked other book parsed room =>
      have shown : bookOf symbol [Reply.market ((watch.feed U).manager.orderbookSnapshot other params.depth),
          .subscribed params.channel other] = if other = symbol then [(watch.feed U).manager.orderbookSnapshot other params.depth] else [] :=
        bookOf_snapshot (watch.feed U).manager params.depth
      rw [shown] at told
      by_cases same : other = symbol
      · subst same
        rw [if_pos rfl] at told
        refine ⟨_, streams.refreshed counted told (place ▸ streams.place) ?_ ?_⟩
        · rw [reached, book, Std.ExtTreeMap.getElem?_insert_self]
        · rw [reached, Std.ExtTreeMap.getElem?_insert_self]
          rfl
      · rw [if_neg same, List.append_nil] at told
        refine ⟨stretches, streams.kept told (place ▸ streams.place) (fun depth found => ?_) covers⟩
        rw [reached] at found ⊢
        rcases Connection.of_found_insert found with ⟨equal, -⟩ | ⟨-, old⟩
        · exact absurd (congrArg Prod.fst equal).symm same
        · refine ⟨old, ?_⟩
          rw [Std.ExtTreeMap.getElem?_insert, if_neg (by rwa [Std.LawfulEqCmp.compare_eq_iff_eq])]
  | lagged behind far kept same place before after =>
    refine ⟨stretches, streams.kept (bookOf_kept kept) ?_ (fun depth found => ?_) fun _ _ inside ready => ?_⟩
    · rw [place]
      exact Nat.sub_le _ _
    · rw [same] at found ⊢
      exact ⟨found, rfl⟩
    · -- the resync has yet to come to the book
      rw [same] at inside
      obtain ⟨depth, found⟩ := Option.isSome_iff_exists.1 (Std.ExtTreeMap.mem_iff_isSome_getElem?.1 inside)
      rw [after] at ready
      exact absurd (List.mem_map.2 ⟨_, Std.ExtTreeMap.mem_toList_iff_getElem?_eq_some.2 found, rfl⟩) ready
  | resynced item rest before after done grown place =>
    obtain ⟨⟨key, channel⟩, depth⟩ := item
    have held : watch.socket.connection.subscriptions[(key, channel)]? = some depth := tidy.queued _ (before ▸ List.mem_cons_self)
    have queued := Connection.mem_of_found held
    have told : bookOf symbol socket.all = bookOf symbol watch.socket.all ++ bookOf symbol _ := bookOf_grown grown
    by_cases book : channel = .orderbook
    · subst book
      rw [Connection.resnapshotItem_book tidy.sound queued] at done told
      rw [bookOf_snapshot] at told
      by_cases same : key = symbol
      · subst same
        rw [if_pos rfl] at told
        refine ⟨_, streams.refreshed counted told (place ▸ streams.place) ?_ ?_⟩
        · rw [done]
          exact held
        · rw [done, Std.ExtTreeMap.getElem?_insert_self]
          rfl
      · rw [if_neg same, List.append_nil] at told
        refine ⟨stretches, streams.kept told (place ▸ streams.place) (fun depth found => ?_) fun _ _ _ ready => ?_⟩
        · rw [done] at found ⊢
          refine ⟨found, ?_⟩
          rw [Std.ExtTreeMap.getElem?_insert, if_neg (by rwa [Std.LawfulEqCmp.compare_eq_iff_eq])]
        · rw [after] at ready
          rw [before, place]
          refine ⟨fun member => ?_, fun _ member => Or.inl member⟩
          rcases List.mem_cons.1 member with equal | late
          · exact same (congrArg Prod.fst equal).symm
          · exact ready late
    · rw [Connection.resnapshotItem_stream book] at done told
      refine ⟨stretches, streams.kept (told.trans (List.append_nil _)) (place ▸ streams.place) (fun depth found => ?_) fun _ _ _ ready => ?_⟩
      · rw [done] at found ⊢
        exact ⟨found, rfl⟩
      · rw [after] at ready
        rw [before, place]
        refine ⟨fun member => ?_, fun _ member => Or.inl member⟩
        rcases List.mem_cons.1 member with equal | late
        · exact book (congrArg Prod.snd equal).symm
        · exact ready late
  | pulled message forward there near done grown place before after =>
    have below : watch.socket.position < (watch.feed U).sent.length := (List.getElem?_eq_some_iff.1 there).1
    have next : socket.position ≤ (watch.feed U).sent.length := by
      rw [place]
      exact below
    have told : bookOf symbol socket.all = bookOf symbol watch.socket.all ++ bookOf symbol (forward.map Reply.market).toList := by
      rw [← bookOf_streamed socket.all, grown, bookOf_append, bookOf_streamed]
    have covers (reach : ∀ baseline, watch.socket.connection.baselines[symbol]? = some baseline →
          (symbol, .orderbook) ∈ socket.connection.subscriptions → ∀ delta ∈ deltasOf symbol [message], delta.1 ≤ baseline) :
        ∀ baseline, watch.socket.connection.baselines[symbol]? = some baseline →
        (symbol, .orderbook) ∈ socket.connection.subscriptions → (symbol, .orderbook) ∉ socket.awaited.map Prod.fst →
        (symbol, .orderbook) ∉ watch.socket.awaited.map Prod.fst ∧
          ∀ delta ∈ deltasOf symbol ((watch.feed U).sent.take socket.position),
            delta ∈ deltasOf symbol ((watch.feed U).sent.take watch.socket.position) ∨ delta.1 ≤ baseline := by
      intro baseline based inside _
      rw [before, place, List.take_add_one, there, deltasOf_append]
      exact ⟨List.not_mem_nil, fun delta member => (List.mem_append.1 member).imp id (reach baseline based inside delta)⟩
    generalize reached : socket.connection = connection at done
    cases done with
    | unwanted apart =>
      refine ⟨stretches, streams.kept (told.trans (List.append_nil _)) next (fun depth found => ?_) (covers fun _ _ inside delta member => ?_)⟩
      · rw [reached] at found ⊢
        exact ⟨found, rfl⟩
      · rw [reached] at inside
        obtain ⟨changes, rfl⟩ := delta_of_mem member
        exact absurd inside (apart _ _ _ rfl)
    | seen key sequence classified inside upto =>
      refine ⟨stretches, streams.kept (told.trans (List.append_nil _)) next (fun depth found => ?_)
        (covers fun baseline based _ delta member => ?_)⟩
      · rw [reached] at found ⊢
        exact ⟨found, rfl⟩
      · obtain ⟨changes, rfl⟩ := delta_of_mem member
        cases classified
        rw [based] at upto
        exact upto
    | fresh key sequence classified inside past =>
      obtain ⟨changes, rfl⟩ := delta_of_classified classified
      by_cases same : key = symbol
      · subst same
        obtain ⟨depth, found⟩ := Option.isSome_iff_exists.1 (Std.ExtTreeMap.mem_iff_isSome_getElem?.1 inside)
        obtain ⟨_, last, _, _, based, _⟩ := streams.live depth found
        rw [based] at past
        have shown : bookOf key [.market (.orderbookDelta key sequence changes)] = [.orderbookDelta key sequence changes] := by
          simp [bookOf, Reply.bookMessage?]
        refine streams.forwarded counted there (by rw [reached]) inside before based past (told.trans (congrArg _ shown)) place ?_
        rw [reached, Std.ExtTreeMap.getElem?_insert_self]
      · have shown : bookOf symbol [.market (.orderbookDelta key sequence changes)] = [] := by
          simp [bookOf, Reply.bookMessage?, same]
        refine ⟨stretches, streams.kept (told.trans ((congrArg _ shown).trans (List.append_nil _))) next (fun depth found => ?_)
          (covers fun _ _ _ delta member => ?_)⟩
        · rw [reached] at found ⊢
          refine ⟨found, ?_⟩
          rw [Std.ExtTreeMap.getElem?_insert, if_neg (by rwa [Std.LawfulEqCmp.compare_eq_iff_eq])]
        · obtain ⟨_, equal⟩ := delta_of_mem member
          cases equal
          exact absurd rfl same
    | streamed channel key classified inside =>
      have shown : bookOf symbol [.market message] = [] := by
        cases message with
        | orderbookDelta => cases classified
        | orderbookSnapshot => cases classified
        | _ => rfl
      refine ⟨stretches, streams.kept (told.trans ((congrArg _ shown).trans (List.append_nil _))) next (fun depth found => ?_)
        (covers fun _ _ _ delta member => ?_)⟩
      · rw [reached] at found ⊢
        exact ⟨found, rfl⟩
      · obtain ⟨changes, rfl⟩ := delta_of_mem member
        cases classified

end Streams

end Fauxchange.Ws
