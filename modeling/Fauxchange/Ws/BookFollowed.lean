import Fauxchange.Fix.MessageRoundTrip
import Fauxchange.Ws.BookTold

/-! What the client of a socket can rely on as to an order book: no delta is missing between two messages, and a client at
full depth that has caught up holds the venue's book. -/

namespace Fauxchange.Ws
open Lib MarketData
open Exchange hiding VenueError
open Fauxchange.Fix (VenueError Renormal)

def bookSequence : WsMessage → Nat
  | .orderbookSnapshot _ sequence .. | .orderbookDelta _ sequence _ => sequence
  | _ => 0

/-- A delta has the next sequence; a snapshot goes back behind nothing. -/
def Continues (before : WsMessage) : WsMessage → Prop
  | .orderbookDelta _ sequence _ => sequence = bookSequence before + 1
  | .orderbookSnapshot _ sequence .. => bookSequence before ≤ sequence
  | _ => False

/-- What the messages of an order book tell the client. -/
structure BookFollowed (U : Upstream) (owner : String) (symbol : Symbol) (watch : Watch) : Prop where
  chained : (bookOf symbol watch.socket.all).IsChain Continues
  opening : ∀ message, (bookOf symbol watch.socket.all).head? = some message →
    ∃ sequence bids asks, message = .orderbookSnapshot symbol sequence bids asks
  snapshots : ∀ sequence bids asks, .orderbookSnapshot symbol sequence bids asks ∈ bookOf symbol watch.socket.all →
    ∃ moment depth, moment <+: watch.history ∧
      .orderbookSnapshot symbol sequence bids asks = (Feed.new.run U moment).manager.orderbookSnapshot symbol depth
  deltas : ∀ sequence changes, .orderbookDelta symbol sequence changes ∈ bookOf symbol watch.socket.all →
    (((watch.feed U).published owner symbol).filter fun delta => delta.1 = sequence) = [(sequence, changes)]

section Chains
variable {U : Upstream} {owner : String} {symbol : Symbol} {published : List Delta}

/-- Deltas with the sequences past a message continue it one by one. -/
theorem chained_deltas {deltas : List Delta} {before : WsMessage}
    (numbered : deltas.map Prod.fst = List.range' (bookSequence before + 1) deltas.length) :
    (before :: deltas.map fun delta => .orderbookDelta symbol delta.1 delta.2).IsChain Continues := by
  induction deltas generalizing before with
  | nil => exact .singleton _
  | cons delta rest ih =>
    rw [List.map_cons, List.length_cons, List.range'_succ, List.cons.injEq] at numbered
    refine .cons_cons numbered.1 (ih ?_)
    rw [numbered.2]
    exact congrArg (List.range' · _) (congrArg (· + 1) numbered.1.symm)

/-- The middle of a row of sequences. -/
theorem range'_between (first middle last : Nat) :
    (List.range' 1 (first + middle + last)).filter (fun sequence => first < sequence ∧ sequence ≤ first + middle) =
      List.range' (first + 1) middle := by
  rw [← List.range'_append_1, ← List.range'_append_1, List.filter_append, List.filter_append, List.filter_eq_nil_iff.2,
    List.filter_eq_self.2, List.filter_eq_nil_iff.2, List.nil_append, List.append_nil, Nat.add_comm 1 first]
  all_goals
    intro sequence member
    rw [List.mem_range'_1] at member
    simp only [decide_eq_true_eq]
    omega

/-- The deltas of a stretch have the sequences past its start, up to its baseline. -/
theorem Stretch.deltas_numbered {feed : Feed} (counted : Feed.Counted owner symbol feed) {stretch : Stretch}
    (within : stretch.start U symbol ≤ stretch.baseline ∧ stretch.baseline ≤ feed.sequence symbol) :
    (stretch.deltas U symbol (feed.published owner symbol)).map Prod.fst =
      List.range' (stretch.start U symbol + 1) (stretch.baseline - stretch.start U symbol) := by
  have kept : (stretch.deltas U symbol (feed.published owner symbol)).map Prod.fst =
      ((feed.published owner symbol).map Prod.fst).filter fun sequence => stretch.start U symbol < sequence ∧ sequence ≤ stretch.baseline := by
    unfold Stretch.deltas cut
    rw [List.filter_map]
    rfl
  have whole : feed.sequence symbol =
      stretch.start U symbol + (stretch.baseline - stretch.start U symbol) + (feed.sequence symbol - stretch.baseline) := by
    omega
  have numbers := range'_between (stretch.start U symbol) (stretch.baseline - stretch.start U symbol) (feed.sequence symbol - stretch.baseline)
  rw [← whole, Nat.add_sub_cancel' within.1] at numbers
  rw [kept, counted.sequences, ← counted.sequence]
  exact numbers

/-- The last message of a stretch is at its baseline or behind it. -/
theorem Stretch.messages_upto {feed : Feed} {stretch : Stretch} {message : WsMessage}
    (within : stretch.start U symbol ≤ stretch.baseline) (member : message ∈ stretch.messages U symbol (feed.published owner symbol)) :
    bookSequence message ≤ stretch.baseline := by
  rcases List.mem_cons.1 member with rfl | later
  · exact within
  · obtain ⟨delta, listed, rfl⟩ := List.mem_map.1 later
    exact (mem_cut.1 listed).2.2

/-- Stretches one after another. -/
theorem Stretch.tape_chained {feed : Feed} (counted : Feed.Counted owner symbol feed) {stretches : List Stretch}
    (within : ∀ stretch ∈ stretches, stretch.start U symbol ≤ stretch.baseline ∧ stretch.baseline ≤ feed.sequence symbol)
    (ordered : stretches.Pairwise fun early late => early.baseline ≤ late.start U symbol) :
    (Stretch.tape U symbol (feed.published owner symbol) stretches).IsChain Continues := by
  induction stretches with
  | nil => exact .nil
  | cons stretch rest ih =>
    obtain ⟨first, later⟩ := List.forall_mem_cons.1 within
    obtain ⟨apart, sorted⟩ := List.pairwise_cons.1 ordered
    have chained : (stretch.messages U symbol (feed.published owner symbol)).IsChain Continues := by
      refine chained_deltas ?_
      have numbers := Stretch.deltas_numbered counted first
      have count := congrArg List.length numbers
      rw [List.length_map, List.length_range'] at count
      rw [count]
      exact numbers
    unfold Stretch.tape
    rw [List.flatMap_cons]
    refine List.isChain_append.2 ⟨chained, ih later sorted, fun last ends next opens => ?_⟩
    cases rest with
    | nil => cases opens
    | cons following rest =>
      rw [List.flatMap_cons, Stretch.messages, List.cons_append, List.head?_cons, Option.mem_some_iff] at opens
      subst opens
      have before := Stretch.messages_upto first.1 (List.mem_of_getLast? ends)
      exact before.trans (apart following List.mem_cons_self)

end Chains

section Follow
variable {U : Upstream} {owner : String} {symbol : Symbol} {watch : Watch} {stretches : List Stretch}

/-- The moment of a snapshot, or the place of a delta. -/
theorem Streams.mem_cases (streams : Streams U owner symbol watch stretches) {message : WsMessage}
    (member : message ∈ bookOf symbol watch.socket.all) :
    (∃ moment depth, moment <+: watch.history ∧ message = (Feed.new.run U moment).manager.orderbookSnapshot symbol depth) ∨
      ∃ delta ∈ (watch.feed U).published owner symbol, message = .orderbookDelta symbol delta.1 delta.2 := by
  rw [streams.told] at member
  obtain ⟨stretch, listed, member⟩ := List.mem_flatMap.1 member
  rcases List.mem_cons.1 member with rfl | later
  · exact Or.inl ⟨stretch.moment, stretch.depth, streams.moments stretch listed, rfl⟩
  · obtain ⟨delta, inside, rfl⟩ := List.mem_map.1 later
    exact Or.inr ⟨delta, (mem_cut.1 inside).1, rfl⟩

theorem Streams.followed (streams : Streams U owner symbol watch stretches) (counted : Feed.Counted owner symbol (watch.feed U)) :
    BookFollowed U owner symbol watch where
  chained := by
    rw [streams.told]
    exact Stretch.tape_chained counted streams.within streams.ordered
  opening message first := by
    rw [streams.told] at first
    cases stretches with
    | nil => cases first
    | cons stretch rest =>
      cases first
      exact ⟨_, _, _, rfl⟩
  snapshots sequence bids asks member := by
    rcases streams.mem_cases member with ⟨moment, depth, earlier, same⟩ | ⟨delta, -, same⟩
    · exact ⟨moment, depth, earlier, same⟩
    · cases same
  deltas sequence changes member := by
    rcases streams.mem_cases member with ⟨moment, depth, -, same⟩ | ⟨delta, published, same⟩
    · cases same
    · cases same
      exact counted.ascends.filter_key published

/-- A socket follows an order book from its opening. -/
theorem Streams.run {capacity : Nat} {history : List FeedStep} {steps : List SocketStep} (renormal : Renormal U)
    (ran : runFrom (Watch.step U capacity) (.opened U history) steps = some watch)
    (routed : Feed.Routed owner symbol watch.history) (room : (watch.feed U).sequence symbol < u64Max) :
    ∃ stretches, Streams U owner symbol watch stretches := by
  let follows := fun state : Watch => state.socket.Tidy U ∧ (Feed.Routed owner symbol state.history →
    (state.feed U).sequence symbol < u64Max → ∃ stretches, Streams U owner symbol state stretches)
  have preserved : ∀ state step next, follows state → state.step U capacity step = some next → follows next := by
    rintro state step next ⟨tidy, streaming⟩ taken
    rcases state.step_cases renormal tidy taken with ⟨fed, -, rfl⟩ | ⟨history, after, moved⟩
    · refine ⟨tidy, fun routed room => ?_⟩
      have below : (state.feed U).sequence symbol < u64Max := Feed.earlier_room room
      obtain ⟨stretches, streams⟩ := streaming (routed.subset (List.subset_append_left _ _)) below
      exact ⟨stretches, streams.grown [fed] routed room⟩
    · obtain ⟨actors, socket⟩ := next
      obtain rfl : actors = state.history := history
      refine ⟨after, fun routed room => ?_⟩
      obtain ⟨stretches, streams⟩ := streaming routed room
      exact streams.moved (Feed.counted_run routed room) tidy moved
  have initially : follows (.opened U history) := ⟨Socket.tidy_opened U _, fun _ _ => ⟨[], .opened history⟩⟩
  exact (runFrom_preserved preserved initially ran).2 routed room

/-- Whatever the actors do, the client asks for and the broadcast loses: the client of a socket is told of an order book
first a snapshot, then deltas with the sequences one after another until the next snapshot, which goes back behind none of
them; each snapshot is that of a moment, and each delta the one that was published under its sequence. -/
theorem book_unbroken {capacity : Nat} {history : List FeedStep} {steps : List SocketStep} (renormal : Renormal U)
    (ran : runFrom (Watch.step U capacity) (.opened U history) steps = some watch)
    (routed : Feed.Routed owner symbol watch.history) (room : (watch.feed U).sequence symbol < u64Max) :
    BookFollowed U owner symbol watch := by
  obtain ⟨stretches, streams⟩ := Streams.run renormal ran routed room
  exact streams.followed (Feed.counted_run routed room)

/-- The actor of a contract has sent what it folded, and a socket that follows its book is past all that. -/
structure Watch.CaughtUp (U : Upstream) (owner : String) (symbol : Symbol) (depth : Option Nat) (watch : Watch) : Prop where
  subscribed : watch.socket.connection.subscriptions[(symbol, SubscriptionChannel.orderbook)]? = some depth
  resynced : (symbol, .orderbook) ∉ watch.socket.awaited.map Prod.fst
  pulled : watch.socket.position = (watch.feed U).sent.length
  sent : (watch.feed U).pending owner = []

/-- A socket that has caught up is at the sequence of the venue. -/
theorem Streams.caughtUp (streams : Streams U owner symbol watch stretches) (counted : Feed.Counted owner symbol (watch.feed U))
    {depth : Option Nat} (caughtUp : watch.CaughtUp U owner symbol depth) :
    ∃ before last, stretches = before ++ [last] ∧ last.depth = depth ∧ last.baseline = (watch.feed U).sequence symbol := by
  obtain ⟨before, last, rfl, deep, -, covers⟩ := streams.live depth caughtUp.subscribed
  refine ⟨before, last, rfl, deep, le_antisymm (streams.within last List.mem_concat_self).2 ?_⟩
  have behind := covers caughtUp.resynced
  rw [caughtUp.pulled, List.take_length] at behind
  exact counted.sequence_le_of_sent caughtUp.sent behind

end Follow

/-! A reader that loses the delta of a bid: the broadcast keeps one message. -/

def readerSymbol : Symbol := "BTC-20351231-50000-C"

def readerBid : FeedStep :=
  .commit "BTC" (.new 0 1 (.addOrder ⟨readerSymbol, "a", "acct-1", 7, none, .buy, .limit, some 100, 5, .gtc, .none⟩) (.added [] 5 []))

def readerCancel : FeedStep := .commit "BTC" (.new 1 2 (.cancelOrder readerSymbol "a" "acct-1") (.cancelled "a"))

def readerSteps : List SocketStep :=
  [.frame (.action (.subscribe ⟨.orderbook, readerSymbol, none⟩) none), .feed readerBid, .feed (.send "BTC"), .feed readerCancel,
    .feed (.send "BTC"), .receive, .work, .work, .receive]

def readerWatch : Watch := (runFrom (Watch.step referenceUpstream 1) (.opened referenceUpstream []) readerSteps).getD (.opened referenceUpstream [])

theorem readerWatch_run : runFrom (Watch.step referenceUpstream 1) (.opened referenceUpstream []) readerSteps = some readerWatch := by
  have finished : (runFrom (Watch.step referenceUpstream 1) (.opened referenceUpstream []) readerSteps).isSome = true := by decide +kernel
  rw [readerWatch, ← Option.get_eq_getD _ (h := finished), Option.some_get]

theorem readerWatch_routed : Feed.Routed "BTC" readerSymbol readerWatch.history := by
  have history : readerWatch.history = [readerBid, .send "BTC", readerCancel, .send "BTC"] := by decide +kernel
  intro underlying event member named
  rw [history] at member
  simp only [readerBid, readerCancel, List.mem_cons, FeedStep.commit.injEq, reduceCtorEq, List.not_mem_nil, or_false, false_or] at member
  rcases member with ⟨rfl, -⟩ | ⟨rfl, -⟩
  · rfl
  · rfl

theorem reader_unbroken : BookFollowed referenceUpstream "BTC" readerSymbol readerWatch :=
  book_unbroken Fix.renormal_reference readerWatch_run readerWatch_routed (by decide +kernel)

end Fauxchange.Ws
