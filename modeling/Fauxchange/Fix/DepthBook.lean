import Fauxchange.Fix.BookRuns
import Fauxchange.MarketData.Depth

/-! The book that a client keeps from the frames of a symbol, at the depth that it asked for, against the aggregate
of the venue. -/

namespace Fauxchange.Fix
open Exchange Lib MarketData

/-- The book side of an entry, where it has one. -/
def MdEntryType.bookSide? : MdEntryType → Option BookSide
  | .bid => some .bid
  | .offer => some .ask
  | .trade => none

/-- A client writes the level of a refresh. -/
def SnapshotEntry.write (entry : SnapshotEntry) (levels : MarketData.Levels) : MarketData.Levels :=
  match entry.entryType.bookSide? with
  | some side => levels.setLevel side ((levels.level side).insert entry.price entry.size)
  | none => levels

/-- A client sets or deletes the level of an increment. -/
def IncrementalEntry.write (entry : IncrementalEntry) (levels : MarketData.Levels) : MarketData.Levels :=
  match entry.entryType.bookSide? with
  | some side => levels.setLevel side
      (if entry.updateAction = .delete then (levels.level side).erase entry.price
      else (levels.level side).insert entry.price entry.size)
  | none => levels

/-- A client's book after a frame: a refresh replaces it, and of what an increment leaves only the best stays. -/
def clientBook (depth : Nat) (levels : MarketData.Levels) : BookFrame → MarketData.Levels
  | .full _ _ entries => entries.foldl (fun levels entry => entry.write levels) .empty
  | .incremental _ _ entries => (entries.foldl (fun levels entry => entry.write levels) levels).keepDepth depth

/-- The aggregate of a symbol at one moment. -/
def aggregate (symbol : Symbol) (feed : Feed) : MarketData.Levels := (feed.manager.instrument symbol).levels

section Clients
variable {depth : Nat} {sides : RequestedSides} {symbol : Symbol}

/-- A client writes an increment as the venue's own changes of the requested sides. -/
theorem foldl_incrementalEntries (symbol : Symbol) (changes : List PriceLevelChange) (client : MarketData.Levels) :
    (incrementalEntries symbol changes sides).foldl (fun levels entry => entry.write levels) client =
      (changes.filter fun change => sides.includes change.side).foldl Levels.applyChange client := by
  unfold incrementalEntries
  rw [List.foldl_map]
  refine List.foldl_ext _ _ _ fun levels change _ => ?_
  unfold IncrementalEntry.write Levels.applyChange
  cases change.side <;> by_cases gone : change.quantity = 0 <;> simp [gone, entryTypeFor, MdEntryType.bookSide?]

/-- What a refresh writes on one side. -/
theorem level_foldl_write (entries : List SnapshotEntry) (levels : MarketData.Levels) (side : BookSide) :
    (entries.foldl (fun levels entry => entry.write levels) levels).level side =
      writeAll SnapshotEntry.price SnapshotEntry.size (levels.level side)
        (entries.filter fun entry => entry.entryType.bookSide? = some side) := by
  induction entries generalizing levels with
  | nil => rfl
  | cons entry rest ih =>
    rw [List.foldl_cons, ih, List.filter_cons]
    cases filed : entry.entryType.bookSide? with
    | none =>
      rw [if_neg (by simp), SnapshotEntry.write, filed]
    | some other =>
      by_cases same : other = side
      · subst same
        rw [if_pos (by simp), SnapshotEntry.write, filed, Levels.level_setLevel_self]
        rfl
      · rw [if_neg (by simpa using same), SnapshotEntry.write, filed]
        dsimp only
        rw [Levels.level_setLevel_of_ne _ (Ne.symm same)]

/-- The entries of one requested side, best first. -/
theorem snapshotEntries_side (levels : MarketData.Levels) {side : BookSide} (requested : sides.includes side) :
    ((snapshotEntries (Levels.truncated (some depth) (Levels.levelData levels.bids.toList.reverse))
        (Levels.truncated (some depth) (Levels.levelData levels.asks.toList)) sides).filter fun entry =>
          entry.entryType.bookSide? = some side) =
      ((levels.best side).take depth).map fun entry => ⟨entryTypeFor side, entry.1, entry.2⟩ := by
  have none : ∀ (entryType : MdEntryType) (list : List PriceLevelData), entryType.bookSide? ≠ some side →
      ((list.map fun level => (⟨entryType, level.price, level.quantity⟩ : SnapshotEntry)).filter fun entry =>
        entry.entryType.bookSide? = some side) = [] := by
    intro entryType list apart
    refine List.filter_eq_nil_iff.2 fun entry member => ?_
    obtain ⟨level, -, rfl⟩ := List.mem_map.1 member
    simpa using apart
  have all : ∀ (entryType : MdEntryType) (list : List (Nat × Nat)), entryType.bookSide? = some side →
      (((Levels.truncated (some depth) (Levels.levelData list)).map fun level =>
        (⟨entryType, level.price, level.quantity⟩ : SnapshotEntry)).filter fun entry => entry.entryType.bookSide? = some side) =
        (list.take depth).map fun entry => ⟨entryType, entry.1, entry.2⟩ := by
    intro entryType list same
    rw [List.filter_eq_self.2]
    · rw [Levels.truncated, Levels.levelData, ← List.map_take, List.map_map]
      rfl
    · intro entry member
      obtain ⟨level, -, rfl⟩ := List.mem_map.1 member
      exact decide_eq_true same
  unfold snapshotEntries
  dsimp only
  rw [List.filter_append]
  cases side with
  | bid =>
    have asked : sides.bids = true := requested
    rw [if_pos asked, all .bid _ rfl]
    split
    next =>
      rw [none .offer _ (by decide), List.append_nil]
      rfl
    next => exact List.append_nil _
  | ask =>
    have asked : sides.asks = true := requested
    rw [if_pos asked, all .offer _ rfl]
    split
    next =>
      rw [none .bid _ (by decide), List.nil_append]
      rfl
    next => exact List.nil_append _

/-- A client that takes a refresh has the best levels of its moment. -/
theorem holdsBest_refresh (symbol : Symbol) (feed : Feed) {sub : MdSymbolSub} (bounded : sub.depth = some depth) (client : MarketData.Levels) :
    HoldsBest depth sub.sides.includes (aggregate symbol feed) (clientBook depth client (refreshFrame feed symbol sub)) := by
  intro side requested
  unfold refreshFrame clientBook
  dsimp only
  rw [level_foldl_write, bounded, snapshotEntries_side _ requested, show Levels.empty.level side = ∅ by cases side <;> rfl]
  exact writeAll_best (fun _ => rfl) fun _ => rfl

/-- Each delta of a row is announced, at the aggregate that it is applied to. -/
def AllAnnounced (depth : Nat) (follows : BookSide → Bool) : MarketData.Levels → List Delta → Prop
  | _, [] => True
  | levels, delta :: rest =>
    Announced depth follows levels delta.2 ∧ AllAnnounced depth follows (delta.2.foldl Levels.applyChange levels) rest

instance {depth : Nat} {follows : BookSide → Bool} : (levels : MarketData.Levels) → (deltas : List Delta) →
    Decidable (AllAnnounced depth follows levels deltas)
  | _, [] => .isTrue trivial
  | levels, delta :: rest =>
    have : Decidable (AllAnnounced depth follows (delta.2.foldl Levels.applyChange levels) rest) :=
      instDecidableAllAnnounced (delta.2.foldl Levels.applyChange levels) rest
    inferInstanceAs (Decidable (_ ∧ _))

/-- A client that has the best levels has them again after the increments of announced deltas. -/
theorem holdsBest_told (symbol : Symbol) (mdReqId : String) {levels client : MarketData.Levels} {deltas : List Delta}
    (holds : HoldsBest depth sides.includes levels client) (announced : AllAnnounced depth sides.includes levels deltas) :
    HoldsBest depth sides.includes (applyDeltas levels deltas)
      ((increments symbol mdReqId sides deltas).foldl (clientBook depth) client) := by
  induction deltas generalizing levels client with
  | nil => exact holds
  | cons delta rest ih =>
    obtain ⟨first, later⟩ := announced
    unfold increments at ih ⊢
    rw [List.filterMap_cons]
    split
    next silent => exact ih (holds.untold (List.map_eq_nil_iff.1 (increment_eq_none_iff.1 silent))) later
    next frame shown =>
      obtain ⟨-, rfl⟩ := increment_eq_some_iff.1 shown
      refine ih ?_ later
      have applied := holds.applied first
      rw [← foldl_incrementalEntries symbol] at applied
      exact applied

end Clients

/-- The actor of a symbol has sent what it folded, and a live session is past it. -/
structure BookWatch.CaughtUp (U : Upstream) (owner : String) (symbol : Symbol) (watch : BookWatch) : Prop where
  subscribed : (subscription watch.marketData symbol).isSome
  sent : (watch.feed U).pending owner = []
  pulled : watch.position = (watch.feed U).sent.length

section Receipts
variable {U : Upstream} {owner : String} {symbol : Symbol} {watch : BookWatch} {stretches : List Stretch}

/-- Two splits of a list at its last item of a kind are one. -/
theorem last_split {α : Type} (kind : α → Prop) {before other after rest : List α} {item last : α}
    (same : before ++ item :: after = other ++ last :: rest) (first : kind item) (second : kind last)
    (none : ∀ later ∈ after, ¬ kind later) (neither : ∀ later ∈ rest, ¬ kind later) : item = last ∧ after = rest := by
  rcases List.append_eq_append_iff.1 same with ⟨between, -, tail⟩ | ⟨between, -, tail⟩
  · cases between with
    | nil => exact ⟨(List.cons.inj tail).1, (List.cons.inj tail).2⟩
    | cons skipped between =>
      have behind : last ∈ after := (List.cons.inj tail).2 ▸ List.mem_append_right _ List.mem_cons_self
      exact absurd second (none last behind)
  · cases between with
    | nil => exact ⟨(List.cons.inj tail).1.symm, (List.cons.inj tail).2.symm⟩
    | cons skipped between =>
      have behind : item ∈ rest := (List.cons.inj tail).2 ▸ List.mem_append_right _ List.mem_cons_self
      exact absurd first (neither item behind)

/-- What a client has got since its last refresh. -/
theorem Streams.sinceRefresh (streams : Streams U owner symbol watch stretches) {moment : List FeedStep} {sub : MdSymbolSub}
    {before after : List (RequestedSides × BookFrame)}
    (received : watch.sent = before ++ (sub.sides, refreshFrame (Feed.new.run U moment) symbol sub) :: after)
    (later : ∀ entry ∈ after, entry.2.isIncrement) :
    ∃ early last, stretches = early ++ [last] ∧ last.start U symbol = (Feed.new.run U moment).sequence symbol ∧
      after = (increments symbol sub.mdReqId sub.sides
        (cut Prod.fst (last.start U symbol) last.sub.baseline ((watch.feed U).published owner symbol))).map (sub.sides, ·) := by
  rcases List.eq_nil_or_concat' stretches with rfl | ⟨early, last, rfl⟩
  · have empty := streams.sent
    rw [received] at empty
    exact absurd empty (by simp [Stretch.tape])
  · have sent := streams.sent
    rw [Streams.tape_append, Streams.tape_singleton, received, Stretch.frames, List.map_cons] at sent
    have increment : ∀ entry ∈ (increments symbol last.sub.mdReqId last.sub.sides
        (cut Prod.fst (last.start U symbol) last.sub.baseline ((watch.feed U).published owner symbol))).map (last.sub.sides, ·),
        ¬ entry.2.isIncrement = false := by
      intro entry member
      obtain ⟨frame, listed, rfl⟩ := List.mem_map.1 member
      obtain ⟨delta, -, -, rfl⟩ := mem_increments.1 listed
      exact Bool.noConfusion
    have refresh : ∀ entry ∈ after, ¬ entry.2.isIncrement = false := fun entry member => by simp [later entry member]
    obtain ⟨same, rest⟩ := last_split (fun entry => entry.2.isIncrement = false) sent rfl rfl refresh increment
    unfold refreshFrame at same
    simp only [Prod.mk.injEq, BookFrame.full.injEq] at same
    obtain ⟨sides, mdReqId, sequence, -⟩ := same
    rw [sides, mdReqId]
    exact ⟨early, last, rfl, sequence.symm, rest⟩

/-- A session that has caught up is at the sequence of the venue. -/
theorem Streams.baseline_eq {early : List Stretch} {last : Stretch} (streams : Streams U owner symbol watch (early ++ [last]))
    (counted : Feed.Counted owner symbol (watch.feed U)) (caughtUp : watch.CaughtUp U owner symbol) :
    last.sub.baseline = (watch.feed U).sequence symbol := by
  obtain ⟨sub, held⟩ := Option.isSome_iff_exists.1 caughtUp.subscribed
  obtain ⟨-, before, moment, split⟩ := streams.live sub held
  obtain ⟨-, same⟩ := List.append_inj' split rfl
  cases same
  have upto := (streams.within ⟨moment, sub⟩ List.mem_concat_self).2
  refine le_antisymm upto ?_
  have behind := (streams.handed (subscription_live held)).2 sub held
  rw [caughtUp.pulled, List.take_length] at behind
  exact counted.sequence_le_of_sent caughtUp.sent behind

/-- A client that takes a refresh at a depth, and keeps the best of what each later increment leaves, has exactly the
best levels of the venue once it is sent all: provided that no command since is the market maker's, and that each
delta names the levels that it lets in among the best. -/
theorem depthBook_held [Ironfix] {steps : List BookStep} {depth : Nat} {moment rest : List FeedStep} {sub : MdSymbolSub}
    {before after : List (RequestedSides × BookFrame)} {side : BookSide}
    (ran : runFrom (BookWatch.step U symbol) .new steps = some watch) (routed : Feed.Routed owner symbol watch.history)
    (room : (watch.feed U).sequence symbol < u64Max) (split : watch.history = moment ++ rest)
    (bounded : sub.depth = some depth)
    (received : watch.sent = before ++ (sub.sides, refreshFrame (Feed.new.run U moment) symbol sub) :: after)
    (later : ∀ entry ∈ after, entry.2.isIncrement) (caughtUp : watch.CaughtUp U owner symbol)
    (client : ClientFeed U owner symbol rest)
    (announced : AllAnnounced depth sub.sides.includes (aggregate symbol (Feed.new.run U moment))
      (((watch.feed U).published owner symbol).filter fun delta => (Feed.new.run U moment).sequence symbol < delta.1))
    (requested : sub.sides.includes side) :
    ((watch.sent.map Prod.snd).foldl (clientBook depth) .empty).best side =
      ((aggregate symbol (watch.feed U)).best side).take depth := by
  obtain ⟨stretches, streams⟩ := Streams.run ran routed room
  obtain ⟨early, last, rfl, start, told⟩ := streams.sinceRefresh received later
  have counted := Feed.counted_run routed room
  have stop := streams.baseline_eq counted caughtUp
  obtain ⟨deltas, advances, late⟩ := Feed.advances_since (split ▸ routed) (split ▸ room) client
  rw [← split] at advances late
  change ((watch.feed U).published owner symbol).filter
    (fun delta => (Feed.new.run U moment).sequence symbol < delta.1) = deltas at late
  have cut : cut Prod.fst (last.start U symbol) last.sub.baseline ((watch.feed U).published owner symbol) = deltas := by
    rw [← late, start, stop]
    refine List.filter_congr fun delta member => ?_
    have upto : delta.1 ≤ (watch.feed U).sequence symbol := counted.mem_le member
    simp [upto]
  rw [late] at announced
  rw [cut] at told
  have refreshed := holdsBest_refresh symbol (Feed.new.run U moment) bounded ((before.map Prod.snd).foldl (clientBook depth) .empty)
  have held := (holdsBest_told symbol sub.mdReqId refreshed announced).best requested
  have levels : applyDeltas (aggregate symbol (Feed.new.run U moment)) deltas = aggregate symbol (watch.feed U) :=
    advances.levels.symm
  rw [levels] at held
  rw [received, told, List.map_append, List.map_cons, List.map_map, List.foldl_append, List.foldl_cons]
  exact (congrArg (fun frames => Levels.best side (List.foldl _ _ frames)) (List.map_id _)).trans held

end Receipts

/-- Two bids rest when the client asks for its depth. -/
def twoBids : List FeedStep := [bidAt 0 100 "a", .send "BTC", bidAt 1 90 "b", .send "BTC"]

/-- The client asks, one more event is committed and sent, and the client pulls. -/
def readerAfter (depth : Nat) (event : FeedStep) : List BookStep :=
  twoBids.map .feed ++ [readerAsks depth, .feed event, .feed (.send "BTC"), readerPulls .caughtUp]

abbrev referenceReader := @BookWatch.step referenceWire referenceUpstream "BTC-20351231-50000-C"

def clientBids (depth : Nat) (watch : BookWatch) : List (Nat × Nat) :=
  ((watch.sent.map Prod.snd).foldl (clientBook depth) .empty).best .bid

def venueBids (watch : BookWatch) : List (Nat × Nat) :=
  (aggregate "BTC-20351231-50000-C" (watch.feed referenceUpstream)).best .bid

def wantedBids : MdSymbolSub := ⟨"R-1", ⟨true, false⟩, some 2, 0⟩

/-- A higher bid comes in, and its delta names it. -/
theorem higherBid_held : ∃ watch, runFrom referenceReader .new (readerAfter 2 (bidAt 2 110 "c")) = some watch ∧
    clientBids 2 watch = [(110, 5), (100, 5)] ∧ clientBids 2 watch = (venueBids watch).take 2 := by
  have computed : (runFrom referenceReader .new (readerAfter 2 (bidAt 2 110 "c"))).any (fun watch =>
      decide (watch.history = twoBids ++ [bidAt 2 110 "c", .send "BTC"]) && decide (watch.sent =
        [(⟨true, false⟩, refreshFrame (Feed.new.run referenceUpstream twoBids) "BTC-20351231-50000-C" wantedBids),
          (⟨true, false⟩, .incremental "R-1" 3 [⟨.change, .bid, "BTC-20351231-50000-C", 110, 5⟩])]) &&
      (subscription watch.marketData "BTC-20351231-50000-C").isSome && ((watch.feed referenceUpstream).pending "BTC").isEmpty &&
      decide (watch.position = (watch.feed referenceUpstream).sent.length) &&
      decide ((watch.feed referenceUpstream).sequence "BTC-20351231-50000-C" < u64Max) &&
      decide (clientBids 2 watch = [(110, 5), (100, 5)])) = true := by decide +kernel
  obtain ⟨watch, ran, facts⟩ := (Option.any_eq_true _ _).1 computed
  simp only [Bool.and_eq_true, decide_eq_true_eq] at facts
  obtain ⟨⟨⟨⟨⟨⟨split, received⟩, subscribed⟩, sent⟩, pulled⟩, room⟩, client⟩ := facts
  have own : ∀ underlying event, FeedStep.commit underlying event ∈ watch.history →
      underlying = "BTC" ∧ isMarketMakerCommand event.command = false := by
    rw [split]
    intro underlying event member
    simp only [twoBids, bidAt, List.cons_append, List.nil_append, List.mem_cons, FeedStep.commit.injEq, reduceCtorEq,
      List.not_mem_nil, or_false, false_or] at member
    rcases member with ⟨rfl, rfl⟩ | ⟨rfl, rfl⟩ | ⟨rfl, rfl⟩ <;> exact ⟨rfl, by decide⟩
  have later : ∀ underlying event, FeedStep.commit underlying event ∈ [bidAt 2 110 "c", .send "BTC"] →
      FeedStep.commit underlying event ∈ watch.history :=
    fun underlying event member => split ▸ List.mem_append_right _ member
  have announced : AllAnnounced 2 wantedBids.sides.includes
      (aggregate "BTC-20351231-50000-C" (Feed.new.run referenceUpstream twoBids))
      (((watch.feed referenceUpstream).published "BTC" "BTC-20351231-50000-C").filter fun delta =>
        (Feed.new.run referenceUpstream twoBids).sequence "BTC-20351231-50000-C" < delta.1) := by
    rw [BookWatch.feed, split]
    decide +kernel
  refine ⟨watch, ran, client, @depthBook_held _ _ _ _ referenceWire _ _ _ _ wantedBids [] _ _ ran
    (fun underlying event member _ => (own underlying event member).1) room split rfl received ?_
    ⟨subscribed, List.isEmpty_iff.1 sent, pulled⟩
    ⟨fun underlying event member _ => (own underlying event (later underlying event member)).1,
      fun underlying event member _ => (own underlying event (later underlying event member)).2⟩ announced rfl⟩
  intro entry member
  rw [List.mem_singleton.1 member]
  rfl

/-- A bid of the market maker. -/
def makerBid : FeedStep := .commit "BTC" (.new 2 3 (.addOrder ⟨"BTC-20351231-50000-C", "m", marketMakerAccount, 7, none, .buy,
  .limit, some 120, 5, .gtc, .none⟩) (.added [] 5 []))

/-- A client at depth one is sent all there is: the market maker's bid has no delta, and the cancel of the best bid
does not name the next. -/
theorem depthOne_misses :
    (∃ watch, runFrom referenceReader .new (readerAfter 1 makerBid) = some watch ∧
      watch.CaughtUp referenceUpstream "BTC" "BTC-20351231-50000-C" ∧ clientBids 1 watch ≠ (venueBids watch).take 1) ∧
    ∃ watch, runFrom referenceReader .new (readerAfter 1 (bidGone 2 "a")) = some watch ∧
      watch.CaughtUp referenceUpstream "BTC" "BTC-20351231-50000-C" ∧ clientBids 1 watch ≠ (venueBids watch).take 1 := by
  have computed : ∀ event ∈ [makerBid, bidGone 2 "a"], (runFrom referenceReader .new (readerAfter 1 event)).any (fun watch =>
      (subscription watch.marketData "BTC-20351231-50000-C").isSome && ((watch.feed referenceUpstream).pending "BTC").isEmpty &&
        decide (watch.position = (watch.feed referenceUpstream).sent.length) &&
        decide (clientBids 1 watch ≠ (venueBids watch).take 1)) = true := by decide +kernel
  have missed : ∀ event ∈ [makerBid, bidGone 2 "a"], ∃ watch,
      runFrom referenceReader .new (readerAfter 1 event) = some watch ∧
      watch.CaughtUp referenceUpstream "BTC" "BTC-20351231-50000-C" ∧ clientBids 1 watch ≠ (venueBids watch).take 1 := by
    intro event member
    obtain ⟨watch, ran, facts⟩ := (Option.any_eq_true _ _).1 (computed event member)
    simp only [Bool.and_eq_true, decide_eq_true_eq] at facts
    exact ⟨watch, ran, ⟨facts.1.1.1, List.isEmpty_iff.1 facts.1.1.2, facts.1.2⟩, facts.2⟩
  exact ⟨missed _ List.mem_cons_self, missed _ (List.mem_cons_of_mem _ List.mem_cons_self)⟩

end Fauxchange.Fix
