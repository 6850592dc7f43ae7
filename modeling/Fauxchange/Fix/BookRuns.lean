import Fauxchange.Fix.BookFrames
import Fauxchange.Fix.OutboundRuns
import Fauxchange.Lib.GuardedRuns

/-! A session that follows a symbol while the actors commit and send: what its client is sent is a row of stretches,
each a full refresh and the increments from there on. -/

namespace Fauxchange.Fix
open Exchange Lib Fallible MarketData

/-- How one cycle of pulls ends: nothing is left, the receiver has lost what came next, or the broadcast is over. -/
inductive Pull where
  | caughtUp
  | lagged (taken lost : Nat)
  | closed
  deriving DecidableEq, Repr

/-- What one cycle finds at the receiver, and how far the receiver moves. -/
def Pull.outcome (available : List WsMessage) : Pull → Option (List WsMessage × FeedEnd × Nat)
  | caughtUp => some (available, .empty, min available.length maxMdFramesPerCycle)
  | lagged taken lost =>
    if taken < maxMdFramesPerCycle ∧ taken + lost ≤ available.length then
      some (available.take taken, .lagged, taken + lost)
    else none
  | closed => if available.length < maxMdFramesPerCycle then some (available, .closed, available.length) else none

section Pulls
variable {available received : List WsMessage} {pull : Pull} {feedEnd : FeedEnd} {moved : Nat}

theorem Pull.moved_le (pulled : pull.outcome available = some (received, feedEnd, moved)) : moved ≤ available.length := by
  cases pull with
  | caughtUp =>
    cases pulled
    exact min_le_left _ _
  | lagged taken lost =>
    unfold outcome at pulled
    dsimp only at pulled
    split at pulled
    next room =>
      cases pulled
      exact room.2
    next => cases pulled
  | closed =>
    unfold outcome at pulled
    dsimp only at pulled
    split at pulled
    next =>
      cases pulled
      exact le_rfl
    next => cases pulled

/-- What is projected is what comes next, as far as one cycle goes. -/
theorem Pull.projected (pulled : pull.outcome available = some (received, feedEnd, moved))
    (ends : maxMdFramesPerCycle ≤ received.length ∨ feedEnd = .empty) :
    received = available ∧ moved = min available.length maxMdFramesPerCycle := by
  cases pull with
  | caughtUp =>
    cases pulled
    exact ⟨rfl, rfl⟩
  | lagged taken lost =>
    unfold outcome at pulled
    dsimp only at pulled
    split at pulled
    next room =>
      cases pulled
      rcases ends with full | ended
      · rw [List.length_take] at full
        omega
      · cases ended
    next => cases pulled
  | closed =>
    unfold outcome at pulled
    dsimp only at pulled
    split at pulled
    next room =>
      cases pulled
      rcases ends with full | ended
      · omega
      · cases ended
    next => cases pulled

end Pulls

/-- A venue whose snapshots are read while the actors go on, each symbol's after some of their steps. -/
def AppState.reading (U : Upstream) (venue : AppState) (history during : List FeedStep) (moment : Symbol → Nat) : AppState :=
  { venue with
    orderbookSnapshot := fun symbol depth =>
      (Feed.new.run U (history ++ during.take (moment symbol))).manager.orderbookSnapshot symbol depth }

/-- A step of the actors, or of the session; the actors go on while the session pulls and reads. -/
inductive BookStep where
  | feed (step : FeedStep)
  | request (venue : AppState) (dispatch : Dispatch) (request : MarketDataRequest) (now : Nat) (during : List FeedStep)
      (moment : Symbol → Nat)
  | drain (venue : AppState) (dispatch : Dispatch) (now : Nat) (pulling : List FeedStep) (pull : Pull)
      (during : List FeedStep) (moment : Symbol → Nat)

/-- One symbol as a session's client follows it: what the actors have done, the session's subscriptions, how much of
the broadcast its receiver is past, the sides last asked for, and the frames sent for the symbol, each with the sides
asked for then. -/
structure BookWatch where
  history : List FeedStep
  marketData : Option (Std.ExtTreeMap Symbol MdSymbolSub)
  position : Nat
  asked : RequestedSides
  sent : List (RequestedSides × BookFrame)

namespace BookWatch

def new : BookWatch := ⟨[], none, 0, ⟨false, false⟩, []⟩

def feed (U : Upstream) (watch : BookWatch) : Feed := Feed.new.run U watch.history

section Steps
variable [Ironfix] (U : Upstream) (symbol : Symbol)

/-- A receiver starts at what has been sent when a request opens the first subscription; a session that fails is gone. -/
def step (watch : BookWatch) : BookStep → Option BookWatch
  | .feed step => some { watch with history := watch.history ++ [step] }
  | .request venue dispatch request now during moment =>
    let asked := if accepts watch.marketData request ∧ symbol ∈ request.symbols then .fromEntryTypes request.entryTypes
      else watch.asked
    match exec (routeMarketData (venue.reading U watch.history during moment) request now)
        { dispatch with marketData := watch.marketData } with
    | (.ok reaction, reached) => some {
        history := watch.history ++ during
        marketData := reached.marketData
        position := if watch.marketData.isNone then (watch.feed U).sent.length else watch.position
        asked := asked
        sent := watch.sent ++ (bookFrames symbol reaction.frames).map (asked, ·) }
    | (.error _, _) => none
  | .drain venue dispatch now pulling pull during moment =>
    let pulled := watch.history ++ pulling
    match pull.outcome ((Feed.new.run U pulled).sent.drop watch.position) with
    | none => none
    | some (received, feedEnd, moved) =>
      match exec (drainMarketData { venue.reading U pulled during moment with received := received, feedEnd := feedEnd } now)
          { dispatch with marketData := watch.marketData } with
      | (.ok frames, reached) => some {
          history := pulled ++ during
          marketData := reached.marketData
          position := watch.position + moved
          asked := watch.asked
          sent := watch.sent ++ (bookFrames symbol frames).map (watch.asked, ·) }
      | (.error _, _) => none

variable {U symbol} {watch next : BookWatch}

/-- What the actors have done stays done. -/
theorem step_history {step : BookStep} (taken : watch.step U symbol step = some next) : watch.history <+: next.history := by
  cases step with
  | feed step =>
    cases taken
    exact List.prefix_append _ _
  | request venue dispatch request now during moment =>
    unfold BookWatch.step at taken
    dsimp only at taken
    split at taken
    next =>
      cases taken
      exact List.prefix_append _ _
    next => cases taken
  | drain venue dispatch now pulling pull during moment =>
    unfold BookWatch.step at taken
    dsimp only at taken
    split at taken
    next => cases taken
    next =>
      split at taken
      next =>
        cases taken
        exact (List.prefix_append _ _).trans (List.prefix_append _ _)
      next => cases taken

end Steps

end BookWatch

/-- A full refresh and what follows it: the moment that the refresh was read at, and the subscription with the baseline
that its increments have come to. -/
structure Stretch where
  moment : List FeedStep
  sub : MdSymbolSub

namespace Stretch

/-- The sequence that the refresh reflects. -/
def start (U : Upstream) (symbol : Symbol) (stretch : Stretch) : Nat := (Feed.new.run U stretch.moment).sequence symbol

/-- The refresh, then the increments of the deltas past it up to the baseline. -/
def frames (U : Upstream) (symbol : Symbol) (published : List Delta) (stretch : Stretch) : List BookFrame :=
  refreshFrame (Feed.new.run U stretch.moment) symbol stretch.sub ::
    increments symbol stretch.sub.mdReqId stretch.sub.sides (cut Prod.fst (stretch.start U symbol) stretch.sub.baseline published)

/-- The frames of stretches one after another, with the sides of each. -/
def tape (U : Upstream) (symbol : Symbol) (published : List Delta) (stretches : List Stretch) :
    List (RequestedSides × BookFrame) :=
  stretches.flatMap fun stretch => (stretch.frames U symbol published).map (stretch.sub.sides, ·)

end Stretch

/-- What holds of a session that follows a symbol. -/
structure Streams (U : Upstream) (owner : String) (symbol : Symbol) (watch : BookWatch) (stretches : List Stretch) : Prop where
  sent : watch.sent = Stretch.tape U symbol ((watch.feed U).published owner symbol) stretches
  moments : ∀ stretch ∈ stretches, stretch.moment <+: watch.history
  within : ∀ stretch ∈ stretches, stretch.start U symbol ≤ stretch.sub.baseline ∧
    stretch.sub.baseline ≤ (watch.feed U).sequence symbol
  ordered : stretches.Pairwise fun early late => early.sub.baseline ≤ late.start U symbol
  /-- A live subscription is that of the last stretch. -/
  live : ∀ sub, subscription watch.marketData symbol = some sub → sub.sides = watch.asked ∧
    ∃ before moment, stretches = before ++ [⟨moment, sub⟩]
  /-- Whatever the receiver is past lies at or below the baseline. -/
  handed : watch.marketData.isSome → watch.position ≤ (watch.feed U).sent.length ∧
    ∀ sub, subscription watch.marketData symbol = some sub →
      ∀ delta ∈ deltasOf symbol ((watch.feed U).sent.take watch.position), delta.1 ≤ sub.baseline

namespace Streams
variable {U : Upstream} {owner : String} {symbol : Symbol} {watch : BookWatch} {stretches : List Stretch}

theorem new : Streams U owner symbol .new [] := by
  refine ⟨rfl, ?_, ?_, .nil, ?_, ?_⟩
  · exact fun stretch member => nomatch member
  · exact fun stretch member => nomatch member
  · exact fun sub held => nomatch held
  · exact fun live => nomatch live

/-- What the actors do leaves the stretches alone. -/
theorem grown (streams : Streams U owner symbol watch stretches) (more : List FeedStep)
    (routed : Feed.Routed owner symbol (watch.history ++ more))
    (room : (Feed.new.run U (watch.history ++ more)).sequence symbol < u64Max) :
    Streams U owner symbol { watch with history := watch.history ++ more } stretches := by
  obtain ⟨counted, after, grows⟩ : Feed.Counted owner symbol (watch.feed U) ∧
      Feed.Counted owner symbol (Feed.new.run U (watch.history ++ more)) ∧
        Feed.Grows owner symbol (watch.feed U) (Feed.new.run U (watch.history ++ more)) := Feed.counted_later routed room
  have longer := counted.sequence_le after grows
  obtain ⟨extra, published⟩ := grows.published
  have kept : ∀ stretch ∈ stretches, stretch.frames U symbol ((Feed.new.run U (watch.history ++ more)).published owner symbol) =
      stretch.frames U symbol ((watch.feed U).published owner symbol) := by
    intro stretch member
    unfold Stretch.frames
    rw [← published, cut_append, (cut_eq_nil ?_ : cut _ _ _ extra = []), List.append_nil]
    intro delta listed inside
    have late := counted.lt_of_later after published.symm listed
    have early := (streams.within stretch member).2
    omega
  refine ⟨?_, ?_, ?_, streams.ordered, streams.live, ?_⟩
  · exact streams.sent.trans (List.flatMap_congr fun stretch member => congrArg _ (kept stretch member).symm)
  · exact fun stretch member => (streams.moments stretch member).trans (List.prefix_append _ _)
  · exact fun stretch member => ⟨(streams.within stretch member).1, (streams.within stretch member).2.trans longer⟩
  · intro live
    obtain ⟨place, below⟩ := streams.handed live
    refine ⟨place.trans grows.sent.length_le, fun sub held delta member => below sub held delta ?_⟩
    obtain ⟨later, sent⟩ := grows.sent
    change delta ∈ deltasOf symbol ((Feed.new.run U (watch.history ++ more)).sent.take watch.position) at member
    rwa [← sent, List.take_append_of_le_length place] at member

/-- A subscription that ends, or goes on as it is. -/
theorem kept (streams : Streams U owner symbol watch stretches) {marketData : Option (Std.ExtTreeMap Symbol MdSymbolSub)}
    {position : Nat} {asked : RequestedSides} (place : marketData.isSome → position ≤ (watch.feed U).sent.length)
    (same : ∀ sub, subscription marketData symbol = some sub →
      subscription watch.marketData symbol = some sub ∧ asked = watch.asked ∧ position = watch.position) :
    Streams U owner symbol ⟨watch.history, marketData, position, asked, watch.sent⟩ stretches := by
  refine ⟨streams.sent, streams.moments, streams.within, streams.ordered, ?_, ?_⟩
  · intro sub held
    obtain ⟨before, rfl, -⟩ := same sub held
    exact streams.live sub before
  · intro live
    refine ⟨place live, fun sub held => ?_⟩
    obtain ⟨before, -, rfl⟩ := same sub held
    exact (streams.handed (subscription_live before)).2 sub before

theorem closed (streams : Streams U owner symbol watch stretches) (position : Nat) :
    Streams U owner symbol ⟨watch.history, none, position, watch.asked, watch.sent⟩ stretches :=
  streams.kept (fun live => nomatch live) fun _ held => nomatch held

theorem tape_append (published : List Delta) (early late : List Stretch) :
    Stretch.tape U symbol published (early ++ late) =
      Stretch.tape U symbol published early ++ Stretch.tape U symbol published late := List.flatMap_append

theorem tape_singleton (published : List Delta) (stretch : Stretch) :
    Stretch.tape U symbol published [stretch] = (stretch.frames U symbol published).map (stretch.sub.sides, ·) :=
  List.flatMap_singleton ..

/-- A pull without a loss moves the baseline along with the increments. -/
theorem projected (streams : Streams U owner symbol watch stretches) (counted : Feed.Counted owner symbol (watch.feed U))
    {count : Nat} {marketData : Option (Std.ExtTreeMap Symbol MdSymbolSub)} {frames : List Frame}
    (projected : Projected symbol (deltasOf symbol (((watch.feed U).sent.drop watch.position).take count)) watch.marketData
      marketData frames) :
    ∃ stretches, Streams U owner symbol { watch with
      marketData := marketData
      position := watch.position + min ((watch.feed U).sent.drop watch.position).length count
      sent := watch.sent ++ (bookFrames symbol frames).map (watch.asked, ·) } stretches := by
  set available := (watch.feed U).sent.drop watch.position with rest
  have taken : (watch.feed U).sent.take (watch.position + min available.length count) =
      (watch.feed U).sent.take watch.position ++ available.take count := by
    have same : available.take (min available.length count) = available.take count := by
      rw [List.take_eq_take_iff]
      omega
    rw [List.take_add, ← rest, same]
  have place : watch.marketData.isSome →
      watch.position + min available.length count ≤ (watch.feed U).sent.length := by
    intro live
    have before := (streams.handed live).1
    rw [rest, List.length_drop]
    omega
  cases held : subscription watch.marketData symbol with
  | none =>
    have silent := projected.frames
    have free := projected.subscription
    rw [held] at silent free
    refine ⟨stretches, ?_, streams.moments, streams.within, streams.ordered, ?_, ?_⟩
    · rw [show bookFrames symbol frames = [] from silent]
      exact (List.append_nil _).trans streams.sent
    · exact fun sub later => nomatch free.symm.trans later
    · intro live
      exact ⟨place (projected.live ▸ live), fun sub later => nomatch free.symm.trans later⟩
  | some sub =>
    have live := subscription_live held
    obtain ⟨sides, before, moment, rfl⟩ := streams.live sub held
    obtain ⟨-, behind⟩ := streams.handed live
    replace behind := behind sub held
    have shown := projected.frames
    have after := projected.subscription
    rw [held] at shown after
    simp only [Option.map_some, Option.getD_some] at shown after
    set next := deltasOf symbol (available.take count) with pulled
    obtain ⟨start, stop⟩ := streams.within ⟨moment, sub⟩ List.mem_concat_self
    have published : (watch.feed U).published owner symbol = deltasOf symbol ((watch.feed U).sent.take watch.position) ++ next ++
        (deltasOf symbol (available.drop count) ++ deltasOf symbol ((watch.feed U).pending owner)) := by
      have split : (watch.feed U).sent =
          (watch.feed U).sent.take watch.position ++ available.take count ++ available.drop count := by
        rw [List.append_assoc, List.take_append_drop, rest, List.take_append_drop]
      have listed := congrArg (deltasOf symbol) split
      rw [deltasOf_append, deltasOf_append, ← pulled] at listed
      rw [Feed.published, listed, List.append_assoc]
    have reached : reaches Prod.fst sub.baseline next ≤ (watch.feed U).sequence symbol := by
      refine reaches_le stop fun delta member => counted.mem_le ?_
      rw [published]
      exact List.mem_append_left _ (List.mem_append_right _ member)
    have further : sub.baseline ≤ reaches Prod.fst sub.baseline next := le_reaches _ _
    have stretched : Stretch.frames U symbol ((watch.feed U).published owner symbol)
          ⟨moment, { sub with baseline := reaches Prod.fst sub.baseline next }⟩ =
        Stretch.frames U symbol ((watch.feed U).published owner symbol) ⟨moment, sub⟩ ++ bookFrames symbol frames := by
      have read : cut Prod.fst sub.baseline (reaches Prod.fst sub.baseline next) ((watch.feed U).published owner symbol) =
          past Prod.fst sub.baseline next := by
        have ascends := counted.ascends
        rw [published] at ascends ⊢
        exact cut_past ascends behind
      unfold Stretch.frames
      dsimp only
      rw [shown, ← read, List.cons_append, ← increments_append, ← cut_split counted.ascends start further]
      rfl
    refine ⟨before ++ [⟨moment, { sub with baseline := reaches Prod.fst sub.baseline next }⟩], ?_, ?_, ?_, ?_, ?_, ?_⟩
    · have sent := streams.sent
      change watch.sent ++ _ = Stretch.tape U symbol ((watch.feed U).published owner symbol) _
      rw [tape_append, tape_singleton] at sent ⊢
      rw [sent, stretched, List.map_append, sides, List.append_assoc]
    · intro stretch member
      rcases List.mem_append.1 member with early | last
      · exact streams.moments stretch (List.mem_append_left _ early)
      · obtain rfl := List.mem_singleton.1 last
        exact streams.moments ⟨moment, sub⟩ List.mem_concat_self
    · intro stretch member
      rcases List.mem_append.1 member with early | last
      · exact streams.within stretch (List.mem_append_left _ early)
      · obtain rfl := List.mem_singleton.1 last
        exact ⟨start.trans further, reached⟩
    · have ordered := List.pairwise_append.1 streams.ordered
      refine List.pairwise_append.2 ⟨ordered.1, List.pairwise_singleton .., fun stretch early last member => ?_⟩
      obtain rfl := List.mem_singleton.1 member
      exact ordered.2.2 stretch early ⟨moment, sub⟩ List.mem_cons_self
    · intro other later
      cases after.symm.trans later
      exact ⟨sides, before, moment, rfl⟩
    · intro still
      refine ⟨place live, fun other later delta member => ?_⟩
      cases after.symm.trans later
      change delta ∈ deltasOf symbol ((watch.feed U).sent.take (watch.position + min available.length count)) at member
      rw [taken, deltasOf_append] at member
      rcases List.mem_append.1 member with old | fresh
      · exact (behind delta old).trans further
      · exact key_le_reaches fresh

/-- A refresh, at a moment after what the session is past, starts a stretch. -/
theorem refreshed (streams : Streams U owner symbol watch stretches) {during : List FeedStep} {taken position : Nat}
    {moments : Symbol → Feed} {fresh : Option MdSymbolSub} {before marketData : Option (Std.ExtTreeMap Symbol MdSymbolSub)}
    {asked : RequestedSides} {frames : List Frame} (routed : Feed.Routed owner symbol (watch.history ++ during))
    (room : (Feed.new.run U (watch.history ++ during)).sequence symbol < u64Max)
    (moment : moments symbol = Feed.new.run U (watch.history ++ during.take taken))
    (refreshed : Refreshed moments symbol fresh before marketData frames)
    (same : subscription before symbol = subscription watch.marketData symbol)
    (place : marketData.isSome → position ≤ (watch.feed U).sent.length)
    (kept : ∀ sub, fresh = none → subscription watch.marketData symbol = some sub → asked = watch.asked ∧ position = watch.position)
    (sides : ∀ sub, fresh = some sub → sub.sides = asked) :
    ∃ stretches, Streams U owner symbol ⟨watch.history ++ during, marketData, position, asked,
      watch.sent ++ (bookFrames symbol frames).map (asked, ·)⟩ stretches := by
  have grown := streams.grown during routed room
  obtain ⟨counted, after, grows⟩ : Feed.Counted owner symbol (watch.feed U) ∧
      Feed.Counted owner symbol (Feed.new.run U (watch.history ++ during)) ∧
        Feed.Grows owner symbol (watch.feed U) (Feed.new.run U (watch.history ++ during)) := Feed.counted_later routed room
  have shown := refreshed.frames
  have left := refreshed.subscription
  rw [same] at left
  cases opened : fresh with
  | none =>
    subst opened
    rw [Option.map_none, Option.toList_none] at shown
    rw [Option.map_none, Option.none_or] at left
    rw [shown, List.map_nil, List.append_nil]
    refine ⟨stretches, grown.kept (fun live => (place live).trans grows.sent.length_le) fun sub held => ?_⟩
    have held := left.symm.trans held
    exact ⟨held, kept sub rfl held⟩
  | some sub =>
    subst opened
    rw [Option.map_some, Option.toList_some] at shown
    rw [Option.map_some, Option.some_or] at left
    have parts : watch.history ++ during = watch.history ++ during.take taken ++ during.drop taken := by
      rw [List.append_assoc, List.take_append_drop]
    rw [parts] at routed room
    obtain ⟨read, -, following⟩ := Feed.counted_later routed room
    rw [← parts] at following
    obtain ⟨-, -, leading⟩ := Feed.counted_later (routed.subset (List.subset_append_left _ _))
      (Feed.earlier_room room)
    have early := counted.sequence_le read leading
    have late := read.sequence_le after following
    let stretch : Stretch := ⟨watch.history ++ during.take taken, sub.refreshed (moments symbol) symbol⟩
    have begun : stretch.start U symbol = stretch.sub.baseline := congrArg (Feed.sequence symbol) moment.symm
    have told : ∀ published, Stretch.tape U symbol published [stretch] = [(asked, refreshFrame (moments symbol) symbol sub)] := by
      intro published
      rw [tape_singleton, Stretch.frames, begun, cut_self, show increments _ _ _ [] = [] from rfl, List.map_singleton,
        ← moment, ← sides sub rfl]
      rfl
    refine ⟨stretches ++ [stretch], ?_, ?_, ?_, ?_, ?_, ?_⟩
    · have sent := grown.sent
      change watch.sent ++ _ = Stretch.tape U symbol ((Feed.new.run U (watch.history ++ during)).published owner symbol) _
      rw [tape_append, told, shown]
      exact congrArg (· ++ _) sent
    · intro other member
      rcases List.mem_append.1 member with old | last
      · exact grown.moments other old
      · obtain rfl := List.mem_singleton.1 last
        exact ⟨during.drop taken, parts.symm⟩
    · intro other member
      rcases List.mem_append.1 member with old | last
      · exact grown.within other old
      · obtain rfl := List.mem_singleton.1 last
        exact ⟨begun.le, begun ▸ late⟩
    · refine List.pairwise_append.2 ⟨streams.ordered, List.pairwise_singleton .., fun other old last member => ?_⟩
      obtain rfl := List.mem_singleton.1 member
      exact (streams.within other old).2.trans early
    · intro other held
      cases left.symm.trans held
      exact ⟨sides sub rfl, stretches, _, rfl⟩
    · intro live
      refine ⟨(place live).trans grows.sent.length_le, fun other held delta member => ?_⟩
      cases left.symm.trans held
      obtain ⟨later, sent⟩ := grows.sent
      change delta ∈ deltasOf symbol ((Feed.new.run U (watch.history ++ during)).sent.take position) at member
      rw [← sent, List.take_append_of_le_length (place live)] at member
      refine le_trans (counted.mem_le (List.mem_append_left _ ?_)) (early.trans begun.le)
      exact ((List.take_sublist position _).filterMap _).subset member

variable [Ironfix]

/-- A session that follows a symbol goes on following it. -/
theorem step {next : BookWatch} {step : BookStep} (streams : Streams U owner symbol watch stretches)
    (taken : watch.step U symbol step = some next) (routed : Feed.Routed owner symbol next.history)
    (room : (next.feed U).sequence symbol < u64Max) : ∃ stretches, Streams U owner symbol next stretches := by
  cases step with
  | feed step =>
    cases taken
    exact ⟨stretches, streams.grown [step] routed room⟩
  | request venue dispatch request now during moment =>
    unfold BookWatch.step at taken
    dsimp only at taken
    split at taken
    next reaction reached finished =>
      cases taken
      have reads : ReadsAt (venue.reading U watch.history during moment) fun symbol =>
          Feed.new.run U (watch.history ++ during.take (moment symbol)) := fun _ _ => rfl
      have requested := routeMarketData_requested symbol reads finished
      have position : ∀ sub, subscription watch.marketData symbol = some sub →
          (if watch.marketData.isNone then (watch.feed U).sent.length else watch.position) = watch.position := by
        intro sub held
        refine if_neg ?_
        simp [Option.isSome_iff_ne_none.1 (subscription_live held)]
      have unasked : accepts watch.marketData request = false → (if accepts watch.marketData request ∧ symbol ∈ request.symbols
          then RequestedSides.fromEntryTypes request.entryTypes else watch.asked) = watch.asked := fun passed =>
        if_neg (by simp [passed])
      have place : (if watch.marketData.isNone then (watch.feed U).sent.length else watch.position) ≤
          (watch.feed U).sent.length := by
        split
        next => exact le_rfl
        next live => exact (streams.handed (by simpa [Option.isSome_iff_ne_none] using live)).1
      cases requested with
      | taken accepted live refreshed =>
        refine streams.refreshed routed room rfl refreshed ?_ (fun _ => place) ?_ ?_
        · cases watch.marketData <;> rfl
        · intro sub unnamed held
          have unnamed : symbol ∉ request.symbols := fun named => by simp [named] at unnamed
          exact ⟨if_neg (unnamed ·.2), position sub held⟩
        · intro sub opened
          split at opened
          next named =>
            cases opened
            exact (if_pos ⟨accepted, named⟩).symm
          next => cases opened
      | refused passed silent same =>
        rw [silent, List.map_nil, List.append_nil, unasked passed, same]
        exact ⟨stretches, (streams.kept (fun _ => place) fun sub held => ⟨held, rfl, position sub held⟩).grown during routed room⟩
      | ended passed silent left live =>
        rw [silent, List.map_nil, List.append_nil, unasked passed]
        refine ⟨stretches, (streams.kept (fun _ => place) fun sub held => ?_).grown during routed room⟩
        rcases left with gone | same
        · cases gone.symm.trans held
        · have held := same.symm.trans held
          exact ⟨held, rfl, position sub held⟩
    next => cases taken
  | drain venue dispatch now pulling pull during moment =>
    unfold BookWatch.step at taken
    dsimp only at taken
    split at taken
    next => cases taken
    next received feedEnd moved pulled =>
      split at taken
      next frames reached finished =>
        cases taken
        have reads : ReadsAt { venue.reading U (watch.history ++ pulling) during moment with
            received := received, feedEnd := feedEnd } fun symbol =>
              Feed.new.run U (watch.history ++ pulling ++ during.take (moment symbol)) := fun _ _ => rfl
        have drained := drainMarketData_drained symbol reads finished
        have before := streams.grown pulling (routed.subset (List.subset_append_left _ _)) (Feed.earlier_room room)
        have place : watch.marketData.isSome →
            watch.position + moved ≤ (Feed.new.run U (watch.history ++ pulling)).sent.length := by
          intro live
          have start : watch.position ≤ (Feed.new.run U (watch.history ++ pulling)).sent.length := (before.handed live).1
          have moved := Pull.moved_le pulled
          rw [List.length_drop] at moved
          omega
        cases drained with
        | idle none silent same =>
          rw [silent, same, none]
          refine ⟨stretches, ?_⟩
          rw [show bookFrames symbol [] = [] from rfl, List.map_nil, List.append_nil]
          exact (before.closed _).grown during routed room
        | projected full projected =>
          obtain ⟨rfl, rfl⟩ := Pull.projected pulled full
          have middle := Feed.counted_run (routed.subset (List.subset_append_left _ _)) (Feed.earlier_room room)
          obtain ⟨stretches, after⟩ := before.projected middle projected
          exact ⟨stretches, after.grown during routed room⟩
        | refreshed short lagged refreshed =>
          refine before.refreshed routed room rfl refreshed rfl (fun live => place (refreshed.live ▸ live)) ?_ ?_
          · exact fun sub free held => nomatch free.symm.trans held
          · exact fun sub held => (before.live sub held).1
        | closed short closed silent gone =>
          rw [silent, gone]
          refine ⟨stretches, ?_⟩
          rw [show bookFrames symbol [] = [] from rfl, List.map_nil, List.append_nil]
          exact (before.closed _).grown during routed room
      next => cases taken

/-- A session follows a symbol from its start. -/
theorem run {steps : List BookStep} (ran : runFrom (BookWatch.step U symbol) .new steps = some watch)
    (routed : Feed.Routed owner symbol watch.history) (room : (watch.feed U).sequence symbol < u64Max) :
    ∃ stretches, Streams U owner symbol watch stretches := by
  have preserved : ∀ watch step next, (Feed.Routed owner symbol watch.history → (watch.feed U).sequence symbol < u64Max →
      ∃ stretches, Streams U owner symbol watch stretches) → watch.step U symbol step = some next →
        Feed.Routed owner symbol next.history → (next.feed U).sequence symbol < u64Max →
          ∃ stretches, Streams U owner symbol next stretches := by
    intro watch step next follows taken routed room
    obtain ⟨more, history⟩ := BookWatch.step_history taken
    have below : (watch.feed U).sequence symbol < u64Max := by
      rw [BookWatch.feed, ← history] at room
      exact Feed.earlier_room room
    obtain ⟨stretches, streams⟩ := follows (routed.subset (history ▸ List.subset_append_left _ _)) below
    exact streams.step taken routed room
  exact runFrom_preserved preserved (fun _ _ => ⟨[], new⟩) ran routed room

end Streams

/-- What the frames of a symbol tell its client. -/
structure Followed (U : Upstream) (owner : String) (symbol : Symbol) (watch : BookWatch) : Prop where
  /-- Sequences never fall, and rise with each increment. -/
  sequences : watch.sent.Pairwise fun early late =>
    early.2.rptSeq ≤ late.2.rptSeq ∧ (late.2.isIncrement → early.2.rptSeq < late.2.rptSeq)
  /-- An increment carries the one published delta with its sequence, on the sides asked for. -/
  changes : ∀ sides mdReqId sequence entries, (sides, BookFrame.incremental mdReqId sequence entries) ∈ watch.sent →
    ∃ changes, (((watch.feed U).published owner symbol).filter fun delta => delta.1 = sequence) = [(sequence, changes)] ∧
      entries = incrementalEntries symbol changes sides
  /-- Nothing up to the baseline is skipped after a refresh, and the baseline covers whatever the receiver is past. -/
  stretches : ∃ stretches, Streams U owner symbol watch stretches ∧
    ∀ stretch ∈ stretches, ∀ delta ∈ (watch.feed U).published owner symbol,
      stretch.start U symbol < delta.1 → delta.1 ≤ stretch.sub.baseline →
      incrementalEntries symbol delta.2 stretch.sub.sides ≠ [] →
      .incremental stretch.sub.mdReqId delta.1 (incrementalEntries symbol delta.2 stretch.sub.sides) ∈
        stretch.frames U symbol ((watch.feed U).published owner symbol)

section Follow
variable {U : Upstream} {owner : String} {symbol : Symbol} {watch : BookWatch} {published : List Delta} {stretch : Stretch}

theorem Stretch.mem_frames {frame : BookFrame} : frame ∈ stretch.frames U symbol published ↔
    frame = refreshFrame (Feed.new.run U stretch.moment) symbol stretch.sub ∨
      ∃ delta ∈ cut Prod.fst (stretch.start U symbol) stretch.sub.baseline published,
        incrementalEntries symbol delta.2 stretch.sub.sides ≠ [] ∧
          frame = .incremental stretch.sub.mdReqId delta.1 (incrementalEntries symbol delta.2 stretch.sub.sides) := by
  unfold frames
  rw [List.mem_cons, mem_increments]

theorem Stretch.frames_bounded (forward : stretch.start U symbol ≤ stretch.sub.baseline) {frame : BookFrame}
    (member : frame ∈ stretch.frames U symbol published) :
    stretch.start U symbol ≤ frame.rptSeq ∧ frame.rptSeq ≤ stretch.sub.baseline ∧
      (frame.isIncrement → stretch.start U symbol < frame.rptSeq) := by
  rcases Stretch.mem_frames.1 member with rfl | ⟨delta, listed, -, rfl⟩
  · exact ⟨le_rfl, forward, fun increment => nomatch increment⟩
  · obtain ⟨-, past, upto⟩ := mem_cut.1 listed
    exact ⟨past.le, upto, fun _ => past⟩

/-- Sequences rise within a stretch. -/
theorem Stretch.frames_ascend (ascends : Ascends Prod.fst published) :
    (stretch.frames U symbol published).Pairwise fun early late => early.rptSeq < late.rptSeq := by
  unfold frames
  refine List.pairwise_cons.2 ⟨?_, ?_⟩
  · intro frame member
    obtain ⟨delta, listed, -, rfl⟩ := mem_increments.1 member
    exact (mem_cut.1 listed).2.1
  · refine List.pairwise_filterMap.2 ((ascends.filter _).imp ?_)
    intro first second rises one shown two told
    rw [(increment_eq_some_iff.1 shown).2, (increment_eq_some_iff.1 told).2]
    exact rises

theorem Streams.followed {stretches : List Stretch} (streams : Streams U owner symbol watch stretches)
    (counted : Feed.Counted owner symbol (watch.feed U)) : Followed U owner symbol watch := by
  refine ⟨?_, ?_, stretches, streams, ?_⟩
  · rw [streams.sent]
    refine List.pairwise_flatMap.2 ⟨fun stretch member => ?_, ?_⟩
    · refine List.pairwise_map.2 ((Stretch.frames_ascend counted.ascends).imp ?_)
      exact fun rises => ⟨rises.le, fun _ => rises⟩
    · refine streams.ordered.imp_of_mem ?_
      intro early late first second ordered one told two shown
      obtain ⟨frame, listed, rfl⟩ := List.mem_map.1 told
      obtain ⟨other, filed, rfl⟩ := List.mem_map.1 shown
      have before := Stretch.frames_bounded (streams.within early first).1 listed
      have after := Stretch.frames_bounded (streams.within late second).1 filed
      have apart := before.2.1.trans ordered
      exact ⟨apart.trans after.1, fun increment => apart.trans_lt (after.2.2 increment)⟩
  · intro sides mdReqId sequence entries member
    rw [streams.sent] at member
    obtain ⟨stretch, -, member⟩ := List.mem_flatMap.1 member
    obtain ⟨frame, listed, same⟩ := List.mem_map.1 member
    cases same
    rcases Stretch.mem_frames.1 listed with full | ⟨delta, published, -, same⟩
    · cases full
    · cases same
      exact ⟨delta.2, counted.ascends.filter_key (mem_cut.1 published).1, rfl⟩
  · intro stretch member delta published past upto changed
    exact Stretch.mem_frames.2 (Or.inr ⟨delta, mem_cut.2 ⟨published, past, upto⟩, changed, rfl⟩)

/-- Whatever the actors do, the session asks for, ends, pulls or loses, each of its frames tells the client what it
says, and nothing is left out between a full refresh and the baseline. -/
theorem bookFrames_followed [Ironfix] {steps : List BookStep}
    (ran : runFrom (BookWatch.step U symbol) .new steps = some watch) (routed : Feed.Routed owner symbol watch.history)
    (room : (watch.feed U).sequence symbol < u64Max) : Followed U owner symbol watch := by
  obtain ⟨stretches, streams⟩ := Streams.run ran routed room
  exact streams.followed (Feed.counted_run routed room)

end Follow

/-- The session of one client, past its logon. -/
def readerDispatch : Dispatch := { VenueFixSession.new "10.0.0.1" ⟨30000, 60⟩ 0 with
  fsm := { SessionFsm.new ⟨30000, 60⟩ 0 with venueComp := some (aliceHeader 1).targetCompId, clientComp := some (aliceHeader 1).senderCompId }
  store := .new .postgres
  leases := []
  calls := [] }

def bidsWanted (depth : Nat) : MarketDataRequest :=
  ⟨aliceHeader 2, "R-1", .snapshotPlusUpdates, depth, [.bid], ["BTC-20351231-50000-C"]⟩

/-- A bid of an account, or its cancel. -/
def bidAt (sequence price : Nat) (orderId : VenueOrderId) : FeedStep :=
  .commit "BTC" (.new sequence (sequence + 1) (.addOrder ⟨"BTC-20351231-50000-C", orderId, "acct-1", 7, none, .buy, .limit,
    some price, 5, .gtc, .none⟩) (.added [] 5 []))

def bidGone (sequence : Nat) (orderId : VenueOrderId) : FeedStep :=
  .commit "BTC" (.new sequence (sequence + 1) (.cancelOrder "BTC-20351231-50000-C" orderId "acct-1") (.cancelled orderId))

def readerAsks (depth : Nat) : BookStep := .request aliceVenue readerDispatch (bidsWanted depth) 0 [] fun _ => 0

def readerPulls (pull : Pull) : BookStep := .drain aliceVenue readerDispatch 0 [] pull [] fun _ => 0

/-- The actor that takes a step. -/
def actorOf : FeedStep → String
  | .commit underlying _ | .send underlying => underlying

/-- The refresh is read between the fold of the first bid and its broadcast; the cancel is lost. -/
def laggedReader : List BookStep :=
  [.feed (bidAt 0 100 "a"), readerAsks 0, .feed (.send "BTC"), .feed (bidAt 1 90 "b"), .feed (.send "BTC"),
    readerPulls .caughtUp, .feed (bidGone 2 "a"), .feed (.send "BTC"), readerPulls (.lagged 0 1)]

theorem laggedReader_followed : ∃ watch,
    runFrom (@BookWatch.step referenceWire referenceUpstream "BTC-20351231-50000-C") .new laggedReader = some watch ∧
      watch.sent.map Prod.snd = [.full "R-1" 1 [⟨.bid, 100, 5⟩],
        .incremental "R-1" 2 [⟨.change, .bid, "BTC-20351231-50000-C", 90, 5⟩], .full "R-1" 3 [⟨.bid, 90, 5⟩]] ∧
      Followed referenceUpstream "BTC" "BTC-20351231-50000-C" watch := by
  have computed : (runFrom (@BookWatch.step referenceWire referenceUpstream "BTC-20351231-50000-C") .new laggedReader).map
      (fun watch => (watch.sent.map Prod.snd, (watch.feed referenceUpstream).sequence "BTC-20351231-50000-C",
        watch.history.all fun step => actorOf step = "BTC")) =
      some ([.full "R-1" 1 [⟨.bid, 100, 5⟩], .incremental "R-1" 2 [⟨.change, .bid, "BTC-20351231-50000-C", 90, 5⟩],
        .full "R-1" 3 [⟨.bid, 90, 5⟩]], 3, true) := by decide +kernel
  obtain ⟨watch, ran, computed⟩ := Option.map_eq_some_iff.1 computed
  simp only [Prod.mk.injEq] at computed
  obtain ⟨sent, sequence, own⟩ := computed
  have routed : Feed.Routed "BTC" "BTC-20351231-50000-C" watch.history :=
    fun underlying event member _ => of_decide_eq_true (List.all_eq_true.1 own _ member)
  refine ⟨watch, ran, sent, @bookFrames_followed _ _ _ _ referenceWire _ ran routed ?_⟩
  rw [sequence]
  decide

end Fauxchange.Fix
