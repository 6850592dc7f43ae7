import Fauxchange.Fix.Sends
import Fauxchange.MarketData.Broadcast
import Fauxchange.Lib.Cuts

/-! What the market-data requests and the drains of a session put on the wire for one symbol, and what becomes of
its subscription. -/

namespace Fauxchange.Fix
open Exchange Lib Fallible MarketData

/-- A market-data frame of one symbol. -/
inductive BookFrame where
  | full (mdReqId : String) (rptSeq : Nat) (entries : List SnapshotEntry)
  | incremental (mdReqId : String) (rptSeq : Nat) (entries : List IncrementalEntry)
  deriving DecidableEq

def BookFrame.rptSeq : BookFrame → Nat
  | full _ rptSeq _ | incremental _ rptSeq _ => rptSeq

def BookFrame.isIncrement : BookFrame → Bool
  | full .. => false
  | incremental .. => true

/-- An increment names its symbol in its entries. -/
def Frame.bookFrame? (symbol : Symbol) : Frame → Option BookFrame
  | .message (.marketDataSnapshotFullRefresh refresh) =>
    if refresh.symbol = symbol then some (.full refresh.mdReqId refresh.rptSeq refresh.entries) else none
  | .message (.marketDataIncrementalRefresh refresh) =>
    if refresh.entries.any fun entry => entry.symbol = symbol then
      some (.incremental refresh.mdReqId refresh.rptSeq refresh.entries)
    else none
  | _ => none

def bookFrames (symbol : Symbol) (frames : List Frame) : List BookFrame := frames.filterMap (Frame.bookFrame? symbol)

/-- The live subscription of a symbol. -/
def subscription (marketData : Option (Std.ExtTreeMap Symbol MdSymbolSub)) (symbol : Symbol) : Option MdSymbolSub :=
  marketData.bind fun symbols => symbols[symbol]?

/-- The increment of a delta on the requested sides; one that changes nothing there has none. -/
def increment (symbol : Symbol) (mdReqId : String) (sides : RequestedSides) (delta : Delta) : Option BookFrame :=
  match incrementalEntries symbol delta.2 sides with
  | [] => none
  | entries => some (.incremental mdReqId delta.1 entries)

def increments (symbol : Symbol) (mdReqId : String) (sides : RequestedSides) (deltas : List Delta) : List BookFrame :=
  deltas.filterMap (increment symbol mdReqId sides)

section Lists
variable {symbol other : Symbol} {frames more : List Frame}

theorem bookFrames_append (symbol : Symbol) (frames more : List Frame) :
    bookFrames symbol (frames ++ more) = bookFrames symbol frames ++ bookFrames symbol more := List.filterMap_append

theorem bookFrames_cons (frame : Frame) : bookFrames symbol (frame :: frames) =
    (frame.bookFrame? symbol).toList ++ bookFrames symbol frames := by
  unfold bookFrames
  rw [List.filterMap_cons]
  cases frame.bookFrame? symbol <;> rfl

theorem increment_eq_some_iff {mdReqId : String} {sides : RequestedSides} {delta : Delta} {frame : BookFrame} :
    increment symbol mdReqId sides delta = some frame ↔ incrementalEntries symbol delta.2 sides ≠ [] ∧
      frame = .incremental mdReqId delta.1 (incrementalEntries symbol delta.2 sides) := by
  unfold increment
  cases listed : incrementalEntries symbol delta.2 sides with
  | nil => simp
  | cons entry rest => simp [eq_comm]

theorem increment_eq_none_iff {mdReqId : String} {sides : RequestedSides} {delta : Delta} :
    increment symbol mdReqId sides delta = none ↔ incrementalEntries symbol delta.2 sides = [] := by
  unfold increment
  cases incrementalEntries symbol delta.2 sides <;> simp

theorem increments_append (symbol : Symbol) (mdReqId : String) (sides : RequestedSides) (early late : List Delta) :
    increments symbol mdReqId sides (early ++ late) =
      increments symbol mdReqId sides early ++ increments symbol mdReqId sides late := List.filterMap_append

theorem increments_singleton {mdReqId : String} {sides : RequestedSides} {sequence : Nat} {changes : List PriceLevelChange}
    (changed : incrementalEntries symbol changes sides ≠ []) :
    increments symbol mdReqId sides [(sequence, changes)] =
      [.incremental mdReqId sequence (incrementalEntries symbol changes sides)] := by
  rw [increments, List.filterMap_cons, increment_eq_some_iff.2 ⟨changed, rfl⟩]
  rfl

theorem mem_increments {mdReqId : String} {sides : RequestedSides} {deltas : List Delta} {frame : BookFrame} :
    frame ∈ increments symbol mdReqId sides deltas ↔ ∃ delta ∈ deltas, incrementalEntries symbol delta.2 sides ≠ [] ∧
      frame = .incremental mdReqId delta.1 (incrementalEntries symbol delta.2 sides) := by
  unfold increments
  simp only [List.mem_filterMap, increment_eq_some_iff]

/-- Every entry of an increment is of its symbol. -/
theorem incrementalEntries_symbol {changes : List PriceLevelChange} {sides : RequestedSides} {entry : IncrementalEntry}
    (member : entry ∈ incrementalEntries symbol changes sides) : entry.symbol = symbol := by
  obtain ⟨change, -, rfl⟩ := List.mem_map.1 member
  rfl

theorem bookFrame?_incremental {header : StandardHeader} {mdReqId : String} {sequence : Nat}
    {changes : List PriceLevelChange} {sides : RequestedSides} (changed : incrementalEntries other changes sides ≠ []) :
    Frame.bookFrame? symbol (.message (.marketDataIncrementalRefresh
        ⟨header, mdReqId, sequence, incrementalEntries other changes sides⟩)) =
      if other = symbol then some (.incremental mdReqId sequence (incrementalEntries other changes sides)) else none := by
  have names : ((incrementalEntries other changes sides).any fun entry => entry.symbol = symbol) = decide (other = symbol) := by
    obtain ⟨entry, rest, listed⟩ := List.exists_cons_of_ne_nil changed
    rw [Bool.eq_iff_iff, List.any_eq_true, decide_eq_true_eq]
    constructor
    · rintro ⟨entry, member, named⟩
      exact (incrementalEntries_symbol member).symm.trans (of_decide_eq_true named)
    · intro same
      have member : entry ∈ incrementalEntries other changes sides := listed ▸ List.mem_cons_self
      exact ⟨entry, member, decide_eq_true ((incrementalEntries_symbol member).trans same)⟩
  change (if ((incrementalEntries other changes sides).any fun entry => entry.symbol = symbol) = true then _ else _) = _
  rw [names]
  exact if_congr decide_eq_true_iff rfl rfl

end Lists

section Subscriptions
variable {marketData : Option (Std.ExtTreeMap Symbol MdSymbolSub)} {symbol other : Symbol} {sub : MdSymbolSub}

theorem subscription_live (held : subscription marketData symbol = some sub) : marketData.isSome := by
  cases marketData with
  | none => cases held
  | some symbols => rfl

theorem subscription_insert_self (live : marketData.isSome) :
    subscription (marketData.map fun symbols => symbols.insert symbol sub) symbol = some sub := by
  obtain ⟨symbols, rfl⟩ := Option.isSome_iff_exists.1 live
  exact Std.ExtTreeMap.getElem?_insert_self

theorem subscription_insert_of_ne (apart : other ≠ symbol) :
    subscription (marketData.map fun symbols => symbols.insert other sub) symbol = subscription marketData symbol := by
  cases marketData with
  | none => rfl
  | some symbols => simp [subscription, Std.ExtTreeMap.getElem?_insert, apart]

end Subscriptions

section Frames
variable [Ironfix] {venue : AppState} {now : Nat} {dispatch reached : Dispatch} {frame : Frame} {frames : List Frame}
  (symbol : Symbol)

theorem emitMdSnapshot_frame {mdReqId : String} {other : Symbol} {rptSeq : Nat} {entries : List SnapshotEntry}
    (finished : exec (emitMdSnapshot mdReqId other rptSeq entries now) dispatch = (.ok frame, reached)) :
    frame.bookFrame? symbol = (if other = symbol then some (.full mdReqId rptSeq entries) else none) ∧
      reached.marketData = dispatch.marketData := by
  obtain ⟨⟨header, rfl⟩, kept⟩ := emit_builds finished
  exact ⟨rfl, kept⟩

theorem emitMdIncremental_frame {mdReqId : String} {other : Symbol} {sequence : Nat} {changes : List PriceLevelChange}
    {sides : RequestedSides} (changed : incrementalEntries other changes sides ≠ [])
    (finished : exec (emitMdIncremental mdReqId sequence (incrementalEntries other changes sides) now) dispatch =
      (.ok frame, reached)) :
    frame.bookFrame? symbol = (if other = symbol then
        some (.incremental mdReqId sequence (incrementalEntries other changes sides)) else none) ∧
      reached.marketData = dispatch.marketData := by
  obtain ⟨⟨header, rfl⟩, kept⟩ := emit_builds finished
  exact ⟨bookFrame?_incremental changed, kept⟩

end Frames

/-- What a symbol is sent for its deltas, and where that leaves its subscription. -/
structure Projected (symbol : Symbol) (deltas : List Delta) (before after : Option (Std.ExtTreeMap Symbol MdSymbolSub))
    (frames : List Frame) : Prop where
  frames : bookFrames symbol frames = ((subscription before symbol).map fun sub =>
    increments symbol sub.mdReqId sub.sides (past Prod.fst sub.baseline deltas)).getD []
  subscription : subscription after symbol = (subscription before symbol).map fun sub =>
    { sub with baseline := reaches Prod.fst sub.baseline deltas }
  live : after.isSome = before.isSome

section Projections
variable {symbol other : Symbol} {deltas early late : List Delta} {frames more : List Frame}
  {before middle after : Option (Std.ExtTreeMap Symbol MdSymbolSub)}

theorem Projected.refl (marketData : Option (Std.ExtTreeMap Symbol MdSymbolSub)) :
    Projected symbol [] marketData marketData [] := by
  refine ⟨?_, ?_, rfl⟩
  · cases Fix.subscription marketData symbol <;> rfl
  · cases Fix.subscription marketData symbol <;> rfl

theorem Projected.trans (one : Projected symbol early before middle frames) (two : Projected symbol late middle after more) :
    Projected symbol (early ++ late) before after (frames ++ more) := by
  refine ⟨?_, ?_, two.live.trans one.live⟩
  · rw [bookFrames_append, one.frames, two.frames, one.subscription]
    cases Fix.subscription before symbol with
    | none => rfl
    | some sub =>
      simp only [Option.map_some, Option.getD_some]
      rw [past_append, increments_append]
  · rw [two.subscription, one.subscription, Option.map_map]
    refine congrArg (fun change => Option.map change _) (funext fun sub => ?_)
    simp only [Function.comp_apply, reaches, List.foldl_append]

/-- What leaves a symbol alone. -/
theorem Projected.apart (silent : bookFrames symbol frames = [])
    (same : Fix.subscription after symbol = Fix.subscription before symbol) (live : after.isSome = before.isSome) :
    Projected symbol [] before after frames := by
  refine ⟨?_, ?_, live⟩
  · rw [silent]
    cases Fix.subscription before symbol <;> rfl
  · rw [same]
    cases Fix.subscription before symbol <;> rfl

/-- A delta of a symbol without a subscription. -/
theorem Projected.unsubscribed (free : Fix.subscription before symbol = none) : Projected symbol deltas before before [] := by
  refine ⟨?_, ?_, rfl⟩
  · rw [free]
    rfl
  · rw [free]
    rfl

/-- A delta that the client has seen. -/
theorem Projected.seen {sub : MdSymbolSub} {delta : Delta} (held : Fix.subscription before symbol = some sub)
    (seen : delta.1 ≤ sub.baseline) : Projected symbol [delta] before before [] := by
  refine ⟨?_, ?_, rfl⟩
  · rw [held, Option.map_some, past, if_pos seen]
    rfl
  · rw [held, Option.map_some, reaches, List.foldl_cons, max_eq_left seen]
    rfl

/-- A delta past the baseline, with its increment. -/
theorem Projected.fresh {sub : MdSymbolSub} {delta : Delta} (held : Fix.subscription before symbol = some sub)
    (fresh : sub.baseline < delta.1) (shown : bookFrames symbol frames = increments symbol sub.mdReqId sub.sides [delta]) :
    Projected symbol [delta] before (before.map fun symbols => symbols.insert symbol { sub with baseline := delta.1 }) frames := by
  have live := subscription_live held
  refine ⟨?_, ?_, Option.isSome_map⟩
  · rw [held, Option.map_some, past, if_neg (not_le.2 fresh)]
    exact shown
  · rw [subscription_insert_self live, held, Option.map_some, reaches, List.foldl_cons, max_eq_right fresh.le]
    rfl

variable [Ironfix] {now : Nat} {dispatch reached : Dispatch}

variable (symbol)

/-- One delta of the broadcast, then the rest. -/
theorem projectDelta_projected {sequence : Nat} {changes : List PriceLevelChange} {rest : List WsMessage}
    (finished : exec (projectDeltas now (.orderbookDelta other sequence changes :: rest)) dispatch = (.ok frames, reached)) :
    ∃ middle first later, frames = first ++ later ∧ exec (projectDeltas now rest) middle = (.ok later, reached) ∧
      Projected symbol (if other = symbol then [(sequence, changes)] else []) dispatch.marketData middle.marketData first := by
  unfold projectDeltas at finished
  rw [exec_get_bind] at finished
  split at finished
  next free =>
    refine ⟨dispatch, [], frames, rfl, finished, ?_⟩
    split
    next same =>
      subst same
      exact .unsubscribed free
    next => exact .refl _
  next sub held =>
    have held : subscription dispatch.marketData other = some sub := held
    split at finished
    next seen =>
      refine ⟨dispatch, [], frames, rfl, finished, ?_⟩
      split
      next same =>
        subst same
        exact .seen held seen
      next => exact .refl _
    next fresh =>
      have fresh : sub.baseline < sequence := not_le.1 fresh
      rw [writeSub, exec_modify_bind] at finished
      split at finished
      next unchanged =>
        refine ⟨_, [], frames, rfl, finished, ?_⟩
        split
        next same =>
          subst same
          refine .fresh held fresh ?_
          rw [increments, List.filterMap_cons, increment_eq_none_iff.2 unchanged]
          rfl
        next apart => exact .apart rfl (subscription_insert_of_ne apart) Option.isSome_map
      next changed =>
        obtain ⟨frame, emitted, sent, finished⟩ := exec_bind_eq_ok finished
        obtain ⟨later, left, projected, finished⟩ := exec_bind_eq_ok finished
        cases finished
        obtain ⟨shown, kept⟩ := emitMdIncremental_frame symbol changed sent
        refine ⟨emitted, [frame], later, rfl, projected, ?_⟩
        rw [kept]
        split
        next same =>
          subst same
          refine .fresh held fresh ?_
          rw [bookFrames_cons, shown, if_pos rfl, increments_singleton changed]
          rfl
        next apart =>
          rw [if_neg apart] at shown
          refine .apart ?_ (subscription_insert_of_ne apart) Option.isSome_map
          rw [bookFrames_cons, shown]
          rfl

theorem projectDeltas_projected {messages : List WsMessage}
    (finished : exec (projectDeltas now messages) dispatch = (.ok frames, reached)) :
    Projected symbol (deltasOf symbol messages) dispatch.marketData reached.marketData frames := by
  induction messages generalizing dispatch frames with
  | nil =>
    cases finished
    exact .refl _
  | cons message rest ih =>
    cases message with
    | orderbookDelta other sequence changes =>
      obtain ⟨middle, first, later, rfl, finished, projected⟩ := projectDelta_projected symbol finished
      rw [deltasOf_cons]
      exact projected.trans (ih finished)
    | _ => exact ih finished

end Projections

/-- The full refresh of a subscription from one moment of the feed. -/
def refreshFrame (feed : Feed) (symbol : Symbol) (sub : MdSymbolSub) : BookFrame :=
  let levels := (feed.manager.instrument symbol).levels
  .full sub.mdReqId (feed.sequence symbol) (snapshotEntries
    (Levels.truncated sub.depth (Levels.levelData levels.bids.toList.reverse))
    (Levels.truncated sub.depth (Levels.levelData levels.asks.toList)) sub.sides)

/-- A subscription after its refresh. -/
def MdSymbolSub.refreshed (feed : Feed) (symbol : Symbol) (sub : MdSymbolSub) : MdSymbolSub :=
  { sub with baseline := feed.sequence symbol }

/-- The snapshots that a session reads, each at its own moment. -/
def ReadsAt (venue : AppState) (moments : Symbol → Feed) : Prop :=
  ∀ symbol depth, venue.orderbookSnapshot symbol depth = (moments symbol).manager.orderbookSnapshot symbol depth

/-- What a symbol is sent where it is refreshed, and where that leaves its subscription. -/
structure Refreshed (moments : Symbol → Feed) (symbol : Symbol) (refreshed : Option MdSymbolSub)
    (before after : Option (Std.ExtTreeMap Symbol MdSymbolSub)) (frames : List Frame) : Prop where
  frames : bookFrames symbol frames = (refreshed.map (refreshFrame (moments symbol) symbol)).toList
  subscription : subscription after symbol =
    (refreshed.map (MdSymbolSub.refreshed (moments symbol) symbol)).or (subscription before symbol)
  live : after.isSome = before.isSome

section Refreshes
variable {moments : Symbol → Feed} {symbol other : Symbol} {first second : Option MdSymbolSub} {sub : MdSymbolSub}
  {frames more : List Frame} {before middle after : Option (Std.ExtTreeMap Symbol MdSymbolSub)}

theorem Refreshed.refl (marketData : Option (Std.ExtTreeMap Symbol MdSymbolSub)) :
    Refreshed moments symbol none marketData marketData [] := ⟨rfl, rfl, rfl⟩

/-- A symbol is refreshed at most once. -/
theorem Refreshed.trans (one : Refreshed moments symbol first before middle frames)
    (two : Refreshed moments symbol second middle after more) (once : first = none ∨ second = none) :
    Refreshed moments symbol (first.or second) before after (frames ++ more) := by
  refine ⟨?_, ?_, two.live.trans one.live⟩
  · rw [bookFrames_append, one.frames, two.frames]
    rcases once with rfl | rfl
    · rfl
    · rw [Option.or_none, Option.map_none, Option.toList_none, List.append_nil]
  · rw [two.subscription, one.subscription]
    rcases once with rfl | rfl
    · rfl
    · rw [Option.or_none]
      rfl

theorem refreshed_insert {frame : Frame} (live : before.isSome)
    (shown : ∀ symbol, frame.bookFrame? symbol = if other = symbol then some (refreshFrame (moments other) other sub) else none) :
    Refreshed moments symbol (if other = symbol then some sub else none) before
      (before.map fun symbols => symbols.insert other (sub.refreshed (moments other) other)) [frame] := by
  by_cases same : other = symbol
  · subst same
    rw [if_pos rfl]
    refine ⟨?_, ?_, Option.isSome_map⟩
    · rw [bookFrames_cons, shown, if_pos rfl]
      rfl
    · rw [subscription_insert_self live]
      rfl
  · rw [if_neg same]
    refine ⟨?_, ?_, Option.isSome_map⟩
    · rw [bookFrames_cons, shown, if_neg same]
      rfl
    · rw [subscription_insert_of_ne same]
      rfl

/-- The subscription of a symbol in a list of them. -/
def listedSub (entries : List (Symbol × MdSymbolSub)) (symbol : Symbol) : Option MdSymbolSub :=
  (entries.find? fun entry => entry.1 = symbol).map Prod.snd

theorem listedSub_cons (other : Symbol) (sub : MdSymbolSub) (rest : List (Symbol × MdSymbolSub)) (symbol : Symbol) :
    listedSub ((other, sub) :: rest) symbol = if other = symbol then some sub else listedSub rest symbol := by
  unfold listedSub
  by_cases same : other = symbol
  · rw [if_pos same, List.find?_cons_of_pos (by simpa using same)]
    rfl
  · rw [if_neg same, List.find?_cons_of_neg (by simpa using same)]

/-- A visit of the live subscriptions lists each of them. -/
theorem listedSub_perm {live : Std.ExtTreeMap Symbol MdSymbolSub} {entries : List (Symbol × MdSymbolSub)}
    (perm : entries.Perm live.toList) (symbol : Symbol) : listedSub entries symbol = live[symbol]? := by
  unfold listedSub
  cases found : entries.find? fun entry => entry.1 = symbol with
  | none =>
    have absent := List.find?_eq_none.1 found
    cases held : live[symbol]? with
    | none => rfl
    | some sub =>
      have member : (symbol, sub) ∈ entries :=
        perm.mem_iff.2 (Std.ExtTreeMap.mem_toList_iff_getElem?_eq_some.2 held)
      exact absurd (decide_eq_true rfl) (absent _ member)
  | some entry =>
    have named : entry.1 = symbol := by simpa using List.find?_some found
    have member : entry ∈ live.toList := perm.mem_iff.1 (List.mem_of_find?_eq_some found)
    subst named
    exact (Std.ExtTreeMap.mem_toList_iff_getElem?_eq_some.1 member).symm

variable [Ironfix] {venue : AppState} {now : Nat} {dispatch reached : Dispatch} {request : MarketDataRequest}

/-- The subscription that a request asks for, before its first snapshot. -/
def requestedSub (request : MarketDataRequest) : MdSymbolSub :=
  ⟨request.mdReqId, .fromEntryTypes request.entryTypes, if request.marketDepth = 0 then none else some request.marketDepth, 0⟩

variable (symbol)

theorem subscribeSymbols_refreshed {symbols : List Symbol} (reads : ReadsAt venue moments) (distinct : symbols.Nodup)
    (live : dispatch.marketData.isSome)
    (finished : exec (subscribeSymbols venue request now symbols) dispatch = (.ok frames, reached)) :
    Refreshed moments symbol (if symbol ∈ symbols then some (requestedSub request) else none) dispatch.marketData
      reached.marketData frames := by
  induction symbols generalizing dispatch frames with
  | nil =>
    cases finished
    exact .refl _
  | cons other rest ih =>
    obtain ⟨apart, distinct⟩ := List.nodup_cons.1 distinct
    unfold subscribeSymbols at finished
    dsimp only at finished
    rw [reads] at finished
    rw [show snapshotProjection ((moments other).manager.orderbookSnapshot other
      (if request.marketDepth = 0 then none else some request.marketDepth)) (.fromEntryTypes request.entryTypes) =
        some ((moments other).sequence other, _) from rfl] at finished
    dsimp only at finished
    rw [writeSub, exec_modify_bind] at finished
    obtain ⟨frame, emitted, sent, finished⟩ := exec_bind_eq_ok finished
    obtain ⟨later, left, subscribed, finished⟩ := exec_bind_eq_ok finished
    cases finished
    have shown := fun symbol => (emitMdSnapshot_frame symbol sent).1
    have kept := (emitMdSnapshot_frame other sent).2
    have one : Refreshed moments symbol (if other = symbol then some (requestedSub request) else none) dispatch.marketData
        emitted.marketData [frame] := by
      rw [kept]
      exact refreshed_insert live shown
    have both := one.trans (ih distinct (one.live.trans live) subscribed)
    by_cases same : other = symbol
    · subst same
      rw [if_pos rfl, if_neg apart] at both
      rw [if_pos List.mem_cons_self]
      exact both (Or.inr rfl)
    · rw [if_neg same] at both
      have listed : symbol ∈ other :: rest ↔ symbol ∈ rest := List.mem_cons.trans (or_iff_right (Ne.symm same))
      rw [if_congr listed rfl rfl]
      exact both (Or.inl rfl)

theorem resnapshotSubscriptions_refreshed {entries : List (Symbol × MdSymbolSub)} (reads : ReadsAt venue moments)
    (distinct : (entries.map Prod.fst).Nodup) (live : dispatch.marketData.isSome)
    (finished : exec (resnapshotSubscriptions venue now entries) dispatch = (.ok frames, reached)) :
    Refreshed moments symbol (listedSub entries symbol) dispatch.marketData reached.marketData frames := by
  induction entries generalizing dispatch frames with
  | nil =>
    cases finished
    exact .refl _
  | cons entry rest ih =>
    obtain ⟨other, sub⟩ := entry
    obtain ⟨apart, distinct⟩ := List.nodup_cons.1 distinct
    unfold resnapshotSubscriptions at finished
    rw [reads] at finished
    rw [show snapshotProjection ((moments other).manager.orderbookSnapshot other sub.depth) sub.sides =
      some ((moments other).sequence other, _) from rfl] at finished
    obtain ⟨frame, emitted, sent, finished⟩ := exec_bind_eq_ok finished
    rw [writeSub, exec_modify_bind] at finished
    obtain ⟨later, left, subscribed, finished⟩ := exec_bind_eq_ok finished
    cases finished
    have shown := fun symbol => (emitMdSnapshot_frame symbol sent).1
    have kept := (emitMdSnapshot_frame other sent).2
    have one : Refreshed moments symbol (if other = symbol then some sub else none) dispatch.marketData
        (emitted.marketData.map fun symbols => symbols.insert other (sub.refreshed (moments other) other)) [frame] := by
      rw [kept]
      exact refreshed_insert live shown
    have both := one.trans (ih distinct (one.live.trans live) subscribed)
    by_cases same : other = symbol
    · subst same
      have free : listedSub rest other = none := by
        rw [listedSub, List.find?_eq_none.2, Option.map_none]
        exact fun entry member named => apart (List.mem_map.2 ⟨entry, member, of_decide_eq_true named⟩)
      rw [if_pos rfl, free] at both
      rw [listedSub_cons, if_pos rfl]
      exact both (Or.inr rfl)
    · rw [if_neg same] at both
      rw [listedSub_cons, if_neg same]
      exact both (Or.inl rfl)

end Refreshes

section Requests
variable {moments : Symbol → Feed} {symbol : Symbol} {before after : Option (Std.ExtTreeMap Symbol MdSymbolSub)}
  {frames : List Frame}

/-- A request that opens its subscriptions. -/
def accepts (marketData : Option (Std.ExtTreeMap Symbol MdSymbolSub)) (request : MarketDataRequest) : Bool :=
  request.subscriptionRequestType = .snapshotPlusUpdates ∧ (subscribeRefusal marketData request).isNone

/-- What a market-data request does for one symbol: it is taken whole, or refused whole, or it ends subscriptions. -/
inductive Requested (moments : Symbol → Feed) (request : MarketDataRequest) (symbol : Symbol)
    (before after : Option (Std.ExtTreeMap Symbol MdSymbolSub)) (frames : List Frame) : Prop where
  | taken (accepted : accepts before request = true) (live : after.isSome) (refreshed : Refreshed moments symbol
      (if symbol ∈ request.symbols then some (requestedSub request) else none) (some (before.getD ∅)) after frames)
  | refused (passed : accepts before request = false) (silent : bookFrames symbol frames = []) (kept : after = before)
  | ended (passed : accepts before request = false) (silent : bookFrames symbol frames = [])
      (left : subscription after symbol = none ∨ subscription after symbol = subscription before symbol)
      (live : after.isSome → before.isSome)

/-- A request that is not refused names each of its symbols once. -/
theorem distinct_of_free {request : MarketDataRequest} (free : subscribeRefusal before request = none) :
    request.symbols.Nodup := by
  by_contra repeated
  have named : duplicateSymbol request.symbols = true := decide_eq_true repeated
  unfold subscribeRefusal at free
  dsimp only at free
  rw [if_pos named] at free
  split at free
  next => cases free
  next =>
    split at free
    next => cases free
    next => split at free <;> cases free

theorem erased_symbols (symbols : List Symbol) (live : Std.ExtTreeMap Symbol MdSymbolSub) (symbol : Symbol) :
    (symbols.foldl (fun left symbol => left.erase symbol) live)[symbol]? = none ∨
      (symbols.foldl (fun left symbol => left.erase symbol) live)[symbol]? = live[symbol]? := by
  induction symbols generalizing live with
  | nil => exact Or.inr rfl
  | cons other rest ih =>
    rw [List.foldl_cons]
    rcases ih (live.erase other) with gone | same
    · exact Or.inl gone
    · rw [same, Std.ExtTreeMap.getElem?_erase]
      split
      next => exact Or.inl rfl
      next => exact Or.inr rfl

variable [Ironfix] {venue : AppState} {now : Nat} {dispatch reached : Dispatch} {request : MarketDataRequest} {reaction : Reaction}

variable (symbol)

theorem subscribeMarketData_requested (reads : ReadsAt venue moments)
    (asked : request.subscriptionRequestType = .snapshotPlusUpdates)
    (finished : exec (subscribeMarketData venue request now) dispatch = (.ok reaction, reached)) :
    Requested moments request symbol dispatch.marketData reached.marketData reaction.frames := by
  unfold subscribeMarketData at finished
  rw [exec_get_bind] at finished
  split at finished
  next reason text refused =>
    obtain ⟨⟨header, rfl⟩, kept⟩ := emitOne_builds finished
    refine .refused ?_ rfl kept
    simp [accepts, refused]
  next free =>
    rw [setMarketData, exec_modify_bind] at finished
    obtain ⟨frames, middle, subscribed, finished⟩ := exec_bind_eq_ok finished
    cases finished
    have refreshed := subscribeSymbols_refreshed symbol reads (distinct_of_free free) rfl subscribed
    refine .taken ?_ ?_ refreshed
    · simp [accepts, free, asked]
    · exact refreshed.live

theorem routeMarketData_requested (reads : ReadsAt venue moments)
    (finished : exec (routeMarketData venue request now) dispatch = (.ok reaction, reached)) :
    Requested moments request symbol dispatch.marketData reached.marketData reaction.frames := by
  unfold routeMarketData at finished
  split at finished
  next asked => exact subscribeMarketData_requested symbol reads asked finished
  next asked =>
    unfold unsubscribeMarketData at finished
    rw [exec_get_bind, setMarketData, exec_modify_bind] at finished
    cases finished
    refine .ended (by simp [accepts, asked]) rfl ?_ ?_
    · cases held : dispatch.marketData with
      | none => exact Or.inl rfl
      | some live =>
        simp only [Option.bind_some]
        split
        next => exact Or.inl rfl
        next => exact erased_symbols request.symbols live symbol
    · cases dispatch.marketData with
      | none => exact id
      | some live => exact fun _ => rfl

/-- What a drain does for one symbol. -/
inductive Drained (moments : Symbol → Feed) (received : List WsMessage) (feedEnd : FeedEnd) (symbol : Symbol)
    (before after : Option (Std.ExtTreeMap Symbol MdSymbolSub)) (frames : List Frame) : Prop where
  | idle (none : before = none) (silent : frames = []) (kept : after = before)
  | projected (full : maxMdFramesPerCycle ≤ received.length ∨ feedEnd = .empty)
      (projected : Projected symbol (deltasOf symbol (received.take maxMdFramesPerCycle)) before after frames)
  | refreshed (short : received.length < maxMdFramesPerCycle) (lagged : feedEnd = .lagged)
      (refreshed : Refreshed moments symbol (subscription before symbol) before after frames)
  | closed (short : received.length < maxMdFramesPerCycle) (closed : feedEnd = .closed) (silent : frames = []) (gone : after = none)

theorem drainMarketData_drained (reads : ReadsAt venue moments)
    (finished : exec (drainMarketData venue now) dispatch = (.ok frames, reached)) :
    Drained moments venue.received venue.feedEnd symbol dispatch.marketData reached.marketData frames := by
  unfold drainMarketData at finished
  rw [exec_get_bind] at finished
  split at finished
  next free =>
    cases finished
    exact .idle free rfl rfl
  next live held =>
    split at finished
    next full => exact .projected (Or.inl full) (projectDeltas_projected symbol finished)
    next short =>
      have short := not_le.1 short
      split at finished
      next ended =>
        refine .projected (Or.inr ended) ?_
        rw [List.take_of_length_le short.le]
        exact projectDeltas_projected symbol finished
      next lagged =>
        refine .refreshed short lagged ?_
        have perm := visit_perm venue.hashOrder 0 live.toList
        have refreshed := resnapshotSubscriptions_refreshed symbol reads ?_ (held ▸ rfl) finished
        · rw [listedSub_perm perm] at refreshed
          rw [held] at refreshed ⊢
          exact refreshed
        · exact ((perm.map Prod.fst).nodup_iff).2 (nodup_keys live)
      next closed =>
        rw [setMarketData, exec_modify_bind] at finished
        cases finished
        exact .closed short closed rfl rfl

end Requests

end Fauxchange.Fix
