import Fauxchange.MarketData.Deltas
import Fauxchange.Lib.Cuts

/-! The broadcast of one instrument whoever its commands come from: what is published carries the sequences from one
on, and a requote of the market maker takes none. -/

namespace Fauxchange.MarketData
open Lib Exchange

theorem deltasOf_cons (symbol other : Symbol) (sequence : Nat) (changes : List PriceLevelChange) (rest : List WsMessage) :
    deltasOf symbol (.orderbookDelta other sequence changes :: rest) =
      (if other = symbol then [(sequence, changes)] else []) ++ deltasOf symbol rest := by
  unfold deltasOf
  rw [List.filterMap_cons, WsMessage.delta?]
  by_cases same : other = symbol
  · rw [if_pos same, if_pos same]
    rfl
  · rw [if_neg same, if_neg same]
    rfl

namespace OrderbookSubscriptionManager
variable (manager : OrderbookSubscriptionManager) {symbol : Symbol} (event : VenueEvent)

/-- An event of an instrument publishes the delta with the next sequence, or none. -/
theorem onCommittedEvent_counts (U : Upstream) (named : commandSymbol event.command = some symbol)
    (room : (manager.instrument symbol).sequence < u64Max) :
    ∃ deltas : List Delta, deltasOf symbol (manager.onCommittedEvent U event).1 = deltas ∧
      deltas.map Prod.fst = List.range' ((manager.instrument symbol).sequence + 1) deltas.length ∧
        ((manager.onCommittedEvent U event).2.instrument symbol).sequence =
          (manager.instrument symbol).sequence + deltas.length := by
  have same := (manager.instrument symbol).apply_sequence event.command event.outcome
  simp only [onCommittedEvent, named, fold, deltasOf_append, deltasOf_fillsAndTrades, List.append_nil]
  split
  next silent =>
    rw [instrument_insert_self]
    exact ⟨[], rfl, rfl, same⟩
  next reported =>
    rw [same, if_pos room, instrument_insert_self]
    refine ⟨[(_, ((manager.instrument symbol).apply event.command event.outcome).1)], ?_, rfl, rfl⟩
    simp [deltasOf, WsMessage.delta?]

/-- The sequence of an instrument is never given back. -/
theorem onCommittedEvent_room (U : Upstream)
    (room : ((manager.onCommittedEvent U event).2.instrument symbol).sequence < u64Max) :
    (manager.instrument symbol).sequence < u64Max := by
  by_cases named : commandSymbol event.command = some symbol
  · have same := (manager.instrument symbol).apply_sequence event.command event.outcome
    simp only [onCommittedEvent, named, fold] at room
    split at room
    next silent =>
      rw [instrument_insert_self, same] at room
      exact room
    next reported =>
      rw [instrument_insert_self, same] at room
      dsimp only at room
      split at room
      next below => exact below
      next => exact absurd room (lt_irrefl _)
  · rw [(manager.onCommittedEvent_other event U named).2] at room
    exact room

/-- Whoever sends it, an event leaves no level of an instrument at zero. -/
theorem onCommittedEvent_open (U : Upstream) (kept : (manager.instrument symbol).levels.Open) :
    ((manager.onCommittedEvent U event).2.instrument symbol).levels.Open := by
  by_cases named : commandSymbol event.command = some symbol
  · have after := (manager.instrument symbol).apply_open event.command event.outcome kept
    simp only [onCommittedEvent, named, fold]
    split
    next =>
      rw [instrument_insert_self]
      exact after
    next =>
      rw [instrument_insert_self]
      exact after
  · rw [(manager.onCommittedEvent_other event U named).2]
    exact kept

end OrderbookSubscriptionManager

namespace Feed
variable {U : Upstream} {owner : String} {symbol : Symbol} {feed later : Feed} {steps : List FeedStep}

/-- The sequence of an instrument at one moment. -/
def sequence (symbol : Symbol) (feed : Feed) : Nat := (feed.manager.instrument symbol).sequence

/-- Commands reach the actor of their contract's underlying. -/
def Routed (owner : String) (symbol : Symbol) (steps : List FeedStep) : Prop :=
  ∀ underlying event, FeedStep.commit underlying event ∈ steps → commandSymbol event.command = some symbol → underlying = owner

/-- The published deltas carry the sequences from one on, and only the instrument's own actor has some to send. -/
structure Counted (owner : String) (symbol : Symbol) (feed : Feed) : Prop where
  own : ∀ underlying, underlying ≠ owner → deltasOf symbol (feed.pending underlying) = []
  sequences : (feed.published owner symbol).map Prod.fst = List.range' 1 (feed.published owner symbol).length
  sequence : feed.sequence symbol = (feed.published owner symbol).length

/-- What is published and what is sent stays so. -/
structure Grows (owner : String) (symbol : Symbol) (feed later : Feed) : Prop where
  published : feed.published owner symbol <+: later.published owner symbol
  sent : feed.sent <+: later.sent

theorem counted_new : Counted owner symbol new := ⟨fun _ _ => rfl, rfl, rfl⟩

theorem Grows.refl (feed : Feed) : Grows owner symbol feed feed := ⟨List.prefix_rfl, List.prefix_rfl⟩

theorem Grows.trans {middle : Feed} (one : Grows owner symbol feed middle) (two : Grows owner symbol middle later) :
    Grows owner symbol feed later := ⟨one.published.trans two.published, one.sent.trans two.sent⟩

theorem run_append (feed : Feed) (early late : List FeedStep) : feed.run U (early ++ late) = (feed.run U early).run U late :=
  List.foldl_append

theorem step_room {step : FeedStep} (room : (feed.step U step).sequence symbol < u64Max) : feed.sequence symbol < u64Max := by
  cases step with
  | commit underlying event =>
    unfold Feed.step at room
    dsimp only at room
    split at room
    next => exact feed.manager.onCommittedEvent_room event U room
    next => exact room
  | send underlying => exact room

theorem run_room (room : (feed.run U steps).sequence symbol < u64Max) : feed.sequence symbol < u64Max := by
  induction steps generalizing feed with
  | nil => exact room
  | cons step rest ih => exact step_room (ih room)

/-- The actor of an instrument is the only one that changes it, and its next delta has the next sequence. -/
theorem Counted.step {step : FeedStep} (counted : Counted owner symbol feed) (routed : Routed owner symbol [step])
    (room : (feed.step U step).sequence symbol < u64Max) :
    Counted owner symbol (feed.step U step) ∧ Grows owner symbol feed (feed.step U step) := by
  have below := step_room room
  cases step with
  | send underlying =>
    obtain ⟨published, own⟩ := send_published (U := U) counted.own underlying
    refine ⟨⟨own, ?_, ?_⟩, ⟨?_, List.prefix_append _ _⟩⟩
    · rw [published]
      exact counted.sequences
    · rw [published]
      exact counted.sequence
    · rw [published]
  | commit underlying event =>
    by_cases idle : feed.pending underlying = []
    · obtain ⟨published, manager, own⟩ := fold_published (U := U) counted.own
        (routed underlying event (List.mem_singleton_self _)) idle
      have sent : (feed.step U (.commit underlying event)).sent = feed.sent := by
        unfold Feed.step
        dsimp only
        split <;> rfl
      suffices next : ∃ deltas : List Delta, deltasOf symbol (feed.manager.onCommittedEvent U event).1 = deltas ∧
          deltas.map Prod.fst = List.range' (feed.sequence symbol + 1) deltas.length ∧
          (feed.step U (.commit underlying event)).sequence symbol = feed.sequence symbol + deltas.length by
        obtain ⟨deltas, messages, sequences, sequence⟩ := next
        rw [messages] at published
        refine ⟨⟨own, ?_, ?_⟩, ⟨published ▸ List.prefix_append _ _, sent ▸ List.prefix_rfl⟩⟩
        · have place : (feed.published owner symbol).length + 1 = 1 + 1 * (feed.published owner symbol).length := by omega
          rw [published, List.map_append, counted.sequences, sequences, counted.sequence, List.length_append, place,
            List.range'_append]
        · rw [sequence, published, List.length_append, counted.sequence]
      unfold Feed.sequence
      rw [manager]
      by_cases named : commandSymbol event.command = some symbol
      · exact feed.manager.onCommittedEvent_counts event U named below
      · obtain ⟨messages, instrument⟩ := feed.manager.onCommittedEvent_other event U named
        exact ⟨[], messages, rfl, by rw [instrument]; rfl⟩
    · have busy : feed.step U (.commit underlying event) = feed := by
        unfold Feed.step
        exact if_neg fun empty => idle (List.isEmpty_iff.1 empty)
      rw [busy]
      exact ⟨counted, .refl feed⟩

theorem Routed.subset {part : List FeedStep} (routed : Routed owner symbol steps) (listed : part ⊆ steps) :
    Routed owner symbol part := fun underlying event member => routed underlying event (listed member)

theorem Counted.run (counted : Counted owner symbol feed) (routed : Routed owner symbol steps)
    (room : (feed.run U steps).sequence symbol < u64Max) :
    Counted owner symbol (feed.run U steps) ∧ Grows owner symbol feed (feed.run U steps) := by
  induction steps generalizing feed with
  | nil => exact ⟨counted, .refl feed⟩
  | cons step rest ih =>
    have first : (feed.step U step).sequence symbol < u64Max := run_room room
    obtain ⟨one, grown⟩ := counted.step (routed.subset (by simp)) first
    obtain ⟨two, later⟩ := ih one (routed.subset (List.subset_cons_self _ _)) room
    exact ⟨two, grown.trans later⟩

theorem counted_run (routed : Routed owner symbol steps) (room : (new.run U steps).sequence symbol < u64Max) :
    Counted owner symbol (new.run U steps) := (counted_new.run routed room).1

theorem earlier_room {early late : List FeedStep} (room : (new.run U (early ++ late)).sequence symbol < u64Max) :
    (new.run U early).sequence symbol < u64Max := by
  rw [run_append] at room
  exact run_room room

/-- From one moment of a run to a later one. -/
theorem counted_later {early late : List FeedStep} (routed : Routed owner symbol (early ++ late))
    (room : (new.run U (early ++ late)).sequence symbol < u64Max) :
    Counted owner symbol (new.run U early) ∧ Counted owner symbol (new.run U (early ++ late)) ∧
      Grows owner symbol (new.run U early) (new.run U (early ++ late)) := by
  have counted := counted_run (routed.subset (List.subset_append_left early late)) (earlier_room room)
  rw [run_append] at room ⊢
  exact ⟨counted, counted.run (routed.subset (List.subset_append_right early late)) room⟩

theorem Counted.sequence_le (counted : Counted owner symbol feed) (after : Counted owner symbol later)
    (grows : Grows owner symbol feed later) : feed.sequence symbol ≤ later.sequence symbol := by
  rw [counted.sequence, after.sequence]
  exact grows.published.length_le

theorem Counted.ascends (counted : Counted owner symbol feed) : Ascends Prod.fst (feed.published owner symbol) := by
  have sorted : ((feed.published owner symbol).map Prod.fst).Pairwise (· < ·) := by
    rw [counted.sequences]
    exact List.pairwise_lt_range'
  exact List.pairwise_map.1 sorted

theorem Counted.mem_le (counted : Counted owner symbol feed) {delta : Delta} (member : delta ∈ feed.published owner symbol) :
    delta.1 ≤ feed.sequence symbol := by
  have listed : delta.1 ∈ (feed.published owner symbol).map Prod.fst := List.mem_map_of_mem member
  rw [counted.sequences, List.mem_range'_1] at listed
  rw [counted.sequence]
  omega

/-- Where an actor has sent what it folded, its sequence is that of its last delta. -/
theorem Counted.sequence_le_of_sent (counted : Counted owner symbol feed) (sent : feed.pending owner = []) {baseline : Nat}
    (behind : ∀ delta ∈ deltasOf symbol feed.sent, delta.1 ≤ baseline) : feed.sequence symbol ≤ baseline := by
  have published : feed.published owner symbol = deltasOf symbol feed.sent := by
    rw [published, sent]
    exact List.append_nil _
  rcases Nat.eq_zero_or_pos (feed.sequence symbol) with none | some
  · rw [none]
    exact Nat.zero_le _
  · have listed : feed.sequence symbol ∈ (feed.published owner symbol).map Prod.fst := by
      rw [counted.sequences, ← counted.sequence, List.mem_range'_1]
      omega
    obtain ⟨delta, member, numbered⟩ := List.mem_map.1 listed
    rw [← numbered]
    exact behind delta (published ▸ member)

/-- What is published later lies past the sequence of now. -/
theorem Counted.lt_of_later (counted : Counted owner symbol feed) (after : Counted owner symbol later) {extra : List Delta}
    (published : later.published owner symbol = feed.published owner symbol ++ extra) {delta : Delta} (member : delta ∈ extra) :
    feed.sequence symbol < delta.1 := by
  have sequences := after.sequences
  rw [published, List.map_append] at sequences
  obtain ⟨count, -, first, second⟩ := List.range'_eq_append_iff.1 sequences.symm
  have length := congrArg List.length first
  rw [List.length_map, List.length_range'] at length
  have listed : delta.1 ∈ extra.map Prod.fst := List.mem_map_of_mem member
  rw [second, List.mem_range'_1] at listed
  rw [counted.sequence]
  omega

theorem run_open (kept : (feed.manager.instrument symbol).levels.Open) :
    ((feed.run U steps).manager.instrument symbol).levels.Open := by
  induction steps generalizing feed with
  | nil => exact kept
  | cons step rest ih =>
    refine ih ?_
    cases step with
    | commit underlying event =>
      unfold Feed.step
      dsimp only
      split
      next => exact feed.manager.onCommittedEvent_open event U kept
      next => exact kept
    | send underlying => exact kept

/-- From any moment on, the commands of clients and their deltas make up the same difference. -/
theorem advances_of_room {feed : Feed} {steps : List FeedStep} (steady : Steady owner symbol feed)
    (client : ClientFeed U owner symbol steps) (room : (feed.run U steps).sequence symbol < u64Max) :
    ∃ deltas, Advances owner symbol feed (feed.run U steps) deltas := by
  induction steps generalizing feed with
  | nil => exact ⟨[], .refl steady⟩
  | cons step rest ih =>
    have first : feed.sequence symbol < u64Max := run_room room
    have alone : ClientFeed U owner symbol [step] := client.subset (by simp)
    obtain ⟨early, one, -⟩ := step_advances steady alone first
    obtain ⟨late, two⟩ := ih one.steady (client.subset (List.subset_cons_self _ _)) room
    exact ⟨early ++ late, one.trans two⟩

/-- What is published past the sequence of one moment of a run is what has changed the book since. -/
theorem advances_since {moment rest : List FeedStep} (routed : Routed owner symbol (moment ++ rest))
    (room : (new.run U (moment ++ rest)).sequence symbol < u64Max) (client : ClientFeed U owner symbol rest) :
    ∃ deltas, Advances owner symbol (new.run U moment) (new.run U (moment ++ rest)) deltas ∧
      ((new.run U (moment ++ rest)).published owner symbol).filter (fun delta => (new.run U moment).sequence symbol < delta.1) =
        deltas := by
  obtain ⟨first, after, -⟩ := counted_later routed room
  have steady : Steady owner symbol (new.run U moment) := ⟨run_open Levels.open_empty, first.own⟩
  rw [run_append] at room after ⊢
  obtain ⟨deltas, advances⟩ := advances_of_room steady client room
  refine ⟨deltas, advances, ?_⟩
  rw [advances.published, List.filter_append, List.filter_eq_nil_iff.2, List.nil_append]
  · exact List.filter_eq_self.2 fun delta member => decide_eq_true (first.lt_of_later after advances.published member)
  · intro delta member
    simpa using first.mem_le member

end Feed

end Fauxchange.MarketData
