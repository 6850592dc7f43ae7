import Fauxchange.Exchange.PositionFold
import Fauxchange.Lib.MapSum

/-! A stream of events in the two stores: the fan-out takes it as one list of legs, and what the stores hold of a key
depends on the legs of that key only. -/

namespace Fauxchange.Exchange
open Lib

/-- A leg as the two stores take it. -/
structure StoreLeg where
  record : ExecutionRecord
  leg : PositionLeg

def storeLeg (event : VenueEvent) (symbol : Symbol) (underlying : String) (fill : Fill) : StoreLeg :=
  ⟨projectExecution event symbol underlying fill, StoreFanOut.positionLeg symbol underlying fill⟩

/-- The legs an event brings to the stores. -/
def storeLegs (U : Upstream) (event : VenueEvent) : List StoreLeg :=
  match commandSymbol event.command with
  | none => []
  | some symbol =>
    match underlyingOf U symbol with
    | none => []
    | some underlying =>
      (outcomeFills event.outcome).map (storeLeg event symbol underlying)

def InMemoryExecutionsStore.recordAll (store : InMemoryExecutionsStore) (records : List ExecutionRecord) :
    InMemoryExecutionsStore :=
  records.foldl record store

namespace InMemoryExecutionsStore

/-- A leg under a new key. -/
theorem record_fresh {store : InMemoryExecutionsStore} {leg : ExecutionRecord}
    (fresh : store.records[leg.key]? = none) :
    store.record leg = ⟨store.records.insert leg.key ⟨store.nextOrd, leg⟩, (store.nextOrd + 1) % 2 ^ 64⟩ := by
  unfold record
  rw [fresh]

/-- Legs under distinct new keys: what the store holds after them, each with its place. -/
theorem recordAll_fresh {store : InMemoryExecutionsStore} {legs : List ExecutionRecord}
    (distinct : (legs.map ExecutionRecord.key).Nodup) (fresh : ∀ leg ∈ legs, store.records[leg.key]? = none)
    (low : store.nextOrd < 2 ^ 64) (key : ExecutionId × Bool) (stored : StoredExecution) :
    (store.recordAll legs).records[key]? = some stored ↔
      store.records[key]? = some stored ∨
        ∃ index, legs[index]? = some stored.record ∧ stored.record.key = key ∧
          stored.ord = (store.nextOrd + index) % 2 ^ 64 := by
  induction legs generalizing store with
  | nil => simp [recordAll]
  | cons leg rest ih =>
    obtain ⟨apart, others⟩ := List.nodup_cons.1 distinct
    have new := record_fresh (fresh leg (by simp))
    have unlike : ∀ other ∈ rest, leg.key ≠ other.key := by
      intro other member same
      exact apart (same ▸ List.mem_map_of_mem member)
    have later := @ih (store.record leg) others
      (by
        intro other member
        rw [new, Std.ExtTreeMap.getElem?_insert, if_neg]
        · exact fresh other (List.mem_cons_of_mem _ member)
        · rw [pairCompare_eq_iff]
          exact unlike other member)
      (by
        rw [new]
        exact Nat.mod_lt _ (by decide))
    change ((store.record leg).recordAll rest).records[key]? = _ ↔ _
    rw [later, new]
    have shift : ∀ index, ((store.nextOrd + 1) % 2 ^ 64 + index) % 2 ^ 64 = (store.nextOrd + (index + 1)) % 2 ^ 64 := by
      intro index
      omega
    simp only [Std.ExtTreeMap.getElem?_insert, pairCompare_eq_iff, shift]
    constructor
    · rintro (here | ⟨index, listed, keyed, place⟩)
      · split at here
        next same =>
          cases here
          exact Or.inr ⟨0, rfl, same, (Nat.mod_eq_of_lt low).symm⟩
        next => exact Or.inl here
      · exact Or.inr ⟨index + 1, listed, keyed, place⟩
    · rintro (old | ⟨index, listed, keyed, place⟩)
      · left
        rw [if_neg]
        · exact old
        · rintro rfl
          rw [fresh leg (by simp)] at old
          cases old
      · cases index with
        | zero =>
          obtain rfl := Option.some.inj listed
          left
          rw [if_pos keyed]
          have same : stored.ord = store.nextOrd := place.trans (Nat.mod_eq_of_lt low)
          rw [← same]
        | succ index => exact Or.inr ⟨index, listed, keyed, place⟩

end InMemoryExecutionsStore

/-- The legs in turn, up to the first that fails. -/
def InMemoryPositionsStore.applyAll (store : InMemoryPositionsStore) :
    List PositionLeg → Except StoreError InMemoryPositionsStore
  | [] => .ok store
  | leg :: rest =>
    match store.apply leg with
    | (.ok (), next) => next.applyAll rest
    | (.error error, _) => .error error

theorem InMemoryPositionsStore.applyAll_append {store last : InMemoryPositionsStore} {early late : List PositionLeg} :
    store.applyAll (early ++ late) = .ok last ↔
      ∃ middle, store.applyAll early = .ok middle ∧ middle.applyAll late = .ok last := by
  induction early generalizing store with
  | nil => simp [applyAll]
  | cons leg rest ih =>
    simp only [List.cons_append, applyAll]
    split
    · exact ih
    · simp

namespace InMemoryPositionsStore

/-- The legs of one account in one contract. -/
def legsAt (key : AccountId × Symbol) (legs : List PositionLeg) : List PositionLeg :=
  legs.filter fun leg => (leg.account, leg.symbol) = key

/-- What a list of legs makes of one entry. -/
def foldedAt (entry : Option PositionState) : List PositionLeg → Except StoreError (Option PositionState)
  | [] => .ok entry
  | leg :: rest => ((entry.getD (.new leg.underlying)).foldAll (leg :: rest)).map some

theorem foldedAt_some (state : PositionState) (legs : List PositionLeg) :
    foldedAt (some state) legs = (state.foldAll legs).map some := by
  cases legs <;> rfl

theorem foldedAt_cons (entry : Option PositionState) (leg : PositionLeg) (rest : List PositionLeg) :
    foldedAt entry (leg :: rest) =
      match (entry.getD (.new leg.underlying)).fold leg.side leg.quantity leg.price leg.fee with
      | (.ok (), next) => foldedAt (some next) rest
      | (.error error, _) => .error error := by
  rw [foldedAt, PositionState.foldAll]
  cases (entry.getD (.new leg.underlying)).fold leg.side leg.quantity leg.price leg.fee with
  | mk result next =>
    cases result with
    | error error => rfl
    | ok => exact (foldedAt_some next rest).symm

/-- The entry of a key is the fold of the legs of that key, whatever came between them. -/
theorem applyAll_iff {store last : InMemoryPositionsStore} {legs : List PositionLeg} :
    store.applyAll legs = .ok last ↔
      ∀ key, foldedAt store.positions[key]? (legsAt key legs) = .ok last.positions[key]? := by
  induction legs generalizing store with
  | nil =>
    simp only [applyAll, legsAt, List.filter_nil, foldedAt, Except.ok.injEq]
    constructor
    · rintro rfl key
      rfl
    · intro same
      cases store
      cases last
      exact congrArg _ (Std.ExtTreeMap.ext_getElem? same)
  | cons leg rest ih =>
    have here : legsAt (leg.account, leg.symbol) (leg :: rest) = leg :: legsAt (leg.account, leg.symbol) rest := by
      simp [legsAt]
    simp only [applyAll, apply]
    cases folded : (store.positions[(leg.account, leg.symbol)]?.getD (.new leg.underlying)).fold leg.side
        leg.quantity leg.price leg.fee with
    | mk result next =>
      cases result with
      | error error =>
        constructor
        · intro done
          cases done
        · intro same
          have now := same (leg.account, leg.symbol)
          rw [here, foldedAt_cons, folded] at now
          cases now
      | ok =>
        dsimp only
        rw [ih]
        refine forall_congr' fun key => ?_
        rw [Std.ExtTreeMap.getElem?_insert]
        by_cases same : (leg.account, leg.symbol) = key
        · subst same
          rw [here, foldedAt_cons, folded, if_pos (pairCompare_eq_iff.2 rfl)]
        · have skip : legsAt key (leg :: rest) = legsAt key rest := by
            simp [legsAt, same]
          rw [skip, if_neg fun equal => same (pairCompare_eq_iff.1 equal)]

/-- Lists that bring every key the same legs come to the same. -/
theorem applyAll_congr {store : InMemoryPositionsStore} {legs others : List PositionLeg}
    (same : ∀ key, legsAt key legs = legsAt key others) (last : InMemoryPositionsStore) :
    store.applyAll legs = .ok last ↔ store.applyAll others = .ok last := by
  rw [applyAll_iff, applyAll_iff]
  simp only [same]

end InMemoryPositionsStore

namespace InMemoryExecutionsStore

/-- The legs as they stand in a store that has taken them. -/
def placed (legs : List ExecutionRecord) : List StoredExecution := legs.zipIdx.map fun entry => ⟨entry.2, entry.1⟩

theorem placed_sorted (legs : List ExecutionRecord) :
    (placed legs).Pairwise fun early late => early.ord < late.ord := by
  have indices : (legs.zipIdx.map Prod.snd).Pairwise (· < ·) := by
    rw [List.zipIdx_map_snd]
    exact List.pairwise_lt_range'
  exact List.pairwise_map.2 (List.pairwise_map.1 indices)

theorem map_record_placed (legs : List ExecutionRecord) : (placed legs).map StoredExecution.record = legs := by
  simp [placed, List.map_map, Function.comp_def]

theorem mem_placed {legs : List ExecutionRecord} {stored : StoredExecution} :
    stored ∈ placed legs ↔ legs[stored.ord]? = some stored.record := by
  unfold placed
  constructor
  · intro member
    obtain ⟨entry, listed, rfl⟩ := List.mem_map.1 member
    exact List.mem_zipIdx_iff_getElem?.1 listed
  · intro here
    exact List.mem_map.2 ⟨(stored.record, stored.ord), List.mem_zipIdx_iff_getElem?.2 here, rfl⟩

section Fresh
variable {legs : List ExecutionRecord} (distinct : (legs.map ExecutionRecord.key).Nodup) (room : legs.length < 2 ^ 64)

include distinct in
theorem new_recordAll (key : ExecutionId × Bool) (stored : StoredExecution) :
    (new.recordAll legs).records[key]? = some stored ↔
      ∃ index, legs[index]? = some stored.record ∧ stored.record.key = key ∧ stored.ord = index % 2 ^ 64 := by
  have whole := @recordAll_fresh new legs distinct (by simp [new]) (by decide) key stored
  simpa [new] using whole

include distinct in
theorem key_of_stored {entry : (ExecutionId × Bool) × StoredExecution}
    (member : entry ∈ (new.recordAll legs).records.toList) : entry.1 = entry.2.record.key := by
  obtain ⟨key, stored⟩ := entry
  rw [Std.ExtTreeMap.mem_toList_iff_getElem?_eq_some] at member
  obtain ⟨index, -, keyed, -⟩ := (new_recordAll distinct key stored).1 member
  exact keyed.symm

include distinct in
/-- However many they are, the store holds the legs and nothing else. -/
theorem stored_records_perm : ((new.recordAll legs).stored.map StoredExecution.record).Perm legs := by
  have apart : ((new.recordAll legs).stored.map StoredExecution.record).Nodup := by
    unfold stored
    rw [List.map_map]
    refine List.Nodup.map_on ?_ (nodup_toList _)
    intro entry first other second same
    have keys : entry.1 = other.1 := by
      rw [key_of_stored distinct first, key_of_stored distinct second]
      exact congrArg ExecutionRecord.key same
    obtain ⟨key, value⟩ := entry
    obtain ⟨_, last⟩ := other
    obtain rfl : key = _ := keys
    rw [Std.ExtTreeMap.mem_toList_iff_getElem?_eq_some] at first second
    rw [Option.some.inj (first.symm.trans second)]
  refine (List.perm_ext_iff_of_nodup apart distinct.of_map).2 fun leg => ?_
  rw [List.mem_map]
  constructor
  · rintro ⟨value, member, rfl⟩
    obtain ⟨⟨key, _⟩, listed, rfl⟩ := List.mem_map.1 member
    rw [Std.ExtTreeMap.mem_toList_iff_getElem?_eq_some] at listed
    obtain ⟨index, here, -⟩ := (new_recordAll distinct key _).1 listed
    exact List.mem_of_getElem? here
  · intro member
    obtain ⟨index, here⟩ := List.getElem?_of_mem member
    have held := (new_recordAll distinct leg.key ⟨index % 2 ^ 64, leg⟩).2 ⟨index, here, rfl, rfl⟩
    exact ⟨_, List.mem_map.2 ⟨_, Std.ExtTreeMap.mem_toList_iff_getElem?_eq_some.2 held, rfl⟩, rfl⟩

include distinct in
/-- The listing of an account shows its legs, in some order. -/
theorem list_recordAll_perm (account : AccountId) :
    ((new.recordAll legs).list account ⟨none, none⟩).Perm (legs.filter fun leg => leg.account = account) := by
  have sorted := (sortByKey_perm StoredExecution.ord ((new.recordAll legs).stored.filter fun stored =>
    stored.record.account = account ∧ (none : Option String).all (stored.record.symbol = ·))).map StoredExecution.record
  refine sorted.trans ?_
  have read := (stored_records_perm distinct).filter fun leg => leg.account = account
  rw [List.filter_map] at read
  simpa [Function.comp_def] using read

include distinct room in
theorem stored_recordAll : (new.recordAll legs).stored.Perm (placed legs) := by
  have apart : (new.recordAll legs).stored.Nodup := by
    refine List.Nodup.map_on ?_ (nodup_toList _)
    intro entry first other second same
    refine Prod.ext ?_ same
    rw [key_of_stored distinct first, key_of_stored distinct second, same]
  have spread : (placed legs).Nodup := by
    refine List.nodup_iff_pairwise_ne.2 ((placed_sorted legs).imp fun below same => ?_)
    rw [same] at below
    exact Nat.lt_irrefl _ below
  refine (List.perm_ext_iff_of_nodup apart spread).2 fun stored => ?_
  rw [mem_placed]
  constructor
  · intro member
    obtain ⟨⟨key, value⟩, listed, rfl⟩ := List.mem_map.1 member
    rw [Std.ExtTreeMap.mem_toList_iff_getElem?_eq_some] at listed
    obtain ⟨index, here, -, place⟩ := (new_recordAll distinct key value).1 listed
    have low := (List.getElem?_eq_some_iff.1 here).1
    rw [place, Nat.mod_eq_of_lt (low.trans room)]
    exact here
  · intro here
    have low := (List.getElem?_eq_some_iff.1 here).1
    refine List.mem_map.2 ⟨(stored.record.key, stored), ?_, rfl⟩
    rw [Std.ExtTreeMap.mem_toList_iff_getElem?_eq_some]
    exact (new_recordAll distinct _ stored).2 ⟨stored.ord, here, rfl, (Nat.mod_eq_of_lt (low.trans room)).symm⟩

include distinct room in
/-- A listing shows the legs in the order in which they came. -/
theorem list_recordAll (account : AccountId) (query : ExecutionFilter) :
    (new.recordAll legs).list account query =
      let listed := legs.filter fun leg => leg.account = account ∧ query.underlying.all (leg.symbol = ·)
      match query.limit with
      | some limit => listed.take limit
      | none => listed := by
  have sorted : ((placed legs).filter fun stored =>
      stored.record.account = account ∧ query.underlying.all (stored.record.symbol = ·)).Pairwise
        fun early late => early.ord < late.ord := (placed_sorted legs).filter _
  have same : sortByKey StoredExecution.ord ((new.recordAll legs).stored.filter fun stored =>
      stored.record.account = account ∧ query.underlying.all (stored.record.symbol = ·)) =
        (placed legs).filter fun stored =>
          stored.record.account = account ∧ query.underlying.all (stored.record.symbol = ·) := by
    rw [← sortByKey_of_sorted (sorted.imp Nat.le_of_lt)]
    refine sortByKey_eq_of_perm _ ((stored_recordAll distinct room).filter _) ?_
    intro stored first other second ords
    have here := mem_placed.1 ((stored_recordAll distinct room).subset (List.mem_filter.1 first).1)
    have there := mem_placed.1 ((stored_recordAll distinct room).subset (List.mem_filter.1 second).1)
    rw [ords, there] at here
    cases stored
    cases other
    simp_all
  have read : (legs.filter fun leg => leg.account = account ∧ query.underlying.all (leg.symbol = ·)) =
      ((placed legs).filter fun stored => stored.record.account = account ∧
        query.underlying.all (stored.record.symbol = ·)).map StoredExecution.record := by
    conv_lhs => rw [← map_record_placed legs]
    rw [List.filter_map]
    rfl
  unfold list
  dsimp only
  cases query.limit with
  | none => rw [read, ← same]
  | some limit => rw [read, ← same]

end Fresh

end InMemoryExecutionsStore

namespace StoreFanOut
variable {U : Upstream} {fanOut last : StoreFanOut U}

/-- The events in turn, up to the first that seals. -/
def emitAll (fanOut : StoreFanOut U) : List VenueEvent → Except FanOutSealed (StoreFanOut U)
  | [] => .ok fanOut
  | event :: rest =>
    match fanOut.emit event with
    | (.ok (), next) => next.emitAll rest
    | (.error error, _) => .error error

/-- The stores with a list of legs in them. -/
def Takes (fanOut : StoreFanOut U) (legs : List StoreLeg) (last : StoreFanOut U) : Prop :=
  ∃ positions, fanOut.positions.applyAll (legs.map StoreLeg.leg) = .ok positions ∧
    last = { fanOut with
      executions := fanOut.executions.recordAll (legs.map StoreLeg.record), positions := positions }

theorem takes_nil : fanOut.Takes [] last ↔ fanOut = last := by
  constructor
  · rintro ⟨positions, same, rfl⟩
    cases same
    rfl
  · rintro rfl
    exact ⟨_, rfl, rfl⟩

theorem takes_append {early late : List StoreLeg} :
    fanOut.Takes (early ++ late) last ↔ ∃ middle, fanOut.Takes early middle ∧ middle.Takes late last := by
  unfold Takes
  simp only [List.map_append, InMemoryPositionsStore.applyAll_append, InMemoryExecutionsStore.recordAll,
    List.foldl_append]
  constructor
  · rintro ⟨positions, ⟨half, first, second⟩, rfl⟩
    exact ⟨_, ⟨half, first, rfl⟩, positions, second, rfl⟩
  · rintro ⟨_, ⟨half, first, rfl⟩, positions, second, rfl⟩
    exact ⟨positions, ⟨half, first, second⟩, rfl⟩

theorem projectLegs_ok (event : VenueEvent) (symbol : Symbol) (underlying : String) (fills : List Fill) :
    projectLegs event symbol underlying fanOut fills = (.ok (), last) ↔
      fanOut.Takes (fills.map (storeLeg event symbol underlying)) last := by
  induction fills generalizing fanOut with
  | nil =>
    rw [List.map_nil, takes_nil, projectLegs, Prod.mk.injEq]
    simp
  | cons fill rest ih =>
    simp only [projectLegs, Takes, List.map_cons, InMemoryPositionsStore.applyAll,
      InMemoryExecutionsStore.recordAll, List.foldl_cons]
    rw [show (storeLeg event symbol underlying fill).leg = positionLeg symbol underlying fill from rfl]
    generalize fanOut.positions.apply (positionLeg symbol underlying fill) = applied
    obtain ⟨result, positions⟩ := applied
    cases result with
    | error error => simp
    | ok =>
      dsimp only
      rw [ih]
      rfl

theorem emit_ok (event : VenueEvent) (unsealed : fanOut.sealed = false) :
    fanOut.emit event = (.ok (), last) ↔ fanOut.Takes (storeLegs U event) last := by
  have idle : (.ok (), fanOut) = ((.ok (), last) : Except FanOutSealed Unit × StoreFanOut U) ↔
      fanOut.Takes [] last := by
    rw [takes_nil, Prod.mk.injEq]
    simp
  unfold emit storeLegs
  rw [unsealed, if_neg (by decide)]
  cases commandSymbol event.command with
  | none => exact idle
  | some symbol =>
    dsimp only
    cases underlyingOf U symbol with
    | none =>
      split
      · exact idle
      · exact idle
    | some underlying =>
      split
      next empty =>
        rw [List.isEmpty_iff.1 empty]
        exact idle
      next => exact projectLegs_ok event symbol underlying _

theorem Takes.sealed {legs : List StoreLeg} (takes : fanOut.Takes legs last) : last.sealed = fanOut.sealed := by
  obtain ⟨positions, -, rfl⟩ := takes
  rfl

/-- A fan-out that never seals has taken all the legs of its events. -/
theorem emitAll_ok (events : List VenueEvent) (unsealed : fanOut.sealed = false) :
    fanOut.emitAll events = .ok last ↔ fanOut.Takes (events.flatMap (storeLegs U)) last := by
  induction events generalizing fanOut with
  | nil =>
    rw [List.flatMap_nil, takes_nil, emitAll]
    exact ⟨Except.ok.inj, congrArg _⟩
  | cons event rest ih =>
    rw [List.flatMap_cons, takes_append]
    simp only [emitAll]
    constructor
    · intro emitted
      split at emitted
      next next done =>
        have taken := (emit_ok event unsealed).1 done
        exact ⟨next, taken, (ih (taken.sealed.trans unsealed)).1 emitted⟩
      next => cases emitted
    · rintro ⟨next, taken, later⟩
      rw [(emit_ok event unsealed).2 taken]
      exact (ih (taken.sealed.trans unsealed)).2 later

end StoreFanOut

end Fauxchange.Exchange
