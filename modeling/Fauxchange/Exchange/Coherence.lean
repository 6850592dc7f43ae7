import Fauxchange.Exchange.NeutralBook
import Fauxchange.Exchange.RegistryStep

/-! The registry and the books in step: every registered order rests in the leaf of its symbol, and every
resting order is registered. Every command keeps this on a neutral book. -/

namespace Fauxchange.Exchange
open Lib UnderlyingOrderBook

namespace Shaped
variable {bound later quantity : Nat} {orders kept : List BookOrder} {matched : MatchResult}

theorem mono (shaped : Shaped bound orders) (above : bound ≤ later) : Shaped later orders :=
  { shaped with below := fun order member => Nat.lt_of_lt_of_le (shaped.below order member) above }

/-- A match leaves the orders in shape. -/
theorem of_matches (shaped : Shaped bound orders) (matching : Matches orders quantity matched kept) : Shaped bound kept where
  sorted := List.pairwise_map.1 ((List.pairwise_map.2 shaped.sorted).sublist matching.place)
  below := by
    intro order member
    obtain ⟨-, old, listed, -, same⟩ := matching.origin order member
    rw [same]
    exact shaped.below old listed
  open' := by
    intro order member
    obtain ⟨positive, old, listed, smaller, -⟩ := matching.origin order member
    exact ⟨positive, smaller.trans (shaped.open' old listed).2⟩
  priced := by
    intro order member
    obtain ⟨-, old, listed, -, same⟩ := matching.origin order member
    rw [same]
    exact shaped.priced old listed
  rests := by
    intro order member
    obtain ⟨-, old, listed, -, same⟩ := matching.origin order member
    rw [same]
    exact shaped.rests old listed
  uncrossed := by
    intro left first right second
    obtain ⟨-, old, listed, -, same⟩ := matching.origin left first
    obtain ⟨-, other, present, -, equal⟩ := matching.origin right second
    rw [same, equal]
    exact shaped.uncrossed old listed other present

/-- An order that crosses nothing joins at the end. -/
theorem append (shaped : Shaped bound orders) {order : BookOrder} (above : bound ≤ order.id)
    (left : 0 < order.visibleQuantity ∧ order.visibleQuantity ≤ u64Max) (priced : order.price ≤ u64Max)
    (rests : tifRests order.timeInForce = true) (clear : ∀ old ∈ orders, ¬ Crosses order old) :
    Shaped (order.id + 1) (orders ++ [order]) where
  sorted := by
    refine List.pairwise_append.2 ⟨shaped.sorted, List.pairwise_singleton _ _, ?_⟩
    intro old member new same
    obtain rfl := List.mem_singleton.1 same
    have low := shaped.below old member
    omega
  below := by
    intro other member
    rcases List.mem_append.1 member with old | new
    · have low := shaped.below other old
      omega
    · obtain rfl := List.mem_singleton.1 new
      omega
  open' := by
    intro other member
    rcases List.mem_append.1 member with old | new
    · exact shaped.open' other old
    · exact List.mem_singleton.1 new ▸ left
  priced := by
    intro other member
    rcases List.mem_append.1 member with old | new
    · exact shaped.priced other old
    · exact List.mem_singleton.1 new ▸ priced
  rests := by
    intro other member
    rcases List.mem_append.1 member with old | new
    · exact shaped.rests other old
    · exact List.mem_singleton.1 new ▸ rests
  uncrossed := by
    have alone : ¬ Crosses order order := by
      rintro (⟨bid, offer, -⟩ | ⟨offer, bid, -⟩) <;> rw [bid] at offer <;> cases offer
    intro first one second two
    rcases List.mem_append.1 one with old | new <;> rcases List.mem_append.1 two with old' | new'
    · exact shaped.uncrossed first old second old'
    · obtain rfl := List.mem_singleton.1 new'
      exact fun crosses => clear first old crosses.symm
    · obtain rfl := List.mem_singleton.1 new
      exact clear second old'
    · obtain rfl := List.mem_singleton.1 new
      obtain rfl := List.mem_singleton.1 new'
      exact alone

/-- Taking some orders away, as a match without trades. -/
theorem matches_filter (shaped : Shaped bound orders) (ids : List Nat)
    (listed : ∀ id ∈ ids, id ∈ orders.map BookOrder.id) :
    Matches orders 0 ⟨[], ids⟩ (orders.filter fun order => order.id ∉ ids) where
  place := List.filter_sublist.map _
  origin := by
    intro order member
    have old := (List.mem_filter.1 member).1
    exact ⟨(shaped.open' order old).1, order, old, Nat.le_refl _, rfl⟩
  consumed := by
    intro order member
    constructor
    · intro taken kept
      obtain ⟨other, left, same⟩ := List.mem_map.1 kept
      have untaken := of_decide_eq_true (List.mem_filter.1 left).2
      rw [same] at untaken
      exact untaken taken
    · intro absent
      by_contra untaken
      exact absent (List.mem_map.2 ⟨order, List.mem_filter.2 ⟨member, by simpa using untaken⟩, rfl⟩)
  filled := listed
  total := Nat.le_refl _
  few := Nat.zero_le _
  priced := by simp

end Shaped

theorem shaped_nil (bound : Nat) : Shaped bound [] :=
  ⟨List.Pairwise.nil, by simp, by simp, by simp, by simp, by simp⟩

/-- The orders that the leaf at an address shows. -/
def BookLaws.ordersAt {U : Upstream} (laws : BookLaws U) (book : UnderlyingOrderBook U) (address : LeafAddress) :
    List BookOrder :=
  (laws.view (book.leafAt address)).orders

section Coherence
variable {U : Upstream} {laws : BookLaws U} {state : SequencedState U} {bound later : Nat} {address : LeafAddress}
  {leaf : U.Leaf} {registry : OrderRegistry}

/-- The registry and the books in step, all engine ids below a bound. -/
structure Coherent (laws : BookLaws U) (state : SequencedState U) (bound : Nat) : Prop where
  neutral : Neutral state.underlyingBook.config
  plain : ∀ address, Plain laws state.underlyingBook.config (state.underlyingBook.leafAt address)
  shaped : ∀ address, Shaped bound (laws.ordersAt state.underlyingBook address)
  registered : ∀ (engineId : Nat) (record : RestingRecord), state.registry.resting[engineId]? = some record →
    ∃ address, addressOf? U state.underlyingBook.underlying record.symbol = some address ∧
      (state.underlyingBook.leaf? address).isSome ∧
        engineId ∈ (laws.ordersAt state.underlyingBook address).map BookOrder.id
  known : ∀ address, ∀ order ∈ laws.ordersAt state.underlyingBook address, ∃ record,
    state.registry.resting[order.id]? = some record ∧
      addressOf? U state.underlyingBook.underlying record.symbol = some address ∧
        record.side = order.side ∧ record.owner = order.owner

theorem coherent_fromBook {underlying : String} {config : BookConfig} (neutral : Neutral config) (bound : Nat) :
    Coherent laws (.fromBook ⟨underlying, config, ∅⟩) bound where
  neutral := neutral
  plain := by
    intro address
    simp [SequencedState.fromBook, leafAt, leaf?]
    exact ⟨by rw [laws.view_new], by rw [laws.view_new]⟩
  shaped := by
    intro address
    simp [SequencedState.fromBook, BookLaws.ordersAt, leafAt, leaf?, laws.view_new, shaped_nil]
  registered := by simp [SequencedState.fromBook, OrderRegistry.new]
  known := by simp [SequencedState.fromBook, BookLaws.ordersAt, leafAt, leaf?, laws.view_new]

namespace Coherent

theorem mono (coherent : Coherent laws state bound) (above : bound ≤ later) : Coherent laws state later :=
  { coherent with shaped := fun address => (coherent.shaped address).mono above }

theorem below (coherent : Coherent laws state bound) {engineId : Nat} {record : RestingRecord}
    (present : state.registry.resting[engineId]? = some record) : engineId < bound := by
  obtain ⟨address, -, -, listed⟩ := coherent.registered engineId record present
  obtain ⟨order, member, rfl⟩ := List.mem_map.1 listed
  exact (coherent.shaped address).below order member

/-- An engine id rests at one address only. -/
theorem address_unique (coherent : Coherent laws state bound) {other : LeafAddress} {id : Nat}
    (here : id ∈ (laws.ordersAt state.underlyingBook address).map BookOrder.id)
    (there : id ∈ (laws.ordersAt state.underlyingBook other).map BookOrder.id) : address = other := by
  obtain ⟨order, member, rfl⟩ := List.mem_map.1 here
  obtain ⟨second, present, same⟩ := List.mem_map.1 there
  obtain ⟨record, registered, at', -⟩ := coherent.known address order member
  obtain ⟨again, found, at'', -⟩ := coherent.known other second present
  rw [same, registered] at found
  obtain rfl := Option.some.inj found
  exact Option.some.inj (at'.symm.trans at'')

/-- Vivification changes no order. -/
theorem vivify (coherent : Coherent laws state bound) (address : LeafAddress) :
    Coherent laws { state with underlyingBook := state.underlyingBook.vivify address } bound where
  neutral := coherent.neutral
  plain := by
    intro other
    rw [leafAt_vivify]
    exact coherent.plain other
  shaped := by
    intro other
    simp only [BookLaws.ordersAt, leafAt_vivify]
    exact coherent.shaped other
  registered := by
    intro engineId record present
    obtain ⟨place, lives, exists', listed⟩ := coherent.registered engineId record present
    refine ⟨place, lives, isSome_leaf?_vivify _ _ _ exists', ?_⟩
    simpa only [BookLaws.ordersAt, leafAt_vivify] using listed
  known := by
    intro other
    simp only [BookLaws.ordersAt, leafAt_vivify]
    exact coherent.known other

/-- A leaf and the registry are written back: what changes must be in step at that address and leave the orders
of the others registered. -/
theorem commit (coherent : Coherent laws state bound) (above : bound ≤ later)
    (present : (state.underlyingBook.leaf? address).isSome)
    (plain : Plain laws state.underlyingBook.config leaf) (shaped : Shaped later (laws.view leaf).orders)
    (kept : ∀ (engineId : Nat) (record : RestingRecord), registry.resting[engineId]? = some record →
      addressOf? U state.underlyingBook.underlying record.symbol = some address ∧
          engineId ∈ (laws.view leaf).orders.map BookOrder.id ∨
        state.registry.resting[engineId]? = some record ∧
          addressOf? U state.underlyingBook.underlying record.symbol ≠ some address)
    (here : ∀ order ∈ (laws.view leaf).orders, ∃ record, registry.resting[order.id]? = some record ∧
      addressOf? U state.underlyingBook.underlying record.symbol = some address ∧
        record.side = order.side ∧ record.owner = order.owner)
    (others : ∀ other ≠ address, ∀ order ∈ laws.ordersAt state.underlyingBook other,
      registry.resting[order.id]? = state.registry.resting[order.id]?) :
    Coherent laws (state.commitLeaf address registry leaf) later where
  neutral := coherent.neutral
  plain := by
    intro other
    by_cases same : other = address
    · subst same
      simp only [SequencedState.commitLeaf, leafAt_setLeaf_self _ _ present]
      exact plain
    · simp only [SequencedState.commitLeaf, leafAt_setLeaf_of_ne _ _ same]
      exact coherent.plain other
  shaped := by
    intro other
    by_cases same : other = address
    · subst same
      simp only [SequencedState.commitLeaf, BookLaws.ordersAt, leafAt_setLeaf_self _ _ present]
      exact shaped
    · simp only [SequencedState.commitLeaf, BookLaws.ordersAt, leafAt_setLeaf_of_ne _ _ same]
      exact (coherent.shaped other).mono above
  registered := by
    intro engineId record registered
    rcases kept engineId record registered with ⟨lives, listed⟩ | ⟨old, elsewhere⟩
    · refine ⟨address, lives, isSome_leaf?_setLeaf _ _ _ _ present, ?_⟩
      simp only [SequencedState.commitLeaf, BookLaws.ordersAt, leafAt_setLeaf_self _ _ present]
      exact listed
    · obtain ⟨other, lives, exists', listed⟩ := coherent.registered engineId record old
      have apart : other ≠ address := by
        rintro rfl
        exact elsewhere lives
      refine ⟨other, lives, isSome_leaf?_setLeaf _ _ _ _ exists', ?_⟩
      simp only [SequencedState.commitLeaf, BookLaws.ordersAt, leafAt_setLeaf_of_ne _ _ apart]
      exact listed
  known := by
    intro other
    by_cases same : other = address
    · subst same
      simp only [SequencedState.commitLeaf, BookLaws.ordersAt, leafAt_setLeaf_self _ _ present]
      exact here
    · simp only [SequencedState.commitLeaf, BookLaws.ordersAt, leafAt_setLeaf_of_ne _ _ same]
      intro order member
      rw [others other same order member]
      exact coherent.known other order member

section Matched
variable {quantity : Nat} {matched : MatchResult} {kept : List BookOrder}

/-- After a match an order that stays registered is one that is left, or rests elsewhere. -/
theorem kept_of_removed (coherent : Coherent laws state bound)
    (matching : Matches (laws.ordersAt state.underlyingBook address) quantity matched kept) {engineId : Nat}
    {record : RestingRecord}
    (present : (state.registry.removeAll matched.filledOrderIds).resting[engineId]? = some record) :
    addressOf? U state.underlyingBook.underlying record.symbol = some address ∧
        engineId ∈ kept.map BookOrder.id ∨
      state.registry.resting[engineId]? = some record ∧
        addressOf? U state.underlyingBook.underlying record.symbol ≠ some address := by
  rw [OrderRegistry.removeAll_getElem?] at present
  split at present
  · cases present
  next unfilled =>
    obtain ⟨place, lives, -, listed⟩ := coherent.registered engineId record present
    by_cases same : place = address
    · subst same
      obtain ⟨order, member, rfl⟩ := List.mem_map.1 listed
      refine Or.inl ⟨lives, ?_⟩
      by_contra gone
      exact unfilled ((matching.consumed order member).2 gone)
    · refine Or.inr ⟨present, ?_⟩
      rw [lives]
      simpa using same

theorem known_of_kept (coherent : Coherent laws state bound)
    (matching : Matches (laws.ordersAt state.underlyingBook address) quantity matched kept) {order : BookOrder}
    (member : order ∈ kept) :
    ∃ record, (state.registry.removeAll matched.filledOrderIds).resting[order.id]? = some record ∧
      addressOf? U state.underlyingBook.underlying record.symbol = some address ∧
        record.side = order.side ∧ record.owner = order.owner := by
  obtain ⟨-, old, listed, -, same⟩ := matching.origin order member
  obtain ⟨record, present, lives, side, owner⟩ := coherent.known address old listed
  have id : order.id = old.id := by rw [same]
  refine ⟨record, ?_, lives, ?_, ?_⟩
  · rw [OrderRegistry.removeAll_getElem?, if_neg, id, present]
    rw [id, matching.consumed old listed]
    intro gone
    exact gone (id ▸ List.mem_map_of_mem member)
  · rw [same]
    exact side
  · rw [same]
    exact owner

theorem others_of_removed (coherent : Coherent laws state bound)
    (matching : Matches (laws.ordersAt state.underlyingBook address) quantity matched kept) {other : LeafAddress}
    (apart : other ≠ address) {order : BookOrder} (member : order ∈ laws.ordersAt state.underlyingBook other) :
    (state.registry.removeAll matched.filledOrderIds).resting[order.id]? = state.registry.resting[order.id]? := by
  rw [OrderRegistry.removeAll_getElem?, if_neg]
  intro filled
  exact apart (coherent.address_unique (List.mem_map_of_mem member) (matching.filled _ filled))

/-- A match at one address, its makers pruned. -/
theorem of_match (coherent : Coherent laws state bound) (above : bound ≤ later)
    (present : (state.underlyingBook.leaf? address).isSome) (plain : Plain laws state.underlyingBook.config leaf)
    (matching : Matches (laws.ordersAt state.underlyingBook address) quantity matched kept)
    (orders : (laws.view leaf).orders = kept) :
    Coherent laws (state.commitLeaf address (state.registry.removeAll matched.filledOrderIds) leaf) later := by
  refine coherent.commit above present plain ?_ ?_ ?_ ?_
  · rw [orders]
    exact ((coherent.shaped address).of_matches matching).mono above
  · intro engineId record registered
    rw [orders]
    exact coherent.kept_of_removed matching registered
  · intro order member
    rw [orders] at member
    exact coherent.known_of_kept matching member
  · intro other apart order member
    exact coherent.others_of_removed matching apart member

/-- A match at one address, and what is left of the taker registered under a fresh engine id. -/
theorem of_rest (coherent : Coherent laws state bound) {rest : BookOrder} {record : RestingRecord}
    (fresh : bound ≤ rest.id) (present : (state.underlyingBook.leaf? address).isSome)
    (plain : Plain laws state.underlyingBook.config leaf)
    (matching : Matches (laws.ordersAt state.underlyingBook address) quantity matched kept)
    (orders : (laws.view leaf).orders = kept ++ [rest]) (left : 0 < rest.visibleQuantity ∧ rest.visibleQuantity ≤ u64Max)
    (priced : rest.price ≤ u64Max) (rests : tifRests rest.timeInForce = true)
    (clear : ∀ old ∈ kept, ¬ Crosses rest old)
    (lives : addressOf? U state.underlyingBook.underlying record.symbol = some address)
    (side : record.side = rest.side) (owner : record.owner = rest.owner) :
    Coherent laws (state.commitLeaf address
      ((state.registry.removeAll matched.filledOrderIds).registerResting rest.id record) leaf) (rest.id + 1) := by
  have shaped := ((coherent.shaped address).of_matches matching).append fresh left priced rests clear
  have unlike : ∀ place, ∀ order ∈ laws.ordersAt state.underlyingBook place, rest.id ≠ order.id := by
    intro place order member same
    have low := (coherent.shaped place).below order member
    omega
  refine coherent.commit (by omega) present plain (orders ▸ shaped) ?_ ?_ ?_
  · intro engineId found registered
    rw [orders]
    simp only [OrderRegistry.registerResting, Std.ExtTreeMap.getElem?_insert, Std.LawfulEqCmp.compare_eq_iff_eq]
      at registered
    split at registered
    next same =>
      obtain rfl := Option.some.inj registered
      exact Or.inl ⟨lives, by simp [same]⟩
    next =>
      rcases coherent.kept_of_removed matching registered with ⟨here, listed⟩ | elsewhere
      · refine Or.inl ⟨here, ?_⟩
        rw [List.map_append]
        exact List.mem_append_left _ listed
      · exact Or.inr elsewhere
  · intro order member
    rw [orders] at member
    simp only [OrderRegistry.registerResting, Std.ExtTreeMap.getElem?_insert, Std.LawfulEqCmp.compare_eq_iff_eq]
    rcases List.mem_append.1 member with old | new
    · obtain ⟨-, origin, listed, -, same⟩ := matching.origin order old
      have id : order.id = origin.id := by rw [same]
      rw [if_neg (id ▸ unlike address origin listed)]
      exact coherent.known_of_kept matching old
    · obtain rfl := List.mem_singleton.1 new
      exact ⟨record, by simp, lives, side, owner⟩
  · intro other apart order member
    simp only [OrderRegistry.registerResting, Std.ExtTreeMap.getElem?_insert, Std.LawfulEqCmp.compare_eq_iff_eq]
    rw [if_neg (unlike other order member)]
    exact coherent.others_of_removed matching apart member

end Matched

end Coherent

end Coherence

end Fauxchange.Exchange
