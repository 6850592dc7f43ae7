import Fauxchange.Exchange.LeafLaws
import Fauxchange.Exchange.RegistryStep

/-! The books and the registry as one view, and the moves that commands make in it: an order is dropped, a match takes
its makers, an order comes to rest. The registry stays in step with the books under each of them. -/

namespace Fauxchange.Exchange
open Lib UnderlyingOrderBook

/-- The resting orders of every leaf, and the registry. -/
structure BookView where
  orders : LeafAddress → List BookOrder
  registry : OrderRegistry

/-- One leaf and the registry are written. -/
def BookView.set (view : BookView) (address : LeafAddress) (orders : List BookOrder) (registry : OrderRegistry) :
    BookView :=
  ⟨Function.update view.orders address orders, registry⟩

inductive Move where
  | dropped (address : LeafAddress) (engineId : Nat) (record : RestingRecord)
  | matched (address : LeafAddress) (owner : Hash32) (result : MatchResult) (removed : List Nat)
  | rested (address : LeafAddress) (order : BookOrder) (record : RestingRecord)

def Move.address : Move → LeafAddress
  | .dropped address .. | .matched address .. | .rested address .. => address

/-- What a move does. A contract lives at one address. -/
inductive Took (home : Symbol → Option LeafAddress) : BookView → Move → BookView → Prop where
  | dropped {view : BookView} {address : LeafAddress} {engineId : Nat} {record : RestingRecord}
      (rests : engineId ∈ idsOf (view.orders address)) (registered : view.registry.resting[engineId]? = some record)
      (lives : home record.symbol = some address) :
      Took home view (.dropped address engineId record)
        (view.set address ((view.orders address).filter fun order => order.id ≠ engineId)
          (view.registry.removeResting engineId))
  | matched {view : BookView} {address : LeafAddress} {owner : Hash32} {active : Bool} {result : MatchResult}
      {kept : List BookOrder} {removed : List Nat} (consumes : Consumes (view.orders address) owner active result kept)
      (gone : ∀ id, id ∈ removed ↔ id ∈ idsOf (view.orders address) ∧ id ∉ idsOf kept) :
      Took home view (.matched address owner result removed)
        (view.set address kept (view.registry.removeAll removed))
  | rested {view : BookView} {address : LeafAddress} {order : BookOrder} {record : RestingRecord}
      (fresh : view.registry.resting[order.id]? = none) (left : 0 < order.visibleQuantity)
      (lives : home record.symbol = some address) (side : record.side = order.side) (owner : record.owner = order.owner) :
      Took home view (.rested address order record)
        (view.set address (view.orders address ++ [order]) (view.registry.registerResting order.id record))

/-- Moves in turn. -/
inductive Moves (home : Symbol → Option LeafAddress) : BookView → List Move → BookView → Prop where
  | none (view : BookView) : Moves home view [] view
  | next {view middle after : BookView} {move : Move} {moves : List Move} (first : Took home view move middle)
      (rest : Moves home middle moves after) : Moves home view (move :: moves) after

theorem Moves.append {home : Symbol → Option LeafAddress} {view middle after : BookView} {early late : List Move}
    (first : Moves home view early middle) (second : Moves home middle late after) :
    Moves home view (early ++ late) after := by
  induction first with
  | none => exact second
  | next took _ ih => exact .next took (ih second)

/-- Every registered order rests in the leaf of its symbol, and every resting order is registered with its side and
owner. -/
structure InStep (home : Symbol → Option LeafAddress) (view : BookView) : Prop where
  standing : ∀ address, Standing (view.orders address)
  registered : ∀ (engineId : Nat) (record : RestingRecord), view.registry.resting[engineId]? = some record →
    ∃ address, home record.symbol = some address ∧ engineId ∈ idsOf (view.orders address)
  known : ∀ address, ∀ order ∈ view.orders address, ∃ record, view.registry.resting[order.id]? = some record ∧
    home record.symbol = some address ∧ record.side = order.side ∧ record.owner = order.owner

theorem mem_idsOf {orders : List BookOrder} {id : Nat} : id ∈ idsOf orders ↔ ∃ order ∈ orders, order.id = id :=
  List.mem_map

theorem mem_idsOf_filter_ne {orders : List BookOrder} {id other : Nat} :
    id ∈ idsOf (orders.filter fun order => order.id ≠ other) ↔ id ∈ idsOf orders ∧ id ≠ other := by
  simp only [mem_idsOf, List.mem_filter, decide_eq_true_eq]
  constructor
  · rintro ⟨order, ⟨member, kept⟩, rfl⟩
    exact ⟨⟨order, member, rfl⟩, kept⟩
  · rintro ⟨⟨order, member, rfl⟩, kept⟩
    exact ⟨order, ⟨member, kept⟩, rfl⟩

theorem Standing.filter {orders : List BookOrder} (standing : Standing orders) (holds : BookOrder → Bool) :
    Standing (orders.filter holds) where
  distinct := standing.distinct.sublist (List.filter_sublist.map _)
  open' := fun order member => standing.open' order (List.mem_filter.1 member).1

theorem Consumes.standing {before kept : List BookOrder} {owner : Hash32} {active : Bool} {result : MatchResult}
    (consumes : Consumes before owner active result kept) (standing : Standing before) : Standing kept where
  distinct := standing.distinct.sublist consumes.place
  open' := fun order member => (consumes.left order member).1

theorem Standing.append {orders : List BookOrder} (standing : Standing orders) {order : BookOrder}
    (fresh : order.id ∉ idsOf orders) (left : 0 < order.visibleQuantity) : Standing (orders ++ [order]) where
  distinct := by
    rw [idsOf, List.map_append, List.map_singleton]
    refine List.nodup_append.2 ⟨standing.distinct, List.nodup_singleton _, ?_⟩
    intro id listed other same equal
    rw [List.mem_singleton.1 same] at equal
    exact fresh (equal ▸ listed)
  open' := by
    intro other member
    rcases List.mem_append.1 member with old | new
    · exact standing.open' other old
    · exact List.mem_singleton.1 new ▸ left

section Registry
variable {home : Symbol → Option LeafAddress} {view after : BookView} {address : LeafAddress}

@[simp] theorem BookView.set_registry (orders : List BookOrder) (registry : OrderRegistry) :
    (view.set address orders registry).registry = registry := rfl

theorem BookView.set_orders_self (orders : List BookOrder) (registry : OrderRegistry) :
    (view.set address orders registry).orders address = orders :=
  Function.update_self ..

theorem BookView.set_orders_of_ne {other : LeafAddress} (apart : other ≠ address) (orders : List BookOrder)
    (registry : OrderRegistry) : (view.set address orders registry).orders other = view.orders other :=
  Function.update_of_ne apart ..

@[simp] theorem BookView.set_set (orders others : List BookOrder) (registry later : OrderRegistry) :
    (view.set address orders registry).set address others later = view.set address others later := by
  unfold BookView.set
  rw [Function.update_idem]

theorem BookView.set_self : view.set address (view.orders address) view.registry = view := by
  unfold BookView.set
  rw [Function.update_eq_self]

/-- A move writes one leaf. -/
theorem Took.elsewhere {move : Move} (took : Took home view move after) {other : LeafAddress}
    (apart : other ≠ move.address) : after.orders other = view.orders other := by
  cases took <;> exact BookView.set_orders_of_ne apart ..

namespace InStep
variable (step : InStep home view)

include step in
theorem mem_iff (id : Nat) : (∃ record, view.registry.resting[id]? = some record ∧ home record.symbol = some address) ↔
    id ∈ idsOf (view.orders address) := by
  constructor
  · rintro ⟨record, present, lives⟩
    obtain ⟨place, here, listed⟩ := step.registered id record present
    rw [lives] at here
    obtain rfl := Option.some.inj here
    exact listed
  · intro listed
    obtain ⟨order, member, rfl⟩ := mem_idsOf.1 listed
    obtain ⟨record, present, lives, -⟩ := step.known address order member
    exact ⟨record, present, lives⟩

include step in
/-- An engine id rests at one address only. -/
theorem address_unique {other : LeafAddress} {id : Nat} (here : id ∈ idsOf (view.orders address))
    (there : id ∈ idsOf (view.orders other)) : address = other := by
  obtain ⟨record, present, lives⟩ := (step.mem_iff id).2 here
  obtain ⟨again, found, lives'⟩ := (step.mem_iff id).2 there
  rw [present] at found
  obtain rfl := Option.some.inj found
  exact Option.some.inj (lives.symm.trans lives')

include step in
theorem unregistered {id : Nat} (absent : view.registry.resting[id]? = none) : id ∉ idsOf (view.orders address) := by
  intro listed
  obtain ⟨record, present, -⟩ := (step.mem_iff id).2 listed
  rw [absent] at present
  cases present

include step in
/-- Orders leave one leaf, and the registry is pruned of exactly these. -/
theorem removed {kept : List BookOrder} {removed : List Nat} (standing : Standing kept)
    (same : ∀ order ∈ kept, ∃ old ∈ view.orders address, old.id = order.id ∧ old.side = order.side ∧ old.owner = order.owner)
    (gone : ∀ id, id ∈ removed ↔ id ∈ idsOf (view.orders address) ∧ id ∉ idsOf kept) :
    InStep home (view.set address kept (view.registry.removeAll removed)) where
  standing := by
    intro other
    by_cases here : other = address
    · subst here
      rw [BookView.set_orders_self]
      exact standing
    · rw [BookView.set_orders_of_ne here]
      exact step.standing other
  registered := by
    intro id record present
    rw [BookView.set_registry, OrderRegistry.removeAll_getElem?] at present
    split at present
    · cases present
    next unremoved =>
      obtain ⟨place, lives, listed⟩ := step.registered id record present
      refine ⟨place, lives, ?_⟩
      by_cases here : place = address
      · subst here
        rw [BookView.set_orders_self]
        by_contra absent
        exact unremoved ((gone id).2 ⟨listed, absent⟩)
      · rw [BookView.set_orders_of_ne here]
        exact listed
  known := by
    intro other order member
    have stays : ∀ {id}, id ∈ idsOf (view.orders other) → (other = address → id ∈ idsOf kept) →
        (view.registry.removeAll removed).resting[id]? = view.registry.resting[id]? := by
      intro id listed left
      rw [OrderRegistry.removeAll_getElem?, if_neg]
      intro taken
      obtain ⟨there, absent⟩ := (gone id).1 taken
      exact absent (left (step.address_unique listed there))
    rw [BookView.set_registry]
    by_cases here : other = address
    · subst here
      rw [BookView.set_orders_self] at member
      obtain ⟨old, listed, id, side, owner⟩ := same order member
      obtain ⟨record, present, lives, side', owner'⟩ := step.known other old listed
      refine ⟨record, ?_, lives, side'.trans side, owner'.trans owner⟩
      rw [← id, stays (mem_idsOf.2 ⟨old, listed, rfl⟩) fun _ => mem_idsOf.2 ⟨order, member, id.symm⟩, present]
    · rw [BookView.set_orders_of_ne here] at member
      obtain ⟨record, present, rest⟩ := step.known other order member
      refine ⟨record, ?_, rest⟩
      rw [stays (mem_idsOf.2 ⟨order, member, rfl⟩) fun same => absurd same here, present]

include step in
theorem rested {order : BookOrder} {record : RestingRecord} (fresh : view.registry.resting[order.id]? = none)
    (left : 0 < order.visibleQuantity) (lives : home record.symbol = some address) (side : record.side = order.side)
    (owner : record.owner = order.owner) :
    InStep home (view.set address (view.orders address ++ [order]) (view.registry.registerResting order.id record)) where
  standing := by
    intro other
    by_cases here : other = address
    · subst here
      rw [BookView.set_orders_self]
      exact (step.standing other).append (step.unregistered fresh) left
    · rw [BookView.set_orders_of_ne here]
      exact step.standing other
  registered := by
    intro id found present
    rw [BookView.set_registry, OrderRegistry.registerResting] at present
    rw [Std.ExtTreeMap.getElem?_insert] at present
    split at present
    next same =>
      obtain rfl := Option.some.inj present
      refine ⟨address, lives, ?_⟩
      rw [BookView.set_orders_self, ← Std.LawfulEqCmp.compare_eq_iff_eq.1 same]
      exact mem_idsOf.2 ⟨order, by simp, rfl⟩
    next =>
      obtain ⟨place, lives, listed⟩ := step.registered id found present
      refine ⟨place, lives, ?_⟩
      by_cases here : place = address
      · subst here
        rw [BookView.set_orders_self, idsOf, List.map_append]
        exact List.mem_append_left _ listed
      · rw [BookView.set_orders_of_ne here]
        exact listed
  known := by
    intro other found member
    have stays : found ∈ view.orders other → ∃ record', (view.registry.registerResting order.id record).resting[found.id]? =
        some record' ∧ home record'.symbol = some other ∧ record'.side = found.side ∧ record'.owner = found.owner := by
      intro old
      obtain ⟨record', present, rest⟩ := step.known other found old
      refine ⟨record', ?_, rest⟩
      rw [OrderRegistry.registerResting, Std.ExtTreeMap.getElem?_insert, if_neg, present]
      intro same
      rw [Std.LawfulEqCmp.compare_eq_iff_eq.1 same, present] at fresh
      cases fresh
    by_cases here : other = address
    · subst here
      rw [BookView.set_orders_self] at member
      rcases List.mem_append.1 member with old | new
      · exact stays old
      · obtain rfl := List.mem_singleton.1 new
        exact ⟨record, by simp [OrderRegistry.registerResting], lives, side, owner⟩
    · rw [BookView.set_orders_of_ne here] at member
      exact stays member

/-- Every move keeps the registry in step with the books. -/
theorem took {move : Move} (step : InStep home view) (took : Took home view move after) : InStep home after := by
  cases took with
  | @dropped address engineId record rests registered lives =>
    refine @removed home view address step _ [engineId] ((step.standing _).filter _) ?_ ?_
    · intro order member
      exact ⟨order, (List.mem_filter.1 member).1, rfl, rfl, rfl⟩
    · intro id
      rw [mem_idsOf_filter_ne, List.mem_singleton]
      constructor
      · rintro rfl
        exact ⟨rests, fun left => left.2 rfl⟩
      · rintro ⟨listed, dropped⟩
        by_contra other
        exact dropped ⟨listed, other⟩
  | matched consumes gone =>
    refine step.removed (consumes.standing (step.standing _)) ?_ gone
    intro order member
    obtain ⟨-, old, listed, same, -⟩ := consumes.left order member
    refine ⟨old, listed, ?_, ?_, ?_⟩ <;> rw [same]
  | rested fresh left lives side owner => exact step.rested fresh left lives side owner

theorem moves {moves : List Move} (step : InStep home view) (moved : Moves home view moves after) :
    InStep home after := by
  induction moved with
  | none => exact step
  | next first rest ih => exact ih (step.took first)

end InStep

end Registry

end Fauxchange.Exchange
