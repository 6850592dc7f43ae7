import Fauxchange.MarketData.Mirror

/-! What one commit does to the aggregate of its contract, against what it does to the leaf. -/

namespace Fauxchange.MarketData
open Lib Exchange

namespace Applying
variable {now : Applying} {side : BookSide} {price : Nat}

theorem qtyAt_reduceLevel_le {other : BookSide} {at' amount : Nat} :
    (now.reduceLevel other at' amount).state.levels.qtyAt side price ≤ now.state.levels.qtyAt side price := by
  rw [qtyAt_reduceLevel]
  split
  next here =>
    rw [here.1, here.2]
    exact Nat.sub_le _ _
  next => exact Nat.le_refl _

theorem qtyAt_removeOrder_le (id : VenueOrderId) :
    (now.removeOrder id).state.levels.qtyAt side price ≤ now.state.levels.qtyAt side price := by
  unfold removeOrder
  split
  · exact Nat.le_refl _
  · exact qtyAt_reduceLevel_le

theorem qtyAt_removeOrders_le (ids : List VenueOrderId) :
    (now.removeOrders ids).state.levels.qtyAt side price ≤ now.state.levels.qtyAt side price := by
  induction ids generalizing now with
  | nil => exact Nat.le_refl _
  | cons id rest ih => exact (@ih (now.removeOrder id)).trans (qtyAt_removeOrder_le id)

theorem qtyAt_reduceAll_le (legs : List (VenueOrderId × Nat)) :
    (now.reduceAll legs).state.levels.qtyAt side price ≤ now.state.levels.qtyAt side price := by
  induction legs generalizing now with
  | nil => exact Nat.le_refl _
  | cons leg rest ih =>
    refine (@ih (now.reduceOrder leg.1 leg.2)).trans ?_
    unfold reduceOrder
    split
    · exact Nat.le_refl _
    · exact qtyAt_reduceLevel_le

/-- A match raises no level. -/
theorem qtyAt_consume_le (fills : List Fill) (stpCancelled : List CancelledLeg) :
    (now.consume fills stpCancelled).state.levels.qtyAt side price ≤ now.state.levels.qtyAt side price := by
  unfold consume
  rw [consumeMakerFills_eq]
  exact (qtyAt_removeOrders_le _).trans (qtyAt_reduceAll_le _)

/-- The add leg of a limit order: its match, then what is left of it. -/
def takeAdd (now : Applying) (id : VenueOrderId) (side : BookSide) (price : Nat) (add : AddResult) : Applying :=
  let now := now.consume add.fills add.stpCancelled
  if 0 < add.restingQuantity then now.restOrder id side price add.restingQuantity else now

/-- An add that changes nothing is answered by a rejection. -/
theorem takeAdd_of_unmoved {add : AddResult} (unmoved : ¬ addHasMutation add = true) (id : VenueOrderId) :
    now.takeAdd id side price add = now := by
  unfold addHasMutation at unmoved
  simp only [Bool.or_eq_true, Bool.not_eq_eq_eq_not, Bool.not_true, List.isEmpty_eq_false_iff, decide_eq_true_eq,
    not_or, not_not] at unmoved
  obtain ⟨⟨fills, resting⟩, legs⟩ := unmoved
  unfold takeAdd
  rw [fills, legs, if_neg resting]
  rfl

theorem outcome_limitOutcome {order : AddOrder} (priced : order.limitPrice = some price) (add : AddResult) :
    now.outcome (.addOrder order) (limitOutcome add) =
      now.takeAdd order.orderId (bookSide order.side) price add := by
  unfold limitOutcome
  split
  · simp only [outcome, takeAdd, restAdded, priced]
  next unmoved => exact (takeAdd_of_unmoved unmoved _).symm

theorem outcome_classifyAddLeg {order : Replace} (priced : order.limitPrice = some price) (add : AddResult) :
    now.outcome (.replace order) (.replace true (classifyAddLeg add)) =
      (now.removeOrder order.orderId).takeAdd order.newOrderId (bookSide order.side) price add := by
  unfold classifyAddLeg
  split
  next unmoved => exact (takeAdd_of_unmoved (by simpa using unmoved) _).symm
  · unfold takeAdd
    split
    next some => simp only [outcome, removeReplaced, restReplacement, priced, some, if_true]
    next => rfl

end Applying

section View
variable {U : Upstream} {home : Symbol → Option LeafAddress} {view after : BookView} {address : LeafAddress}
  {now : Applying}

theorem nameOf_ne_none (step : InStep home view) : ∀ order ∈ view.orders address, nameOf view.registry order.id ≠ none := by
  intro order member
  obtain ⟨record, present, -⟩ := step.known address order member
  unfold nameOf
  rw [present]
  simp

/-- A name that the registry does not map belongs to no order. -/
theorem nameOf_ne_of_unnamed {registry : OrderRegistry} (lockstep : registry.Lockstep) {name : VenueOrderId}
    (unnamed : ¬ registry.Names name) (id : Nat) : nameOf registry id ≠ some name := by
  intro named
  obtain ⟨record, present, same⟩ := Option.map_eq_some_iff.1 named
  refine unnamed ?_
  unfold OrderRegistry.Names
  rw [(lockstep name id).2 ⟨record, present, same⟩]
  simp

/-- A move changes no name of an order in another leaf. -/
theorem nameOf_elsewhere (step : InStep home view) {move : Move} (took : Took home view move after)
    {other : LeafAddress} (apart : other ≠ move.address) {order : BookOrder} (member : order ∈ view.orders other) :
    nameOf after.registry order.id = nameOf view.registry order.id := by
  have listed : order.id ∈ idsOf (view.orders other) := mem_idsOf.2 ⟨order, member, rfl⟩
  cases took with
  | dropped rests =>
    rw [BookView.set_registry, nameOf_removeResting, if_neg]
    rintro rfl
    exact apart (step.address_unique listed rests)
  | matched consumes gone =>
    rw [BookView.set_registry, nameOf_removeAll, if_neg]
    intro removed
    exact apart (step.address_unique listed ((gone _).1 removed).1)
  | rested fresh =>
    rw [BookView.set_registry, nameOf_registerResting, if_neg]
    intro same
    rw [same] at fresh
    exact step.unregistered fresh listed

/-- Moves in one leaf leave what is shown of another as it is. -/
theorem Shows.elsewhere (step : InStep home view) {moves : List Move} (moved : Moves home view moves after)
    {other : LeafAddress} (apart : ∀ move ∈ moves, other ≠ move.address) {state : InstrumentState}
    (shows' : Shows view.registry (view.orders other) state) : Shows after.registry (after.orders other) state := by
  induction moved with
  | none => exact shows'
  | @next view middle after move moves first rest ih =>
    have away := apart move (by simp)
    have kept := first.elsewhere away
    refine ih (step.took first) (fun move member => apart move (List.mem_cons_of_mem _ member)) ?_
    rw [kept]
    exact shows'.congr fun order member => nameOf_elsewhere step first away member

/-- Orders that a sweep drops from one leaf are removed by their names. -/
theorem Shows.drops (step : InStep home view) (lockstep : view.registry.Lockstep) {drops : List Drop}
    (moved : Moves home view (drops.map Drop.move) after) (here : ∀ drop ∈ drops, drop.address = address)
    (shows' : Shows view.registry (view.orders address) now.state) :
    Shows after.registry (after.orders address)
      (now.removeOrders (drops.map fun drop => drop.record.venueOrderId)).state := by
  induction drops generalizing view now with
  | nil =>
    cases moved
    exact shows'
  | cons drop rest ih =>
    obtain ⟨address', engineId, record⟩ := drop
    obtain rfl : address' = address := here ⟨address', engineId, record⟩ (by simp)
    cases moved with
    | next first later =>
      have between := step.took first
      cases first with
      | dropped rests registered lives =>
        have named : nameOf view.registry engineId = some record.venueOrderId := by
          unfold nameOf
          rw [registered]
          rfl
        have less := shows'.dropped lockstep.apart named
        refine ih between ?_ later (fun drop member => here drop (List.mem_cons_of_mem _ member)) ?_
        · exact lockstep.removeResting engineId
        · rw [BookView.set_orders_self]
          exact less

/-- The add leg of a limit order does to the aggregate what its moves do to the leaf. -/
theorem Shows.added (step : InStep home view) (lockstep : view.registry.Lockstep) {limit : LimitOrder}
    {record : RestingRecord} {result : MatchResult} {removed : List Nat} {add : AddResult}
    (unnamed : ¬ view.registry.Names record.venueOrderId)
    (report : MatchReport U view.registry result removed add.fills add.stpCancelled)
    (moved : Moves home view (.matched address limit.owner result removed ::
      restMoves address limit record add.restingQuantity) after)
    (room : 0 < add.restingQuantity →
      now.state.levels.qtyAt (bookSide limit.side) limit.price + add.restingQuantity ≤ u64Max)
    (shows' : Shows view.registry (view.orders address) now.state) :
    Shows after.registry (after.orders address)
      (now.takeAdd record.venueOrderId (bookSide limit.side) limit.price add).state := by
  cases moved with
  | next first later =>
    have between := step.took first
    cases first with
    | @matched _ _ active _ kept _ consumes gone =>
      have consumed : Shows (view.registry.removeAll removed) kept (now.consume add.fills add.stpCancelled).state :=
        shows'.matched (step.standing address) lockstep.apart (nameOf_ne_none step) consumes gone report
      unfold Applying.takeAdd
      dsimp only
      unfold restMoves at later
      split at later
      next some =>
        rw [if_pos some]
        cases later with
        | next rests done =>
          cases done
          cases rests with
          | rested fresh left =>
            rw [BookView.set_orders_self, BookView.set_orders_self, BookView.set_registry]
            have pruned := lockstep.removeAll removed
            have below := @Applying.qtyAt_consume_le now (bookSide limit.side) limit.price add.fills add.stpCancelled
            refine consumed.rested ?_ (nameOf_ne_of_unnamed pruned fun named => unnamed named.of_removeAll) left ?_
            · have unlisted := @InStep.unregistered home _ address between _ fresh
              rw [BookView.set_orders_self] at unlisted
              exact unlisted
            · have fits := room some
              change _ + add.restingQuantity ≤ _
              exact (Nat.add_le_add_right below _).trans fits
      next nothing =>
        rw [if_neg nothing]
        cases later
        rw [BookView.set_orders_self]
        exact consumed

end View

/-- The level that a command may add to, with the most that it may add. -/
def restLevel : VenueCommand → Option (BookSide × Nat × Nat)
  | .addOrder order =>
    if order.orderType = .limit ∧ tifRests order.timeInForce = true then
      order.limitPrice.map fun price => (bookSide order.side, price, order.quantity)
    else none
  | .replace order =>
    if tifRests order.timeInForce = true then
      order.limitPrice.map fun price => (bookSide order.side, price, order.quantity)
    else none
  | _ => none

/-- What may come to rest fits the width of its level. -/
def HasRoom (orders : List BookOrder) (command : VenueCommand) : Prop :=
  ∀ side price quantity, restLevel command = some (side, price, quantity) →
    restingAt orders side price + quantity ≤ u64Max

section Turn
variable {U : Upstream} {home : Symbol → Option LeafAddress} {view after : BookView} {address : LeafAddress}
  {state : InstrumentState} {sequence : Nat} {made : Option MadeMatch} {command : VenueCommand} {outcome : VenueOutcome}
  {moves : List Move} {symbol : Symbol}

theorem apply_quiet (quiet : Quiet outcome) : (state.apply command outcome).2 = state := by
  cases quiet <;> rfl

theorem drop_lives {drops : List Drop} (moved : Moves home view (drops.map Drop.move) after) :
    ∀ drop ∈ drops, home drop.record.symbol = some drop.address := by
  induction drops generalizing view with
  | nil =>
    intro drop member
    cases member
  | cons first rest ih =>
    obtain ⟨address, engineId, record⟩ := first
    intro drop member
    cases moved with
    | next took later =>
      rcases List.mem_cons.1 member with rfl | listed
      · cases took with
        | dropped _ _ lives => exact lives
      · exact ih later drop listed

theorem restMoves_address {order : LimitOrder} {record : RestingRecord} {left : Nat} :
    ∀ move ∈ restMoves address order record left, move.address = address := by
  intro move member
  unfold restMoves at member
  split at member
  · rw [List.mem_singleton.1 member]
    rfl
  · cases member

/-- A mass cancel of one contract drops orders of its leaf only. -/
theorem book_sweep_lives {cancelType : MassCancelType} {account : Option AccountId} {drops : List Drop}
    (selected : ∀ drop ∈ drops, massCancelMatches U drop.record (.book symbol)
      ((scopeExpiry U (.book symbol)).bind Except.toOption) cancelType account = true)
    (moved : Moves home view (drops.map Drop.move) after) : ∀ drop ∈ drops, home symbol = some drop.address := by
  intro drop member
  have selects := selected drop member
  have own : drop.record.symbol = symbol := by
    unfold massCancelMatches at selects
    simp only [Bool.and_eq_true, decide_eq_true_eq] at selects
    exact selects.2
  rw [← own]
  exact drop_lives moved drop member

/-- The moves of a command with a contract are in the leaf of the contract. -/
theorem TurnReport.lives (report : TurnReport U home view sequence made command outcome moves)
    (moved : Moves home view moves after) (aimed : commandSymbol command = some symbol) :
    ∀ move ∈ moves, home symbol = some move.address := by
  intro move member
  cases report with
  | still => cases member
  | cancelled named =>
    obtain rfl := Option.some.inj aimed
    rw [List.mem_singleton.1 member]
    exact named.lives
  | @swept scope cancelType account drops selected =>
    cases scope with
    | book contract =>
      obtain rfl := Option.some.inj aimed
      obtain ⟨drop, listed, rfl⟩ := List.mem_map.1 member
      exact book_sweep_lives selected moved drop listed
    | underlying => cases aimed
    | expiration => cases aimed
    | strike => cases aimed
  | killed => cases aimed
  | evicted => cases aimed
  | added _ _ lives =>
    obtain rfl := Option.some.inj aimed
    rcases List.mem_cons.1 member with rfl | rests
    · exact lives
    · rw [restMoves_address move rests]
      exact lives
  | marketed lives =>
    obtain rfl := Option.some.inj aimed
    rw [List.mem_singleton.1 member]
    exact lives
  | replaced named =>
    obtain rfl := Option.some.inj aimed
    rcases List.mem_cons.1 member with rfl | later
    · exact named.lives
    · rcases List.mem_cons.1 later with rfl | rests
      · exact named.lives
      · rw [restMoves_address move rests]
        exact named.lives
  | withdrawn named =>
    obtain rfl := Option.some.inj aimed
    rw [List.mem_singleton.1 member]
    exact named.lives

/-- A contract that does not live here is not touched. -/
theorem TurnReport.foreign (report : TurnReport U home view sequence made command outcome moves)
    (moved : Moves home view moves after) (aimed : commandSymbol command = some symbol) (homeless : home symbol = none) :
    (state.apply command outcome).2 = state := by
  have still : moves = [] := by
    refine List.eq_nil_iff_forall_not_mem.2 fun move member => ?_
    have lives := TurnReport.lives report moved aimed move member
    rw [homeless] at lives
    cases lives
  cases report with
  | still quiet => exact apply_quiet quiet
  | @swept scope cancelType account drops =>
    obtain rfl := List.map_eq_nil_iff.1 still
    rfl
  | killed => cases aimed
  | evicted => cases aimed
  | _ => cases still

theorem NamedDrop.venueOrderId (lockstep : view.registry.Lockstep) {orderId : VenueOrderId} {account : AccountId}
    {drop : Drop} (named : NamedDrop home view symbol orderId account drop) : drop.record.venueOrderId = orderId := by
  obtain ⟨record, present, same⟩ := (lockstep orderId drop.engineId).1 named.named
  rw [named.registered] at present
  rw [Option.some.inj present]
  exact same

theorem NamedDrop.nameOf (lockstep : view.registry.Lockstep) {orderId : VenueOrderId} {account : AccountId}
    {drop : Drop} (named : NamedDrop home view symbol orderId account drop) :
    nameOf view.registry drop.engineId = some orderId := by
  unfold MarketData.nameOf
  rw [named.registered, ← NamedDrop.venueOrderId lockstep named]
  rfl

/-- The order a command names is dropped from its leaf, and by that name from the aggregate. -/
theorem Shows.named {now : Applying} (step : InStep home view) (lockstep : view.registry.Lockstep)
    {orderId : VenueOrderId} {account : AccountId} {drop : Drop}
    (named : NamedDrop home view symbol orderId account drop) (moved : Moves home view [drop.move] after)
    (shows' : Shows view.registry (view.orders drop.address) now.state) :
    Shows after.registry (after.orders drop.address) (now.removeOrder orderId).state := by
  have dropped := @Shows.drops home view after drop.address now step lockstep [drop] moved (by simp) shows'
  change Shows _ _ (now.removeOrder drop.record.venueOrderId).state at dropped
  rw [NamedDrop.venueOrderId lockstep named] at dropped
  exact dropped

theorem room_of_restable {orders : List BookOrder} (room : HasRoom orders command) {side : BookSide}
    {price quantity resting : Nat} {timeInForce : TimeInForce} (within : resting ≤ restable timeInForce quantity)
    (level : tifRests timeInForce = true → restLevel command = some (side, price, quantity)) (some : 0 < resting) :
    restingAt orders side price + resting ≤ u64Max := by
  unfold restable at within
  split at within
  next rests =>
    have fits := room side price quantity (level rests)
    omega
  next => omega

/-- A command does to the aggregate of its contract what it does to the leaf. -/
theorem Shows.turn (step : InStep home view) (lockstep : view.registry.Lockstep)
    (report : TurnReport U home view sequence made command outcome moves) (moved : Moves home view moves after)
    (aimed : commandSymbol command = some symbol) (here : home symbol = some address)
    (unnamed : ∀ name, command.placedId = some name → ¬ view.registry.Names name)
    (room : HasRoom (view.orders address) command) (shows' : Shows view.registry (view.orders address) state) :
    Shows after.registry (after.orders address) (state.apply command outcome).2 := by
  let now : Applying := ⟨state, ∅⟩
  have level : ∀ side price, now.state.levels.qtyAt side price = restingAt (view.orders address) side price :=
    shows'.total (step.standing address) lockstep.apart (nameOf_ne_none step)
  cases report with
  | still quiet =>
    cases moved
    rw [apply_quiet quiet]
    exact shows'
  | @cancelled _ orderId account drop named =>
    obtain rfl := Option.some.inj aimed
    obtain rfl : drop.address = address := Option.some.inj (named.lives.symm.trans here)
    exact @Shows.named home view after _ now step lockstep orderId account drop named moved shows'
  | @swept scope cancelType account drops selected =>
    cases scope with
    | book contract =>
      obtain rfl := Option.some.inj aimed
      have there : ∀ drop ∈ drops, drop.address = address := by
        intro drop member
        exact Option.some.inj ((book_sweep_lives selected moved drop member).symm.trans here)
      have swept := @Shows.drops home view after address now step lockstep drops moved there shows'
      have names : (drops.map fun drop => massCancelLeg drop.record).map CancelledLeg.orderId =
          drops.map fun drop => drop.record.venueOrderId := by
        rw [List.map_map]
        rfl
      rw [← names] at swept
      exact swept
    | underlying => cases aimed
    | expiration => cases aimed
    | strike => cases aimed
  | killed => cases aimed
  | evicted => cases aimed
  | @added made order price place add removed limit priced lives within reported =>
    obtain rfl := Option.some.inj aimed
    obtain rfl : place = address := Option.some.inj (lives.symm.trans here)
    have placed := @Shows.added U home view after place now step lockstep (order.placement.limitOrder sequence price)
      order.placement.record _ removed add (unnamed _ rfl) reported moved (fun some => by
        rw [level]
        refine room_of_restable room within (fun rests => ?_) some
        simp only [restLevel, limit, rests, true_and, if_true, priced]
        rfl) shows'
    change Shows _ _ (now.outcome (.addOrder order) (limitOutcome add)).state
    rw [Applying.outcome_limitOutcome priced]
    exact placed
  | @marketed made order place fills quantity legs removed lives reported =>
    obtain rfl := Option.some.inj aimed
    obtain rfl : place = address := Option.some.inj (lives.symm.trans here)
    cases moved with
    | next first done =>
      cases done
      cases first with
      | matched consumes gone =>
        rw [BookView.set_orders_self, BookView.set_registry]
        exact @Shows.matched _ _ _ now U _ _ _ _ _ _ shows' (step.standing place) lockstep.apart (nameOf_ne_none step)
          consumes gone reported
  | @replaced made order drop price add removed named priced within reported =>
    obtain rfl := Option.some.inj aimed
    obtain rfl : drop.address = address := Option.some.inj (named.lives.symm.trans here)
    have dropped := @Shows.dropped _ _ now shows' lockstep.apart _ _ (NamedDrop.nameOf lockstep named)
    obtain ⟨place, engineId, record⟩ := drop
    cases moved with
    | next first later =>
      have between := step.took first
      cases first with
      | dropped rests registered =>
        have less := lockstep.removeResting engineId
        have kept := @BookView.set_orders_self view place ((view.orders place).filter fun order => order.id ≠ engineId)
          (view.registry.removeResting engineId)
        rw [← kept] at dropped
        have placed := @Shows.added U home _ after place (now.removeOrder order.orderId) between less
          ((order.placement record.owner).limitOrder sequence price) (order.placement record.owner).record _ removed add
          (fun left => unnamed _ rfl (@OrderRegistry.Names.of_removeAll _ [engineId] _ left)) reported later
          (fun some => by
            have below := @Applying.qtyAt_removeOrder_le now (bookSide order.side) price order.orderId
            rw [level] at below
            refine (Nat.add_le_add_right below _).trans (room_of_restable room within (fun rests => ?_) some)
            simp only [restLevel, rests, if_true, priced]
            rfl) dropped
        change Shows _ _ (now.outcome (.replace order) (.replace true (classifyAddLeg add))).state
        rw [Applying.outcome_classifyAddLeg priced]
        exact placed
  | @withdrawn order drop kind reason named unpriced =>
    obtain rfl := Option.some.inj aimed
    obtain rfl : drop.address = address := Option.some.inj (named.lives.symm.trans here)
    exact @Shows.named home view after _ now step lockstep order.orderId order.account drop named moved shows'

end Turn

end Fauxchange.MarketData
