import Fauxchange.Exchange.RegistryRuns

/-! The accounts are isolated from each other: what a cancel, a replace or a scoped mass cancel removes was placed for
the account that issues it. -/

namespace Fauxchange.Exchange
open Lib UnderlyingOrderBook

/-- The account that a command places an order for. -/
def VenueCommand.placingAccount : VenueCommand → Option AccountId
  | .addOrder order => some order.account
  | .replace order => some order.account
  | _ => none

/-- The account that a cancel, a replace or a mass cancel of a user or a side is issued for. -/
def VenueCommand.removingAccount : VenueCommand → Option AccountId
  | .cancelOrder _ _ account => some account
  | .replace order => some order.account
  | .massCancel _ (.byUser _) account => some account
  | .massCancel _ (.bySide _) account => some account
  | _ => none

/-- The order of an engine id was placed for the account. -/
def PlacedFor (contexts : List ExecutionContext) (account : AccountId) (id : Nat) : Prop :=
  ∃ ctx ∈ contexts, ctx.sequence = id ∧ ctx.command.placingAccount = some account

/-- Orders leave the books at most, and only those of the given ids. -/
structure Spares (mine : Nat → Prop) (before after : BookView) : Prop where
  place : ∀ address, (after.orders address).Sublist (before.orders address)
  kept : ∀ address, ∀ order ∈ before.orders address, ¬ mine order.id → order ∈ after.orders address
  records : ∀ id, ¬ mine id → after.registry.resting[id]? = before.registry.resting[id]?

theorem Spares.refl (mine : Nat → Prop) (view : BookView) : Spares mine view view where
  place := fun _ => List.Sublist.refl _
  kept := fun _ _ member _ => member
  records := fun _ _ => rfl

theorem Spares.trans {mine : Nat → Prop} {before middle after : BookView} (first : Spares mine before middle)
    (second : Spares mine middle after) : Spares mine before after where
  place := fun address => (second.place address).trans (first.place address)
  kept := fun address order member other => second.kept address order (first.kept address order member other) other
  records := fun id other => (second.records id other).trans (first.records id other)

/-- One order is dropped. -/
theorem Spares.drop {mine : Nat → Prop} {view : BookView} (address : LeafAddress) {engineId : Nat} (own : mine engineId) :
    Spares mine view (view.set address ((view.orders address).filter fun order => order.id ≠ engineId)
      (view.registry.removeResting engineId)) where
  place := by
    intro other
    by_cases here : other = address
    · subst here
      rw [BookView.set_orders_self]
      exact List.filter_sublist
    · rw [BookView.set_orders_of_ne here]
  kept := by
    intro other order member foreign
    by_cases here : other = address
    · subst here
      rw [BookView.set_orders_self]
      have unlike : order.id ≠ engineId := fun same => foreign (same ▸ own)
      exact List.mem_filter.2 ⟨member, decide_eq_true unlike⟩
    · rw [BookView.set_orders_of_ne here]
      exact member
  records := by
    intro id foreign
    rw [BookView.set_registry, OrderRegistry.removeResting_getElem?, if_neg]
    rintro rfl
    exact foreign own

section Parts
variable {U : Upstream} {laws : LeafLaws U} {state : SequencedState U} {mine : Nat → Prop} {address : LeafAddress}
  {engineId : Nat}

theorem cancelled_spares (present : (state.underlyingBook.leaf? address).isSome)
    (hit : (U.cancelOrder (state.underlyingBook.leafAt address) engineId).1 = .ok true) (own : mine engineId) :
    Spares mine (laws.viewOf state) (laws.viewOf (state.commitLeaf address (state.registry.removeResting engineId)
      (U.cancelOrder (state.underlyingBook.leafAt address) engineId).2)) := by
  rw [viewOf_commitLeaf present, (laws.cancelled _ _ hit).2]
  exact .drop address own

theorem cancelTargets_spares {targets : List (Nat × RestingRecord)} (own : ∀ target ∈ targets, mine target.1) :
    Spares mine (laws.viewOf state) (laws.viewOf (state.cancelTargets targets).2) := by
  induction targets generalizing state with
  | nil => exact .refl _ _
  | cons target rest ih =>
    obtain ⟨engineId, record⟩ := target
    have others : ∀ target ∈ rest, mine target.1 := fun target member => own target (List.mem_cons_of_mem _ member)
    simp only [SequencedState.cancelTargets]
    split
    · exact ih others
    next address leaf resolved =>
      obtain ⟨-, present, rfl⟩ := resolveLeafRead_eq_some resolved
      split
      next leaf hit =>
        have first := @cancelled_spares U laws state mine address engineId present (by rw [hit])
          (own (engineId, record) (by simp))
        rw [hit] at first
        exact first.trans (ih others)
      next result leaf other missed =>
        have same := @uncancelled_view U laws state address engineId (by rw [missed]; exact other)
        rw [missed] at same
        have later := @ih (state.commitLeaf address state.registry leaf) others
        rw [same] at later
        exact later

theorem executeCancel_spares (symbol : Symbol) (orderId : VenueOrderId) (account : AccountId)
    (own : ∀ id record, state.registry.resting[id]? = some record → record.account = account → mine id) :
    Spares mine (laws.viewOf state) (laws.viewOf (state.executeCancel symbol orderId account).2) := by
  unfold SequencedState.executeCancel
  split
  · exact .refl _ _
  next address leaf resolved =>
    obtain ⟨-, present, rfl⟩ := resolveLeafRead_eq_some resolved
    split
    · exact .refl _ _
    next engineId named =>
      split
      · exact .refl _ _
      next owned =>
        obtain ⟨record, registered, same⟩ := OrderRegistry.accountOwns_iff.1 (by simpa using owned)
        have missed : ∀ {result leaf}, U.cancelOrder (state.underlyingBook.leafAt address) engineId = (result, leaf) →
            result ≠ .ok true → laws.viewOf (state.commitLeaf address state.registry leaf) = laws.viewOf state := by
          intro result leaf call other
          have same := @uncancelled_view U laws state address engineId (by rw [call]; exact other)
          rw [call] at same
          exact same
        split
        next leaf hit =>
          have spares := @cancelled_spares U laws state mine address engineId present (by rw [hit])
            (own engineId record registered same)
          rw [hit] at spares
          exact spares
        next leaf call => exact missed call (by simp) ▸ .refl _ _
        next error leaf call => exact missed call (by simp) ▸ .refl _ _

/-- How a command ends from the state after its cancel part: it is done, or a replacement is added. -/
inductive CancelPart (visits : VisitOrder) (ctx : ExecutionContext) (middle : SequencedState U) :
    VenueOutcome × SequencedState U → Prop where
  | done {outcome : VenueOutcome} (silent : outcomeFills outcome = []) : CancelPart visits ctx middle (outcome, middle)
  | added {order : Replace} {address : LeafAddress} {owner : Hash32} {price : Nat}
      {added : AddResult × OrderRegistry × U.Leaf} (replace : ctx.command = .replace order)
      (priced : order.limitPrice = some price)
      (add : added = runAdd visits ctx middle.registry (middle.underlyingBook.leafAt address) (order.placement owner) price) :
      CancelPart visits ctx middle (.replace true (classifyAddLeg added.1), middle.commitLeaf address added.2.1 added.2.2)

theorem executeReplace_spares (visits : VisitOrder) {ctx : ExecutionContext} {order : Replace}
    (replace : ctx.command = .replace order)
    (own : ∀ id record, state.registry.resting[id]? = some record → record.account = order.account → mine id) :
    ∃ middle, Spares mine (laws.viewOf state) (laws.viewOf middle) ∧
      CancelPart visits ctx middle (state.executeReplace visits ctx order) := by
  have still : ∀ {outcome after}, outcomeFills outcome = [] → laws.viewOf after = laws.viewOf state →
      ∃ middle, Spares mine (laws.viewOf state) (laws.viewOf middle) ∧ CancelPart visits ctx middle (outcome, after) := by
    intro outcome after silent same
    exact ⟨after, same ▸ .refl _ _, .done silent⟩
  unfold SequencedState.executeReplace
  cases resolved : state.underlyingBook.resolveLeafVivify order.symbol with
  | error reason => exact still rfl rfl
  | ok found =>
    obtain ⟨address, book⟩ := found
    obtain ⟨-, rfl⟩ := resolveLeafVivify_eq_ok.1 resolved
    dsimp only
    split
    · exact still rfl viewOf_vivify
    next engineId named =>
      split
      · exact still rfl viewOf_vivify
      next owned =>
        obtain ⟨record, registered, same⟩ := OrderRegistry.accountOwns_iff.1 (by simpa using owned)
        let vivified : SequencedState U := { state with underlyingBook := state.underlyingBook.vivify address }
        have viewed : laws.viewOf vivified = laws.viewOf state := viewOf_vivify
        have present : (vivified.underlyingBook.leaf? address).isSome := by
          rw [show vivified.underlyingBook.leaf? address = _ from leaf?_vivify_self _ _]
          rfl
        split
        next leaf hit =>
          have spares := @cancelled_spares U laws vivified mine address engineId present
            (by rw [show U.cancelOrder (vivified.underlyingBook.leafAt address) engineId = _ from hit])
            (own engineId record registered same)
          rw [show U.cancelOrder (vivified.underlyingBook.leafAt address) engineId = _ from hit, viewed] at spares
          refine ⟨_, spares, ?_⟩
          split
          next price priced =>
            let middle := vivified.commitLeaf address (vivified.registry.removeResting engineId) leaf
            have here : middle.underlyingBook.leafAt address = leaf := leafAt_setLeaf_self _ _ present
            have twice : ∀ registry second, middle.commitLeaf address registry second =
                vivified.commitLeaf address registry second := by
              intro registry second
              simp [middle, SequencedState.commitLeaf]
            have later := @CancelPart.added U visits ctx middle order address
              ((state.registry.resting[engineId]?.map (·.owner)).getD 0) price _ replace priced rfl
            rw [here, twice] at later
            exact later
          next => exact .done rfl
        next result leaf other missed =>
          refine still rfl ?_
          have same := @uncancelled_view U laws vivified address engineId (by
            rw [show U.cancelOrder (vivified.underlyingBook.leafAt address) engineId = _ from missed]
            exact other)
          rw [show U.cancelOrder (vivified.underlyingBook.leafAt address) engineId = _ from missed, viewed] at same
          exact same

theorem executeMassCancel_spares (visits : VisitOrder) (round : Nat) (scope : MassCancelScope) {cancelType : MassCancelType}
    {account : AccountId} (narrow : accountScope cancelType account = some account)
    (own : ∀ id record, state.registry.resting[id]? = some record → record.account = account → mine id) :
    Spares mine (laws.viewOf state)
      (laws.viewOf (state.executeMassCancel visits round scope cancelType account).2) := by
  unfold SequencedState.executeMassCancel
  split
  · exact .refl _ _
  · refine cancelTargets_spares fun target member => ?_
    change target ∈ state.sweepTargets visits round scope cancelType (accountScope cancelType account) at member
    rw [narrow] at member
    obtain ⟨registered, selected⟩ := mem_sweepTargets.1 member
    refine own target.1 target.2 registered ?_
    simp only [massCancelMatches, Bool.and_eq_true, decide_eq_true_eq] at selected
    exact selected.1.1

end Parts

/-- The only leaves that a command can create while it changes no order: those of the strike a replace names. -/
def MayCreate {U : Upstream} (state : SequencedState U) (command : VenueCommand) (address : LeafAddress) : Prop :=
  match command with
  | .replace order => ∃ named, state.home order.symbol = some named ∧
      (address.expirationStr, address.strike) = (named.expirationStr, named.strike)
  | _ => False

/-- A command has changed no resting order of any leaf, neither map of the registry, and nothing else of the state but
the leaves that exist. -/
structure Unmoved {U : Upstream} (laws : LeafLaws U) (command : VenueCommand) (before after : SequencedState U) : Prop where
  view : laws.viewOf after = laws.viewOf before
  idempotency : after.idempotency = before.idempotency
  status : after.instrumentStatus = before.instrumentStatus
  leaves : ∀ address, (after.underlyingBook.leaf? address).isSome →
    (before.underlyingBook.leaf? address).isSome ∨ MayCreate before command address

section Rejected
variable {U : Upstream} {laws : LeafLaws U} {state : SequencedState U}

theorem Unmoved.refl (command : VenueCommand) : Unmoved laws command state state :=
  ⟨rfl, rfl, rfl, fun _ => Or.inl⟩

theorem leaf?_setLeaf_isSome {book : UnderlyingOrderBook U} {address other : LeafAddress} {leaf : U.Leaf}
    (present : ((book.setLeaf address leaf).leaf? other).isSome) : (book.leaf? other).isSome := by
  rw [leaf?_setLeaf] at present
  split at present
  next same =>
    rw [same]
    simpa using present
  next => exact present

theorem executeCancel_rejected {symbol : Symbol} {orderId : VenueOrderId} {account : AccountId} {kind : RejectKind}
    {reason : String} (rejected : (state.executeCancel symbol orderId account).1 = .rejected kind reason) :
    Unmoved laws (.cancelOrder symbol orderId account) state (state.executeCancel symbol orderId account).2 := by
  revert rejected
  unfold SequencedState.executeCancel
  split
  · exact fun _ => .refl _
  next address leaf resolved =>
    obtain ⟨-, present, rfl⟩ := resolveLeafRead_eq_some resolved
    split
    · exact fun _ => .refl _
    next engineId named =>
      split
      · exact fun _ => .refl _
      · have missed : ∀ {result leaf}, U.cancelOrder (state.underlyingBook.leafAt address) engineId = (result, leaf) →
            result ≠ .ok true → Unmoved laws (.cancelOrder symbol orderId account) state
              (state.commitLeaf address state.registry leaf) := by
          intro result leaf call other
          have same := @uncancelled_view U laws state address engineId (by rw [call]; exact other)
          rw [call] at same
          exact ⟨same, rfl, rfl, fun _ present => Or.inl (leaf?_setLeaf_isSome present)⟩
        split
        next => exact fun rejected => by cases rejected
        next call => exact fun _ => missed call (by simp)
        next call => exact fun _ => missed call (by simp)

theorem executeReplace_rejected {visits : VisitOrder} {ctx : ExecutionContext} {order : Replace} {kind : RejectKind}
    {reason : String} (rejected : (state.executeReplace visits ctx order).1 = .rejected kind reason) :
    Unmoved laws (.replace order) state (state.executeReplace visits ctx order).2 := by
  revert rejected
  unfold SequencedState.executeReplace
  cases resolved : state.underlyingBook.resolveLeafVivify order.symbol with
  | error reason => exact fun _ => .refl _
  | ok found =>
    obtain ⟨address, book⟩ := found
    obtain ⟨lives, rfl⟩ := resolveLeafVivify_eq_ok.1 resolved
    let vivified : SequencedState U := { state with underlyingBook := state.underlyingBook.vivify address }
    have created : ∀ other, (vivified.underlyingBook.leaf? other).isSome →
        (state.underlyingBook.leaf? other).isSome ∨ MayCreate state (.replace order) other := by
      intro other present
      by_cases shared : (other.expirationStr, other.strike) = (address.expirationStr, address.strike)
      · exact Or.inr ⟨address, lives, shared⟩
      · left
        change ((state.underlyingBook.vivify address).leaf? other).isSome at present
        unfold leaf? vivify at present
        simp only [Std.ExtTreeMap.getElem?_insertIfNew, pairCompare_eq_iff] at present
        rw [if_neg fun both => shared both.1.symm] at present
        exact present
    have viewed : laws.viewOf vivified = laws.viewOf state := viewOf_vivify
    have still : Unmoved laws (.replace order) state vivified := ⟨viewed, rfl, rfl, created⟩
    dsimp only
    split
    · exact fun _ => still
    next engineId named =>
      split
      · exact fun _ => still
      · split
        next =>
          split
          · exact fun rejected => by cases rejected
          · exact fun rejected => by cases rejected
        next result leaf other missed =>
          have same := @uncancelled_view U laws vivified address engineId (by
            rw [show U.cancelOrder (vivified.underlyingBook.leafAt address) engineId = _ from missed]
            exact other)
          rw [show U.cancelOrder (vivified.underlyingBook.leafAt address) engineId = _ from missed, viewed] at same
          exact fun _ => ⟨same, rfl, rfl, fun place present => created place (leaf?_setLeaf_isSome present)⟩

theorem executeMassCancel_rejected {visits : VisitOrder} {round : Nat} {scope : MassCancelScope}
    {cancelType : MassCancelType} {account : AccountId} {kind : RejectKind} {reason : String}
    (rejected : (state.executeMassCancel visits round scope cancelType account).1 = .rejected kind reason) :
    (state.executeMassCancel visits round scope cancelType account).2 = state := by
  revert rejected
  unfold SequencedState.executeMassCancel
  split
  · exact fun _ => rfl
  · exact fun rejected => by cases rejected

end Rejected

section Runs
variable {U : Upstream} {laws : LeafLaws U} {executor : MatchingExecutor U} {contexts : List ExecutionContext}

theorem PlacedBy.account {state : SequencedState U} {command : VenueCommand} {record : RestingRecord}
    (placed : PlacedBy state command record) : command.placingAccount = some record.account := by
  unfold PlacedBy at placed
  split at placed
  · rw [placed]
    rfl
  · obtain ⟨_, _, _, _, rfl⟩ := placed
    rfl
  · cases placed

/-- Every registered order belongs to the account that it was placed for. -/
theorem run_records {underlying : String} {config : BookConfig}
    (fresh : executor.state = .fromBook ⟨underlying, config, ∅⟩) {id : Nat} {record : RestingRecord}
    (present : (executor.run contexts).state.registry.resting[id]? = some record) :
    PlacedFor contexts record.account id := by
  induction contexts using List.reverseRecOn with
  | nil =>
    rw [show (executor.run []).state = _ from fresh] at present
    exact absurd present (by simp [SequencedState.fromBook, OrderRegistry.new])
  | append_singleton contexts ctx ih =>
    rw [MatchingExecutor.run_append_singleton] at present
    rcases (SequencedState.execute_places _ _ ctx).resting present with before | ⟨rfl, placed⟩
    · obtain ⟨earlier, listed, rest⟩ := ih before
      exact ⟨earlier, by simp [listed], rest⟩
    · exact ⟨ctx, by simp, rfl, placed.account⟩

/-- The account a removing command is scoped to. -/
theorem accountScope_of_removing {scope : MassCancelScope} {cancelType : MassCancelType} {account other : AccountId}
    (issued : (VenueCommand.massCancel scope cancelType other).removingAccount = some account) :
    other = account ∧ accountScope cancelType other = some account := by
  cases cancelType with
  | all => cases issued
  | byUser owner => exact ⟨Option.some.inj issued, issued⟩
  | bySide side => exact ⟨Option.some.inj issued, issued⟩

/-- A command that removes orders for an account, in the state after a run: its cancel part spares what was not placed
for the account, and where it is rejected it has no effect. -/
structure Isolated (laws : LeafLaws U) (visits : VisitOrder) (contexts : List ExecutionContext) (state : SequencedState U)
    (ctx : ExecutionContext) (account : AccountId) : Prop where
  spares : ∃ middle, Spares (PlacedFor contexts account) (laws.viewOf state) (laws.viewOf middle) ∧
    CancelPart visits ctx middle (state.execute visits ctx)
  rejected : ∀ kind reason, (state.execute visits ctx).1 = .rejected kind reason →
    Unmoved laws ctx.command state (state.execute visits ctx).2

theorem isolated_run {underlying : String} {config : BookConfig}
    (fresh : executor.state = .fromBook ⟨underlying, config, ∅⟩) {ctx : ExecutionContext} {account : AccountId}
    (issued : ctx.command.removingAccount = some account) :
    Isolated laws (executor.run contexts).hashOrder contexts (executor.run contexts).state ctx account := by
  have own : ∀ id record, (executor.run contexts).state.registry.resting[id]? = some record → record.account = account →
      PlacedFor contexts account id := by
    rintro id record present rfl
    exact run_records fresh present
  generalize (executor.run contexts).state = state at *
  generalize (executor.run contexts).hashOrder = visits
  unfold VenueCommand.removingAccount at issued
  constructor
  · have silent := SequencedState.execute_silent visits state ctx
    unfold SequencedState.execute at silent ⊢
    cases command : ctx.command with
    | cancelOrder symbol orderId other =>
      rw [command] at issued
      obtain rfl := Option.some.inj issued
      rw [command] at silent
      exact ⟨_, executeCancel_spares symbol orderId other own, .done (silent rfl)⟩
    | replace order =>
      rw [command] at issued
      obtain rfl := Option.some.inj issued
      exact executeReplace_spares visits command own
    | massCancel scope cancelType other =>
      rw [command] at issued
      obtain ⟨rfl, narrow⟩ := accountScope_of_removing issued
      rw [command] at silent
      exact ⟨_, executeMassCancel_spares visits ctx.sequence scope narrow own, .done (silent rfl)⟩
    | _ =>
      rw [command] at issued
      cases issued
  · intro kind reason
    unfold SequencedState.execute
    cases command : ctx.command with
    | cancelOrder symbol orderId other => exact executeCancel_rejected
    | replace order => exact executeReplace_rejected
    | massCancel scope cancelType other =>
      intro rejected
      rw [executeMassCancel_rejected rejected]
      exact .refl _
    | _ =>
      rw [command] at issued
      cases issued

end Runs

/-- A cancel by an account that does not own the order. -/
theorem foreignCancel_isolated :
    let executor : MatchingExecutor referenceUpstream := .new "BTC" fun _ _ => Equiv.refl _
    Isolated referenceLeafLaws (executor.run crossing).hashOrder crossing (executor.run crossing).state
      ⟨"BTC", "run-1", 3, 12, .cancelOrder "BTC-20351231-50000-C" "a" "acct-2"⟩ "acct-2" :=
  @isolated_run referenceUpstream referenceLeafLaws _ _ "BTC" .bare rfl _ _ rfl

/-- A replace of an unknown order is rejected, and yet its strike has been created. -/
theorem unknownReplace_creates :
    let state : SequencedState referenceUpstream := (MatchingExecutor.run (.new "BTC" fun _ _ => Equiv.refl _) []).state
    let result := state.execute (fun _ _ => Equiv.refl _) ⟨"BTC", "run-1", 1, 10, .replace ⟨"BTC-20351231-50000-C",
      "ghost", "b", "acct-1", none, none, .buy, some 100, 5, .gtc, .none⟩⟩
    result.1 = .rejected .notFound "order not found" ∧ result.2.underlyingBook ≠ state.underlyingBook := by
  refine ⟨rfl, fun same => ?_⟩
  have created := congrArg (fun book => (book.leaf? ⟨"20351231", 50000, .call⟩).isSome) same
  revert created
  decide

end Fauxchange.Exchange
