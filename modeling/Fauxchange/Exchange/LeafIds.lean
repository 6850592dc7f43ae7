import Fauxchange.Exchange.SweepExact

/-! The orders of the leaves under any command, whether the venue has captured its match or not: the one id that can
join is the sequence of the command. So an order that has left a leaf does not come back, and a sweep takes every
recorded order that it asks for where it stands. -/

namespace Fauxchange.Exchange
open Lib UnderlyingOrderBook

/-- What a command at a sequence can do to the orders of a leaf. -/
structure LeafStep (sequence : Nat) (before after : List BookOrder) : Prop where
  standing : Standing after
  joined : ∀ id ∈ idsOf after, id ∈ idsOf before ∨ id = sequence

namespace LeafStep
variable {sequence : Nat} {before middle after : List BookOrder}

theorem refl (standing : Standing before) : LeafStep sequence before before := ⟨standing, fun _ => Or.inl⟩

theorem trans (first : LeafStep sequence before middle) (second : LeafStep sequence middle after) :
    LeafStep sequence before after where
  standing := second.standing
  joined := fun id listed => (second.joined id listed).elim (first.joined id) Or.inr

theorem filter (standing : Standing before) (holds : BookOrder → Bool) :
    LeafStep sequence before (before.filter holds) where
  standing := standing.filter holds
  joined := fun _ listed => Or.inl ((List.filter_sublist.map _).subset listed)

theorem consumed {owner : Hash32} {active : Bool} {matched : MatchResult}
    (consumes : Consumes before owner active matched after) (standing : Standing before) :
    LeafStep sequence before after where
  standing := consumes.standing standing
  joined := fun _ listed => Or.inl (consumes.place.subset listed)

/-- What is left of a limit order joins under its own id. -/
theorem joining {order : LimitOrder} (standing : Standing before) (fresh : order.id ∉ idsOf before) (left : Nat) :
    LeafStep order.id before (before ++ Exchange.joining order left) := by
  unfold Exchange.joining
  split
  next some =>
    refine ⟨standing.append fresh some, fun id listed => ?_⟩
    rw [idsOf, List.map_append] at listed
    rcases List.mem_append.1 listed with old | new
    · exact Or.inl old
    · exact Or.inr (List.mem_singleton.1 new)
  next =>
    rw [List.append_nil]
    exact refl standing

end LeafStep

section Leaves
variable {U : Upstream} (laws : LeafLaws U) {leaf : U.Leaf} {ctx : ExecutionContext} {placement : Placement}
  (visits : VisitOrder) (registry : OrderRegistry)

theorem runAdd_leafStep (standing : Standing (laws.orders leaf)) (fresh : ctx.sequence ∉ idsOf (laws.orders leaf))
    (price : Nat) : LeafStep ctx.sequence (laws.orders leaf)
      (laws.orders (runAdd visits ctx registry leaf placement price).2.2) := by
  have after : (runAdd visits ctx registry leaf placement price).2.2 =
      (U.addLimitOrder (U.armTradeCapture leaf) (placement.limitOrder ctx.sequence price)).2 := by
    unfold runAdd
    dsimp only
    split <;> rfl
  obtain ⟨kept, consumes, orders⟩ := laws.added leaf (placement.limitOrder ctx.sequence price) standing fresh
  rw [after, orders]
  have matched : LeafStep ctx.sequence (laws.orders leaf) kept := .consumed consumes standing
  have unlisted : (placement.limitOrder ctx.sequence price).id ∉ idsOf kept :=
    fun listed => fresh (consumes.place.subset listed)
  exact matched.trans (.joining matched.standing unlisted _)

theorem executeMarket_leafStep (standing : Standing (laws.orders leaf))
    (fresh : ctx.sequence ∉ idsOf (laws.orders leaf)) : LeafStep ctx.sequence (laws.orders leaf)
      (laws.orders (executeMarket visits ctx registry leaf placement).2.2) := by
  have consumes := laws.submitted leaf (engineOrderId ctx.sequence) placement.quantity placement.side placement.owner
    standing fresh
  unfold executeMarket
  dsimp only at consumes ⊢
  split
  · change LeafStep ctx.sequence (laws.orders leaf) (laws.orders (U.armTradeCapture leaf))
    rw [laws.arm_orders]
    exact .refl standing
  · split <;> exact .consumed consumes standing

theorem cancel_leafStep (standing : Standing (laws.orders leaf)) (sequence engineId : Nat) :
    LeafStep sequence (laws.orders leaf) (laws.orders (U.cancelOrder leaf engineId).2) := by
  by_cases hit : (U.cancelOrder leaf engineId).1 = .ok true
  · rw [(laws.cancelled leaf engineId hit).2]
    exact .filter standing _
  · rw [laws.uncancelled leaf engineId hit]
    exact .refl standing

theorem evict_leafStep (standing : Standing (laws.orders leaf)) (sequence nowMs : Nat) :
    LeafStep sequence (laws.orders leaf) (laws.orders (U.evictExpiredOrders leaf nowMs).2) := by
  cases swept : (U.evictExpiredOrders leaf nowMs).1 with
  | error error =>
    rw [laws.unevicted leaf nowMs error swept]
    exact .refl standing
  | ok ids =>
    rw [(laws.evicted leaf nowMs ids swept).2]
    exact .filter standing _

end Leaves

/-- Every leaf holds different ids with a quantity each, and none of them is a sequence. -/
structure LeavesSound {U : Upstream} (laws : LeafLaws U) (sequence : Nat) (book : UnderlyingOrderBook U) : Prop where
  standing : ∀ address, Standing (laws.orders (book.leafAt address))
  fresh : ∀ address, sequence ∉ idsOf (laws.orders (book.leafAt address))

/-- What a command at a sequence can do to the leaves. -/
def LeavesStep {U : Upstream} (laws : LeafLaws U) (sequence : Nat) (before after : UnderlyingOrderBook U) : Prop :=
  ∀ address, LeafStep sequence (laws.orders (before.leafAt address)) (laws.orders (after.leafAt address))

namespace LeavesStep
variable {U : Upstream} {laws : LeafLaws U} {sequence : Nat} {before middle after : UnderlyingOrderBook U}

theorem trans (first : LeavesStep laws sequence before middle) (second : LeavesStep laws sequence middle after) :
    LeavesStep laws sequence before after :=
  fun address => (first address).trans (second address)

theorem refl (standing : ∀ address, Standing (laws.orders (before.leafAt address))) :
    LeavesStep laws sequence before before :=
  fun address => .refl (standing address)

theorem vivify (standing : ∀ address, Standing (laws.orders (before.leafAt address))) (address : LeafAddress) :
    LeavesStep laws sequence before (before.vivify address) := by
  intro other
  rw [leafAt_vivify]
  exact .refl (standing other)

/-- One leaf is written. -/
theorem setLeaf (steps : LeavesStep laws sequence before middle)
    {address : LeafAddress} {leaf : U.Leaf}
    (step : LeafStep sequence (laws.orders (before.leafAt address)) (laws.orders leaf)) :
    LeavesStep laws sequence before (middle.setLeaf address leaf) := by
  intro other
  by_cases here : other = address
  · subst here
    cases present : middle.leaf? other with
    | none =>
      have same : (middle.setLeaf other leaf).leafAt other = middle.leafAt other := by
        unfold leafAt
        rw [leaf?_setLeaf, if_pos rfl, present]
        rfl
      rw [same]
      exact steps other
    | some old =>
      rw [leafAt_setLeaf_self _ _ (by rw [present]; rfl)]
      exact step
  · rw [leafAt_setLeaf_of_ne _ _ here]
    exact steps other

end LeavesStep

namespace SequencedState
variable {U : Upstream} {laws : LeafLaws U} {state : SequencedState U} {ctx : ExecutionContext} (visits : VisitOrder)

theorem executeAddOrder_leaves (sound : LeavesSound laws ctx.sequence state.underlyingBook) (placement : Placement)
    (orderType : OrderType) (limitPrice : Option Nat) : LeavesStep laws ctx.sequence state.underlyingBook
      (state.executeAddOrder visits ctx placement orderType limitPrice).2.underlyingBook := by
  unfold executeAddOrder
  split
  · exact .refl sound.standing
  next address book resolved =>
    obtain ⟨-, rfl⟩ := resolveLeafVivify_eq_ok.1 resolved
    have vivified : LeavesStep laws ctx.sequence state.underlyingBook (state.underlyingBook.vivify address) :=
      .vivify sound.standing address
    have standing := sound.standing address
    have fresh := sound.fresh address
    dsimp only
    split
    · exact vivified
    · split
      · refine vivified.setLeaf ?_
        rw [leafAt_vivify]
        exact executeMarket_leafStep laws visits _ standing fresh
      · exact vivified
      next price =>
        refine vivified.setLeaf ?_
        rw [leafAt_vivify]
        exact runAdd_leafStep laws visits _ standing fresh price

theorem executeReplace_leaves (sound : LeavesSound laws ctx.sequence state.underlyingBook) (order : Replace) :
    LeavesStep laws ctx.sequence state.underlyingBook (state.executeReplace visits ctx order).2.underlyingBook := by
  unfold executeReplace
  split
  · exact .refl sound.standing
  next address book resolved =>
    obtain ⟨-, rfl⟩ := resolveLeafVivify_eq_ok.1 resolved
    have vivified : LeavesStep laws ctx.sequence state.underlyingBook (state.underlyingBook.vivify address) :=
      .vivify sound.standing address
    dsimp only
    split
    · exact vivified
    next engineId named =>
      split
      · exact vivified
      · have cancelled := cancel_leafStep laws (sound.standing address) ctx.sequence engineId
        rw [leafAt_vivify]
        split
        next leaf hit =>
          rw [hit] at cancelled
          split
          next price priced =>
            refine vivified.setLeaf (cancelled.trans ?_)
            refine runAdd_leafStep laws visits _ cancelled.standing (fun listed => ?_) price
            -- the cancel has left ids of the leaf only
            have result : (U.cancelOrder (state.underlyingBook.leafAt address) engineId).1 = .ok true := by rw [hit]
            have left := (laws.cancelled _ _ result).2
            rw [hit] at left
            rw [left] at listed
            exact sound.fresh address ((List.filter_sublist.map _).subset listed)
          next => exact vivified.setLeaf cancelled
        next result leaf missed other =>
          rw [other] at cancelled
          exact vivified.setLeaf cancelled

theorem executeCancel_leaves (sound : LeavesSound laws ctx.sequence state.underlyingBook) (symbol : Symbol)
    (orderId : VenueOrderId) (account : AccountId) : LeavesStep laws ctx.sequence state.underlyingBook
      (state.executeCancel symbol orderId account).2.underlyingBook := by
  have unmoved : LeavesStep laws ctx.sequence state.underlyingBook state.underlyingBook := .refl sound.standing
  unfold executeCancel
  split
  · exact unmoved
  next address leaf resolved =>
    obtain ⟨-, -, rfl⟩ := resolveLeafRead_eq_some resolved
    split
    · exact unmoved
    next engineId named =>
      have cancelled := cancel_leafStep laws (sound.standing address) ctx.sequence engineId
      split
      · exact unmoved
      · split
        all_goals
          next leaf result =>
            rw [result] at cancelled
            exact unmoved.setLeaf cancelled

theorem cancelTargets_leaves {sequence : Nat}
    (standing : ∀ address, Standing (laws.orders (state.underlyingBook.leafAt address)))
    (targets : List (Nat × RestingRecord)) :
    LeavesStep laws sequence state.underlyingBook (state.cancelTargets targets).2.underlyingBook := by
  induction targets generalizing state with
  | nil => exact .refl standing
  | cons target rest ih =>
    obtain ⟨engineId, record⟩ := target
    simp only [cancelTargets]
    split
    · exact ih standing
    next address leaf resolved =>
      obtain ⟨-, -, rfl⟩ := resolveLeafRead_eq_some resolved
      have cancelled := cancel_leafStep laws (standing address) sequence engineId
      have written : ∀ registry, LeavesStep laws sequence state.underlyingBook (state.commitLeaf address registry
          (U.cancelOrder (state.underlyingBook.leafAt address) engineId).2).underlyingBook :=
        fun _ => (LeavesStep.refl standing).setLeaf cancelled
      split
      next leaf hit =>
        rw [hit] at written
        exact (written _).trans (ih fun other => (written (state.registry.removeResting engineId) other).standing)
      next result leaf missed other =>
        rw [other] at written
        exact (written _).trans (ih fun other => (written state.registry other).standing)

theorem evictLeaves_step {sequence : Nat} (nowMs : Nat) {book : UnderlyingOrderBook U}
    (standing : ∀ address, Standing (laws.orders (book.leafAt address))) (symbols : List Symbol) :
    LeavesStep laws sequence book (evictLeaves nowMs book symbols).2 := by
  induction symbols generalizing book with
  | nil => exact .refl standing
  | cons symbol rest ih =>
    have first : LeavesStep laws sequence book (evictLeaf nowMs book symbol).2 := by
      unfold evictLeaf
      split
      · exact .refl standing
      next address leaf resolved =>
        obtain ⟨-, -, rfl⟩ := resolveLeafRead_eq_some resolved
        have evicted := evict_leafStep laws (standing address) sequence nowMs
        split
        all_goals
          next result leaf swept =>
            rw [swept] at evicted
            exact (LeavesStep.refl standing).setLeaf evicted
    exact first.trans (ih fun address => (first address).standing)

/-- Whatever is executed, the one id that can join the leaves is the sequence of the command. -/
theorem execute_leaves (sound : LeavesSound laws ctx.sequence state.underlyingBook) :
    LeavesStep laws ctx.sequence state.underlyingBook (state.execute visits ctx).2.underlyingBook := by
  unfold execute
  split
  next order command =>
    have gate := executeAddOrder_leaves visits sound order.placement order.orderType order.limitPrice
    unfold addWithIdempotency
    split
    · exact gate
    · split
      · split <;> exact .refl sound.standing
      · exact gate
  · exact executeCancel_leaves sound _ _ _
  · exact executeReplace_leaves visits sound _
  · unfold executeMassCancel
    split
    · exact .refl sound.standing
    · exact cancelTargets_leaves sound.standing _
  · unfold executeSetInstrumentStatus
    split
    · exact .refl sound.standing
    next address book resolved =>
      obtain ⟨-, rfl⟩ := resolveLeafVivify_eq_ok.1 resolved
      dsimp only
      split <;> exact .vivify sound.standing address
  · exact evictLeaves_step _ sound.standing _
  · unfold executeMarketMakerControl
    split
    · exact cancelTargets_leaves sound.standing _
    · exact .refl sound.standing
  · exact .refl sound.standing
  · exact .refl sound.standing

end SequencedState

/-- An order rests: the venue has recorded whose it is, and it stands in the leaf of its symbol. -/
structure Rests (home : Symbol → Option LeafAddress) (view : BookView) (id : Nat) (record : RestingRecord) : Prop where
  recorded : view.registry.resting[id]? = some record
  stands : ∃ address, home record.symbol = some address ∧ id ∈ idsOf (view.orders address)

/-- Orders leave the venue, and whether any other rests is untouched. -/
def Loses (home : Symbol → Option LeafAddress) (before after : BookView) (ids : List Nat) : Prop :=
  ∀ id record, Rests home after id record ↔ Rests home before id record ∧ id ∉ ids

section Losses
variable {home : Symbol → Option LeafAddress} {before middle after : BookView} {ids others : List Nat}

theorem Loses.none (view : BookView) : Loses home view view [] :=
  fun _ _ => ⟨fun rests => ⟨rests, List.not_mem_nil⟩, And.left⟩

theorem Loses.append (first : Loses home before middle ids) (second : Loses home middle after others) :
    Loses home before after (ids ++ others) := by
  intro id record
  rw [second id record, first id record, List.mem_append, not_or, and_assoc]

/-- An order is taken out of a leaf and out of the registry. -/
theorem Loses.dropped (address : LeafAddress) (engineId : Nat) :
    Loses home before (before.set address ((before.orders address).filter fun order => order.id ≠ engineId)
      (before.registry.removeResting engineId)) [engineId] := by
  have elsewhere : ∀ id place, id ≠ engineId →
      (id ∈ idsOf ((before.set address ((before.orders address).filter fun order => order.id ≠ engineId)
        (before.registry.removeResting engineId)).orders place) ↔ id ∈ idsOf (before.orders place)) := by
    intro id place apart
    by_cases here : place = address
    · subst here
      rw [BookView.set_orders_self, mem_idsOf_filter_ne]
      exact and_iff_left apart
    · rw [BookView.set_orders_of_ne here]
  intro id other
  rw [List.mem_singleton]
  constructor
  · rintro ⟨recorded, place, there, listed⟩
    rw [BookView.set_registry, OrderRegistry.removeResting_getElem?] at recorded
    split at recorded
    · cases recorded
    next unlike =>
      have apart : id ≠ engineId := Ne.symm unlike
      exact ⟨⟨recorded, place, there, (elsewhere id place apart).1 listed⟩, apart⟩
  · rintro ⟨⟨recorded, place, there, listed⟩, apart⟩
    refine ⟨?_, place, there, (elsewhere id place apart).2 listed⟩
    rw [BookView.set_registry, OrderRegistry.removeResting_getElem?, if_neg (Ne.symm apart)]
    exact recorded

end Losses

/-- The sweep asks for the orders of a record. -/
def Sweep.Matches (U : Upstream) (sweep : Sweep) (record : RestingRecord) : Prop :=
  massCancelMatches U record sweep.scope ((scopeExpiry U sweep.scope).bind Except.toOption) sweep.cancelType
    sweep.account = true

section Taking
variable {U : Upstream} {laws : LeafLaws U} {state : SequencedState U} (cancels : CancelsResting laws)

include cancels in
/-- Of recorded orders, those that rest are cancelled and reported, and nothing else goes. -/
theorem cancelTargets_loses {targets : List (Nat × RestingRecord)} (distinct : (targets.map Prod.fst).Nodup)
    (valid : ∀ target ∈ targets, state.registry.resting[target.1]? = some target.2) :
    ∃ taken : List (Nat × RestingRecord), taken.Sublist targets ∧
      (∀ target ∈ targets, target ∈ taken ↔ Rests state.home (laws.viewOf state) target.1 target.2) ∧
      (state.cancelTargets targets).1 = taken.map (fun target => massCancelLeg target.2) ∧
      Loses state.home (laws.viewOf state) (laws.viewOf (state.cancelTargets targets).2) (taken.map Prod.fst) := by
  induction targets generalizing state with
  | nil => exact ⟨[], .slnil, List.forall_mem_nil _, rfl, .none _⟩
  | cons target rest ih =>
    obtain ⟨engineId, record⟩ := target
    obtain ⟨unlike, apart⟩ := List.nodup_cons.1 distinct
    have here : state.registry.resting[engineId]? = some record := valid (engineId, record) (by simp)
    have later : ∀ target ∈ rest, target.1 ≠ engineId ∧ state.registry.resting[target.1]? = some target.2 := by
      intro target member
      have listed : target.1 ∈ rest.map Prod.fst := List.mem_map_of_mem member
      exact ⟨fun same => unlike (same ▸ listed), valid target (List.mem_cons_of_mem _ member)⟩
    -- the head is passed over where it does not rest
    have skip : ∀ {middle : SequencedState U}, middle.home = state.home → middle.registry = state.registry →
        laws.viewOf middle = laws.viewOf state → ¬Rests state.home (laws.viewOf state) engineId record →
        (state.cancelTargets ((engineId, record) :: rest)) = middle.cancelTargets rest →
        ∃ taken : List (Nat × RestingRecord), taken.Sublist ((engineId, record) :: rest) ∧
          (∀ target ∈ (engineId, record) :: rest,
            target ∈ taken ↔ Rests state.home (laws.viewOf state) target.1 target.2) ∧
          (state.cancelTargets ((engineId, record) :: rest)).1 = taken.map (fun target => massCancelLeg target.2) ∧
          Loses state.home (laws.viewOf state) (laws.viewOf (state.cancelTargets ((engineId, record) :: rest)).2)
            (taken.map Prod.fst) := by
      intro middle home registry same absent swept
      obtain ⟨taken, listed, exact', told, loses⟩ := @ih middle apart
        fun target member => registry ▸ (later target member).2
      rw [home, same] at exact' loses
      rw [swept]
      have left : (engineId, record) ∉ taken := fun member => unlike (List.mem_map_of_mem (listed.subset member))
      exact ⟨taken, listed.cons _, List.forall_mem_cons.2 ⟨iff_of_false left absent, exact'⟩, told, loses⟩
    cases resolved : state.underlyingBook.resolveLeafRead record.symbol with
    | none =>
      refine skip rfl rfl rfl ?_ (by simp only [SequencedState.cancelTargets, resolved])
      rintro ⟨-, address, lives, listed⟩
      obtain ⟨leaf, found⟩ := Option.isSome_iff_exists.1 (present_of_rests listed)
      have lives : addressOf? U state.underlyingBook.underlying record.symbol = some address := lives
      rw [resolveLeafRead_eq, lives, Option.bind_some, found] at resolved
      cases resolved
    | some found =>
      obtain ⟨address, leaf⟩ := found
      obtain ⟨lives, present, rfl⟩ := resolveLeafRead_eq_some resolved
      have lives : state.home record.symbol = some address := lives
      by_cases hit : (U.cancelOrder (state.underlyingBook.leafAt address) engineId).1 = .ok true
      · obtain ⟨rests, left⟩ := laws.cancelled _ _ hit
        let middle := state.commitLeaf address (state.registry.removeResting engineId)
          (U.cancelOrder (state.underlyingBook.leafAt address) engineId).2
        have viewed : laws.viewOf middle = (laws.viewOf state).set address
            (((laws.viewOf state).orders address).filter fun order => order.id ≠ engineId)
            ((laws.viewOf state).registry.removeResting engineId) := by
          rw [viewOf_commitLeaf present, left]
          rfl
        have first : Loses state.home (laws.viewOf state) (laws.viewOf middle) [engineId] :=
          viewed ▸ .dropped address engineId
        have remains : ∀ target ∈ rest, middle.registry.resting[target.1]? = some target.2 := by
          intro target member
          obtain ⟨unlike, registered⟩ := later target member
          change (state.registry.removeResting engineId).resting[target.1]? = _
          rw [OrderRegistry.removeResting_getElem?, if_neg (Ne.symm unlike), registered]
        obtain ⟨taken, listed, exact', told, loses⟩ := @ih middle apart remains
        have swept : state.cancelTargets ((engineId, record) :: rest) =
            (massCancelLeg record :: (middle.cancelTargets rest).1, (middle.cancelTargets rest).2) := by
          simp only [SequencedState.cancelTargets, resolved, middle]
          split
          next leaf result => rw [result]
          next result leaf missed other =>
            rw [other] at hit
            exact absurd hit missed
        rw [swept]
        refine ⟨(engineId, record) :: taken, listed.cons_cons _, List.forall_mem_cons.2 ⟨?_, fun target member => ?_⟩,
          congrArg _ told, first.append loses⟩
        · exact iff_of_true (by simp) ⟨here, address, lives, rests⟩
        · obtain ⟨unlike, -⟩ := later target member
          have head : target ≠ (engineId, record) := fun same => unlike (congrArg Prod.fst same)
          rw [List.mem_cons, or_iff_right head, exact' target member]
          refine (first target.1 target.2).trans (and_iff_left ?_)
          rwa [List.mem_singleton]
      · have same : laws.viewOf (state.commitLeaf address state.registry
            (U.cancelOrder (state.underlyingBook.leafAt address) engineId).2) = laws.viewOf state :=
          uncancelled_view hit
        refine @skip (state.commitLeaf address state.registry _) rfl rfl same ?_ ?_
        · rintro ⟨-, place, there, listed⟩
          obtain rfl := Option.some.inj (there.symm.trans lives)
          exact hit (cancels _ _ listed)
        · simp only [SequencedState.cancelTargets, resolved]

include cancels in
/-- A sweep takes the orders that it asks for and that rest, and no other. -/
theorem sweeping_loses (sweep : Sweep) (visits : VisitOrder) (round : Nat) :
    ∃ taken : List (Nat × RestingRecord), (taken.map Prod.fst).Nodup ∧
      (∀ id record,
        (id, record) ∈ taken ↔ Rests state.home (laws.viewOf state) id record ∧ sweep.Matches U record) ∧
      (state.sweeping visits round sweep).1 = taken.map (fun target => massCancelLeg target.2) ∧
      Loses state.home (laws.viewOf state) (laws.viewOf (state.sweeping visits round sweep).2)
        (taken.map Prod.fst) := by
  have distinct := @nodup_sweepTargets U state visits round sweep.scope sweep.cancelType sweep.account
  obtain ⟨taken, listed, exact', told, loses⟩ := cancelTargets_loses cancels distinct
    fun target member => (mem_sweepTargets.1 member).1
  refine ⟨taken, distinct.sublist (listed.map _), fun id record => ⟨fun member => ?_, ?_⟩, told, loses⟩
  · have target := listed.subset member
    exact ⟨(exact' _ target).1 member, (mem_sweepTargets.1 target).2⟩
  · rintro ⟨rests, asked⟩
    exact (exact' (id, record) (mem_sweepTargets.2 ⟨rests.recorded, asked⟩)).2 rests

end Taking

end Fauxchange.Exchange
