import Fauxchange.Exchange.PositionFold
import Fauxchange.Lib.TruncatedShare
import Mathlib.Data.Finset.Dedup
import Mathlib.Data.Finset.Max

/-! The price an open position shows. Each partial close truncates the cost that leaves, and what stays is
still worth, for each contract, between the least and the greatest price the position was entered at. -/

namespace Fauxchange.Exchange

namespace Side
variable {side other : Side}

@[simp] theorem signed_natAbs (side : Side) (quantity : Nat) : (side.signed quantity).natAbs = quantity := by
  cases side <;> simp [signed]

theorem signed_mul (side : Side) (quantity factor : Int) :
    side.signed quantity * factor = side.signed (quantity * factor) := by
  cases side
  · rfl
  · exact Int.neg_mul quantity factor

theorem signed_add (side : Side) (first second : Int) :
    side.signed first + side.signed second = side.signed (first + second) := by
  cases side <;> simp only [signed]
  omega

theorem signed_sub (side : Side) (first second : Int) :
    side.signed first - side.signed second = side.signed (first - second) := by
  cases side <;> simp only [signed]
  omega

theorem signed_tdiv (side : Side) (quantity parts : Nat) :
    (side.signed quantity).tdiv parts = side.signed (quantity / parts : Nat) := by
  cases side
  · exact (Int.ofNat_tdiv quantity parts).symm
  · rw [signed, signed, Int.neg_tdiv, Int.ofNat_tdiv]

/-- The other side takes away. -/
theorem signed_of_ne (apart : other ≠ side) (quantity : Int) : other.signed quantity = -side.signed quantity := by
  cases side <;> cases other <;> simp [signed] at apart ⊢

theorem signed_alike {first second : Nat} (started : 0 < first) (positive : 0 < second) :
    (0 < side.signed first ↔ 0 < other.signed second) ↔ other = side := by
  cases side <;> cases other <;> simp [signed] <;> omega

theorem signed_sign {first second : Nat} (started : 0 < first) (positive : 0 < second) :
    (side.signed first).sign = (side.signed second).sign := by
  have one : (first : Int).sign = 1 := Int.sign_eq_one_of_pos (Int.natCast_pos.2 started)
  have other : (second : Int).sign = 1 := Int.sign_eq_one_of_pos (Int.natCast_pos.2 positive)
  cases side <;> simp [signed, one, other]

theorem signed_eq_zero {quantity : Nat} : side.signed quantity = 0 ↔ quantity = 0 := by
  cases side <;> simp [signed]

end Side

/-- What a sequence of legs leaves open: the net quantity, and the prices of the legs that opened or increased
it since it was last flat or flipped. -/
structure OpenLegs where
  net : Int
  entries : List Nat
  deriving DecidableEq

namespace OpenLegs

def flat : OpenLegs := ⟨0, []⟩

def take (held : OpenLegs) (leg : PositionLeg) : OpenLegs :=
  let net := held.net + leg.signed
  if held.net = 0 then ⟨net, [leg.price]⟩
  else if 0 < held.net ↔ 0 < leg.signed then ⟨net, leg.price :: held.entries⟩
  else if net = 0 then flat
  else if leg.signed.natAbs < held.net.natAbs then ⟨net, held.entries⟩
  else ⟨net, [leg.price]⟩

def after (legs : List PositionLeg) : OpenLegs := legs.foldl take flat

/-- The contracts that are open and their cost, both counted along one side. -/
structure Costs (entries : List Nat) (side : Side) (contracts cost : Nat) : Prop where
  contracts_pos : 0 < contracts
  entered : entries ≠ []
  bounded : ∀ low high, (∀ price ∈ entries, low ≤ price ∧ price ≤ high) →
    low * contracts ≤ cost ∧ cost ≤ high * contracts

section Costs
variable {entries : List Nat} {side : Side} {contracts cost quantity price : Nat}

theorem Costs.opened (side : Side) (price : Nat) (positive : 0 < quantity) :
    Costs [price] side quantity (quantity * price) := by
  refine ⟨positive, List.cons_ne_nil _ _, ?_⟩
  intro low high bounds
  obtain ⟨least, greatest⟩ := bounds price (List.mem_singleton_self price)
  rw [Nat.mul_comm quantity]
  exact ⟨Nat.mul_le_mul_right _ least, Nat.mul_le_mul_right _ greatest⟩

theorem Costs.increased (costs : Costs entries side contracts cost) :
    Costs (price :: entries) side (contracts + quantity) (cost + quantity * price) := by
  refine ⟨Nat.add_pos_left costs.contracts_pos _, List.cons_ne_nil _ _, ?_⟩
  intro low high bounds
  obtain ⟨least, greatest⟩ := bounds price List.mem_cons_self
  obtain ⟨below, above⟩ := costs.bounded low high fun entry member => bounds entry (List.mem_cons_of_mem _ member)
  rw [Nat.mul_add, Nat.mul_add, Nat.mul_comm quantity]
  exact ⟨Nat.add_le_add below (Nat.mul_le_mul_right _ least), Nat.add_le_add above (Nat.mul_le_mul_right _ greatest)⟩

theorem Costs.reduced (costs : Costs entries side contracts cost) (partly : quantity < contracts) :
    Costs entries side (contracts - quantity) (cost - cost * quantity / contracts) := by
  refine ⟨Nat.sub_pos_of_lt partly, costs.entered, ?_⟩
  intro low high bounds
  obtain ⟨below, above⟩ := costs.bounded low high bounds
  exact ⟨TruncatedShare.low_left costs.contracts_pos below,
    TruncatedShare.high_left costs.contracts_pos partly.le above⟩

end Costs

/-- A fold that holds what the legs leave open, at a cost the entry prices account for. -/
structure Holds (held : OpenLegs) (net basis : Int) : Prop where
  net_eq : net = held.net
  costs : net ≠ 0 → ∃ side contracts cost, Costs held.entries side contracts cost ∧
    net = side.signed contracts ∧ basis = side.signed cost

theorem holds_flat (entries : List Nat) (basis : Int) : Holds ⟨0, entries⟩ 0 basis :=
  ⟨rfl, fun opened => absurd rfl opened⟩

section Step
variable {held : OpenLegs} {leg : PositionLeg} {net basis : Int}

theorem Holds.opens (holds : Holds held 0 basis) (settled : basis = 0) (positive : 0 < leg.quantity) :
    Holds (held.take leg) (0 + leg.signed) (PositionState.basisAfter 0 basis leg.signed leg.price) := by
  have before : held.net = 0 := holds.net_eq.symm
  have taken : held.take leg = ⟨held.net + leg.signed, [leg.price]⟩ := if_pos before
  have grown : PositionState.basisAfter 0 basis leg.signed leg.price = basis + leg.signed * leg.price := if_pos (.inl rfl)
  rw [taken, grown, before, settled, Int.zero_add, Int.zero_add]
  refine ⟨rfl, fun _ => ⟨leg.side, leg.quantity, leg.quantity * leg.price, Costs.opened _ _ positive, rfl, ?_⟩⟩
  exact Side.signed_mul leg.side leg.quantity leg.price

theorem Holds.takes (holds : Holds held net basis) (settled : net = 0 → basis = 0) (positive : 0 < leg.quantity) :
    Holds (held.take leg) (net + leg.signed) (PositionState.basisAfter net basis leg.signed leg.price) := by
  by_cases opened : net = 0
  · subst opened
    exact holds.opens (settled rfl) positive
  obtain ⟨side, contracts, cost, costs, rfl, rfl⟩ := holds.costs opened
  have started := costs.contracts_pos
  have before : held.net = side.signed contracts := holds.net_eq.symm
  have alike : (0 < side.signed contracts ↔ 0 < leg.side.signed leg.quantity) ↔ leg.side = side :=
    Side.signed_alike started positive
  unfold take PositionState.basisAfter
  rw [before, if_neg opened]
  by_cases same : leg.side = side
  · have along : leg.signed = side.signed leg.quantity := by rw [PositionLeg.signed, same]
    have increasing : 0 < side.signed contracts ↔ 0 < leg.signed := alike.2 same
    rw [if_pos increasing, if_pos (.inr increasing)]
    refine ⟨rfl, fun _ => ⟨side, contracts + leg.quantity, cost + leg.quantity * leg.price, costs.increased, ?_, ?_⟩⟩
    · rw [along, Side.signed_add]
      rfl
    · rw [along, Side.signed_mul, Side.signed_add]
      rfl
  · have against : leg.signed = -side.signed leg.quantity := Side.signed_of_ne same leg.quantity
    have opposite : ¬ (0 < side.signed contracts ↔ 0 < leg.signed) := fun together => same (alike.1 together)
    have size : leg.signed.natAbs = leg.quantity := Side.signed_natAbs leg.side leg.quantity
    have whole : (side.signed contracts).natAbs = contracts := Side.signed_natAbs side contracts
    have left : side.signed contracts + leg.signed = side.signed (contracts - leg.quantity) := by
      rw [against, ← Int.sub_eq_add_neg, Side.signed_sub]
    rw [if_neg opposite, if_neg (not_or.2 ⟨opened, opposite⟩), size, whole]
    by_cases closed : side.signed contracts + leg.signed = 0
    · rw [if_pos closed, closed]
      exact holds_flat _ _
    rw [if_neg closed]
    by_cases partly : leg.quantity < contracts
    · rw [if_pos partly, if_pos partly.le, if_neg closed]
      refine ⟨rfl, fun _ => ⟨side, contracts - leg.quantity, cost - cost * leg.quantity / contracts,
        costs.reduced partly, ?_, ?_⟩⟩
      · rw [left, Int.ofNat_sub partly.le]
      · have share : cost * leg.quantity / contracts ≤ cost := TruncatedShare.share_le partly.le
        have removed : (side.signed cost * leg.quantity).tdiv contracts =
            side.signed (cost * leg.quantity / contracts : Nat) := by
          rw [Side.signed_mul]
          exact Side.signed_tdiv side (cost * leg.quantity) contracts
        rw [removed, Side.signed_sub, Int.ofNat_sub share]
    · -- the leg flips the position: what it does not close opens at its price
      have beyond : contracts < leg.quantity := by
        apply Nat.lt_of_le_of_ne (Nat.le_of_not_lt partly)
        rintro rfl
        apply closed
        rw [against]
        exact Int.add_right_neg _
      have opens : side.signed contracts + leg.signed = leg.side.signed (leg.quantity - contracts : Nat) := by
        have turned : side.signed contracts = -leg.side.signed contracts := Side.signed_of_ne (Ne.symm same) contracts
        rw [turned, PositionLeg.signed, Int.add_comm, ← Int.sub_eq_add_neg, Side.signed_sub, Int.ofNat_sub beyond.le]
      rw [if_neg partly, if_neg (Nat.not_le.2 beyond), opens]
      refine ⟨rfl, fun _ => ⟨leg.side, leg.quantity - contracts, (leg.quantity - contracts) * leg.price,
        Costs.opened _ _ (Nat.sub_pos_of_lt beyond), rfl, ?_⟩⟩
      exact Side.signed_mul leg.side _ leg.price

theorem Holds.folded {state last : PositionState} {legs : List PositionLeg}
    (holds : Holds held state.netQuantity state.basis) (settled : state.Settled)
    (positive : ∀ leg ∈ legs, 0 < leg.quantity) (folded : state.foldAll legs = .ok last) :
    Holds (legs.foldl take held) last.netQuantity last.basis := by
  induction legs generalizing state held with
  | nil =>
    cases folded
    exact holds
  | cons leg rest ih =>
    simp only [PositionState.foldAll] at folded
    split at folded
    next next step =>
      obtain ⟨quantity, -, -, basis⟩ := PositionState.fold_ok step
      apply ih _ (settled.folded step) (fun leg member => positive leg (List.mem_cons_of_mem _ member)) folded
      rw [quantity, basis]
      exact holds.takes settled (positive leg List.mem_cons_self)
    next => cases folded

theorem take_entries {bound : Nat} (priced : leg.price ≤ bound) (entered : ∀ price ∈ held.entries, price ≤ bound) :
    ∀ price ∈ (held.take leg).entries, price ≤ bound := by
  unfold take
  dsimp only
  split_ifs
  · simp [priced]
  · simpa [priced] using entered
  · simp [flat]
  · exact entered
  · simp [priced]

theorem foldl_entries {bound : Nat} {legs : List PositionLeg} (priced : ∀ leg ∈ legs, leg.price ≤ bound)
    (entered : ∀ price ∈ held.entries, price ≤ bound) :
    ∀ price ∈ (legs.foldl take held).entries, price ≤ bound := by
  induction legs generalizing held with
  | nil => exact entered
  | cons leg rest ih =>
    apply ih fun leg member => priced leg (List.mem_cons_of_mem _ member)
    exact take_entries (priced leg List.mem_cons_self) entered

end Step

end OpenLegs

namespace PositionState
variable {state : PositionState} {legs : List PositionLeg}

theorem project_avgPrice {account : AccountId} {symbol : Symbol} {mark : Option Nat} {position : Position}
    (projected : state.project account symbol mark = .ok position) : state.avgPrice = .ok position.avgPrice := by
  simp only [project, bind, Except.bind, pure, Except.pure] at projected
  split at projected
  · cases projected
  next price average =>
    split at projected
    · cases projected
    split at projected
    · cases projected
    split at projected
    · cases projected
    split at projected
    · cases projected
      exact average
    split at projected
    · cases projected
    · cases projected
      exact average

/-- An open position is priced between the least and the greatest price of the legs that entered it. -/
structure EntryPriced (legs : List PositionLeg) (state : PositionState) (low high : Nat) : Prop where
  net : (OpenLegs.after legs).net = state.netQuantity
  least : IsLeast {price | price ∈ (OpenLegs.after legs).entries} low
  greatest : IsGreatest {price | price ∈ (OpenLegs.after legs).entries} high
  sign : state.basis = 0 ∨ state.basis.sign = state.netQuantity.sign
  low_le : low * state.netQuantity.natAbs ≤ state.basis.natAbs
  le_high : state.basis.natAbs ≤ high * state.netQuantity.natAbs
  /-- The price that is shown is computed, and lies in the range. -/
  average : ∃ price, state.avgPrice = .ok price ∧ low ≤ price ∧ price ≤ high
  shown : ∀ account symbol mark position, state.project account symbol mark = .ok position →
    low ≤ position.avgPrice ∧ position.avgPrice ≤ high

theorem avgPrice_between {low high : Nat} (opened : state.netQuantity ≠ 0)
    (below : low * state.netQuantity.natAbs ≤ state.basis.natAbs)
    (above : state.basis.natAbs ≤ high * state.netQuantity.natAbs) (width : high ≤ u64Max) :
    ∃ price, state.avgPrice = .ok price ∧ low ≤ price ∧ price ≤ high := by
  have contracts : 0 < state.netQuantity.natAbs := Int.natAbs_pos.2 opened
  have atMost : state.basis.natAbs / state.netQuantity.natAbs ≤ high :=
    Nat.div_le_of_le_mul (by rwa [Nat.mul_comm])
  have atLeast : low ≤ state.basis.natAbs / state.netQuantity.natAbs := (Nat.le_div_iff_mul_le contracts).2 below
  refine ⟨_, ?_, atLeast, atMost⟩
  rw [avgPrice, if_neg opened]
  exact if_pos (atMost.trans width)

theorem exists_range {entries : List Nat} (entered : entries ≠ []) :
    ∃ low high, IsLeast {price | price ∈ entries} low ∧ IsGreatest {price | price ∈ entries} high := by
  have nonempty : entries.toFinset.Nonempty := List.toFinset_nonempty_iff entries |>.2 entered
  rw [← List.coe_toFinset]
  exact ⟨_, _, entries.toFinset.isLeast_min' nonempty, entries.toFinset.isGreatest_max' nonempty⟩

/-- Any legs with contracts in them that a fresh fold accepts leave an open position priced at its entries. -/
theorem foldAll_entryPriced {underlying : String} (positive : ∀ leg ∈ legs, 0 < leg.quantity)
    (priced : ∀ leg ∈ legs, leg.price ≤ u64Max) (accepted : (new underlying).foldAll legs = .ok state)
    (opened : state.netQuantity ≠ 0) : ∃ low high, EntryPriced legs state low high := by
  have start : OpenLegs.Holds OpenLegs.flat (new underlying).netQuantity (new underlying).basis :=
    OpenLegs.holds_flat [] 0
  have holds : OpenLegs.Holds (OpenLegs.after legs) state.netQuantity state.basis :=
    start.folded (settled_new underlying) positive accepted
  obtain ⟨side, contracts, cost, costs, net, basis⟩ := holds.costs opened
  obtain ⟨low, high, least, greatest⟩ := exists_range costs.entered
  have within : ∀ price ∈ (OpenLegs.after legs).entries, low ≤ price ∧ price ≤ high := fun price member =>
    ⟨least.2 member, greatest.2 member⟩
  obtain ⟨below, above⟩ := costs.bounded low high within
  have size : state.netQuantity.natAbs = contracts := by rw [net, Side.signed_natAbs]
  have worth : state.basis.natAbs = cost := by rw [basis, Side.signed_natAbs]
  rw [← size, ← worth] at below above
  have width : high ≤ u64Max := OpenLegs.foldl_entries priced (by simp [OpenLegs.flat]) high greatest.1
  obtain ⟨price, averaged, atLeast, atMost⟩ := avgPrice_between opened below above width
  refine ⟨low, high, holds.net_eq.symm, least, greatest, ?_, below, above, ⟨price, averaged, atLeast, atMost⟩, ?_⟩
  · rcases Nat.eq_zero_or_pos cost with free | charged
    · left
      rw [basis, free, Side.signed_eq_zero.2 rfl]
    · right
      rw [basis, net]
      exact Side.signed_sign charged costs.contracts_pos
  · intro account symbol mark position projected
    have same : .ok price = Except.ok position.avgPrice := averaged.symm.trans (project_avgPrice projected)
    cases same
    exact ⟨atLeast, atMost⟩

/-- Three short at 100 and 101, of which one is bought back: the truncated basis stays in the range. -/
def shortLegs : List PositionLeg :=
  [⟨"acct-1", "BTC-20351231-50000-C", "BTC", .sell, 2, 100, 3⟩, ⟨"acct-1", "BTC-20351231-50000-C", "BTC", .sell, 1, 101, 0⟩,
    ⟨"acct-1", "BTC-20351231-50000-C", "BTC", .buy, 1, 120, -1⟩]

theorem short_entryPriced :
    (new "BTC").foldAll shortLegs = .ok ⟨"BTC", -2, -201, 181, 2⟩ ∧
      ∃ low high, EntryPriced shortLegs ⟨"BTC", -2, -201, 181, 2⟩ low high :=
  ⟨by decide, @foldAll_entryPriced _ shortLegs "BTC" (by decide) (by decide) (by decide) (by decide)⟩

end PositionState

end Fauxchange.Exchange
