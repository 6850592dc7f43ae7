import Fauxchange.Exchange.PositionFold
import Fauxchange.Lib.TruncatedShare

/-! What a failing fold leaves behind. The accumulators are written one after another, each behind its own
check, and the entry exists before the first of them: a check that fails late leaves a position that holds some
of the leg's writes and not the others. -/

namespace Fauxchange.Exchange
open Lib

instance Fits.decidable (width : Nat) (value : Int) : Decidable (Fits width value) := by unfold Fits; infer_instance

theorem checkedI64_exceeds {value : Int} (exceeds : ¬Fits 63 value) : checkedI64 value = .error .arithmetic := by
  apply if_pos
  unfold Fits at exceeds
  omega

theorem checkedI128_exceeds {value : Int} (exceeds : ¬Fits 127 value) : checkedI128 value = .error .arithmetic := by
  apply if_pos
  unfold Fits at exceeds
  omega

namespace PositionLeg
variable (leg : PositionLeg)

/-- The signed value of a leg in cents. -/
def notional : Int := leg.signed * leg.price

theorem signed_natAbs : leg.signed.natAbs = leg.quantity := by
  unfold signed
  cases leg.side with
  | buy => exact Int.natAbs_natCast leg.quantity
  | sell => exact (Int.natAbs_neg _).trans (Int.natAbs_natCast leg.quantity)

/-- An accepted quantity times a price never leaves the wide integers. -/
theorem notional_fits (sized : Fits 63 leg.quantity) (priced : leg.price ≤ u64Max) : Fits 127 leg.notional := by
  have value : leg.notional.natAbs = leg.quantity * leg.price := by
    rw [notional, Int.natAbs_mul, signed_natAbs]
    rfl
  have small : leg.quantity ≤ 2 ^ 63 - 1 := by
    have upper := sized.2
    omega
  have product : leg.quantity * leg.price ≤ (2 ^ 63 - 1) * (2 ^ 64 - 1) := Nat.mul_le_mul small priced
  constructor <;> omega

end PositionLeg

namespace PositionState
variable {held : PositionState} {leg : PositionLeg}

/-- The accumulators are values of their machine types. -/
structure InRange (state : PositionState) : Prop where
  quantity : Fits 63 state.netQuantity
  basis : Fits 127 state.basis
  cash : Fits 127 state.cashExFee
  fees : Fits 127 state.fees

theorem inRange_new (underlying : String) : (new underlying).InRange := by
  constructor <;> exact ⟨by change -2 ^ _ ≤ (0 : Int); decide, by change (0 : Int) < 2 ^ _; decide⟩

/-- The leg opens the position or adds to it. -/
def Increases (held : PositionState) (leg : PositionLeg) : Prop :=
  held.netQuantity = 0 ∨ (0 < held.netQuantity ↔ 0 < leg.signed)

instance Increases.decidable : Decidable (held.Increases leg) := by unfold Increases; infer_instance

end PositionState

/-- How far a fold comes before a check fails: nothing is written, the fees, the cash too, the basis too. -/
inductive FoldStage where
  | begun | charged | paid | costed
  deriving DecidableEq, Repr

namespace PositionState
variable (held : PositionState) (leg : PositionLeg)

/-- The position with the writes up to a stage. -/
def written : FoldStage → PositionState
  | .begun => held
  | .charged => { held with fees := held.fees + leg.fee }
  | .paid => { held with fees := held.fees + leg.fee, cashExFee := held.cashExFee - leg.notional }
  | .costed => { held with
      fees := held.fees + leg.fee
      cashExFee := held.cashExFee - leg.notional
      basis := held.basis + leg.notional }

/-- The check after a stage is the first to fail. -/
def FailsAt : FoldStage → Prop
  | .begun => ¬Fits 63 leg.quantity ∨ ¬Fits 127 (held.fees + leg.fee)
  | .charged =>
    Fits 63 leg.quantity ∧ Fits 127 (held.fees + leg.fee) ∧ ¬Fits 127 (held.cashExFee - leg.notional)
  | .paid =>
    Fits 63 leg.quantity ∧ Fits 127 (held.fees + leg.fee) ∧ Fits 127 (held.cashExFee - leg.notional) ∧
      if held.Increases leg then ¬Fits 127 (held.basis + leg.notional)
      else leg.quantity ≤ held.netQuantity.natAbs ∧ ¬Fits 127 (held.basis * leg.quantity)
  | .costed =>
    Fits 63 leg.quantity ∧ Fits 127 (held.fees + leg.fee) ∧ Fits 127 (held.cashExFee - leg.notional) ∧
      held.Increases leg ∧ Fits 127 (held.basis + leg.notional) ∧ ¬Fits 63 (held.netQuantity + leg.signed)

/-- The writes up to a stage do not change the position: they add nothing to it. -/
def Idle : FoldStage → Prop
  | .begun => True
  | .charged => leg.fee = 0
  | .paid | .costed => leg.fee = 0 ∧ leg.notional = 0

theorem written_eq_iff (stage : FoldStage) : held.written leg stage = held ↔ Idle leg stage := by
  obtain ⟨underlying, net, basis, cash, fees⟩ := held
  cases stage <;> simp only [written, Idle, PositionState.mk.injEq, true_and] <;> omega

section Checks
variable {held leg}

/-- The cost that leaves on a partial close is a share of the basis. -/
theorem reduced_fits {basis : Int} {taken parts : Nat} (fits : Fits 127 basis) (within : taken ≤ parts) :
    Fits 127 (basis - (basis * taken).tdiv parts) := by
  have share : ((basis * taken).tdiv parts).natAbs ≤ basis.natAbs := by
    rw [Int.natAbs_tdiv, Int.natAbs_mul]
    exact TruncatedShare.share_le within
  have positive : 0 ≤ basis → 0 ≤ (basis * taken).tdiv parts := fun nonneg =>
    Int.tdiv_nonneg (Int.mul_nonneg nonneg (Int.natCast_nonneg taken)) (Int.natCast_nonneg parts)
  have negative : basis ≤ 0 → (basis * taken).tdiv parts ≤ 0 := by
    intro nonpos
    have opposite := Int.tdiv_nonneg (Int.mul_nonneg (Int.neg_nonneg.2 nonpos) (Int.natCast_nonneg taken))
      (Int.natCast_nonneg parts)
    rw [Int.neg_mul, Int.neg_tdiv] at opposite
    exact Int.neg_nonneg.1 opposite
  obtain ⟨low, high⟩ := fits
  constructor <;> omega

theorem signed_fits (sized : Fits 63 leg.quantity) : -2 ^ 63 < leg.signed ∧ leg.signed < 2 ^ 63 := by
  have size := leg.signed_natAbs
  have upper := sized.2
  omega

/-- Contracts of opposite signs add up to fewer of them. -/
theorem opposite_fits (ranged : held.InRange) (sized : Fits 63 leg.quantity) (opposite : ¬held.Increases leg) :
    Fits 63 (held.netQuantity + leg.signed) := by
  obtain ⟨low, high⟩ := ranged.quantity
  obtain ⟨lower, upper⟩ := signed_fits sized
  unfold Increases at opposite
  constructor <;> omega

theorem contracts_fits {contracts : Int} (fits : Fits 63 contracts) (priced : leg.price ≤ u64Max) :
    Fits 127 (contracts * leg.price) := by
  obtain ⟨low, high⟩ := fits
  have value : (contracts * leg.price).natAbs ≤ 2 ^ 63 * (2 ^ 64 - 1) := by
    rw [Int.natAbs_mul]
    exact Nat.mul_le_mul (by omega) priced
  constructor <;> omega

end Checks

section Basis
variable {held leg} {state : PositionState}

/-- A leg that opens or adds: the basis is written before the contracts are checked. -/
theorem foldBasis_increases (increases : state.Increases leg) :
    state.foldBasis leg.signed leg.notional leg.price =
      if Fits 127 (state.basis + leg.notional) then
        if Fits 63 (state.netQuantity + leg.signed) then
          (.ok (), { state with
            basis := state.basis + leg.notional
            netQuantity := state.netQuantity + leg.signed })
        else (.error .arithmetic, { state with basis := state.basis + leg.notional })
      else (.error .arithmetic, state) := by
  simp only [foldBasis, if_pos (show state.netQuantity = 0 ∨ (0 < state.netQuantity ↔ 0 < leg.signed) from increases)]
  by_cases grown : Fits 127 (state.basis + leg.notional)
  · rw [checkedI128_fits grown, if_pos grown]
    by_cases moved : Fits 63 (state.netQuantity + leg.signed)
    · simp only [checkedI64_fits moved, if_pos moved]
    · simp only [checkedI64_exceeds moved, if_neg moved]
  · rw [checkedI128_exceeds grown, if_neg grown]

theorem foldBasis_exceeds (opposite : ¬state.Increases leg) (smaller : leg.quantity ≤ state.netQuantity.natAbs)
    (exceeds : ¬Fits 127 (state.basis * leg.quantity)) :
    state.foldBasis leg.signed leg.notional leg.price = (.error .arithmetic, state) := by
  simp only [foldBasis, if_neg (show ¬(state.netQuantity = 0 ∨ (0 < state.netQuantity ↔ 0 < leg.signed)) from opposite),
    leg.signed_natAbs, if_pos smaller, checkedI128_exceeds exceeds]

/-- A leg that reduces or flips can only fail on the product with the basis. -/
theorem foldBasis_opposite (ranged : state.InRange) (sized : Fits 63 leg.quantity) (priced : leg.price ≤ u64Max)
    (opposite : ¬state.Increases leg)
    (worth : leg.quantity ≤ state.netQuantity.natAbs → Fits 127 (state.basis * leg.quantity)) :
    (state.foldBasis leg.signed leg.notional leg.price).1 = .ok () := by
  have contracts := opposite_fits ranged sized opposite
  have moved := checkedI64_fits contracts
  simp only [foldBasis, if_neg (show ¬(state.netQuantity = 0 ∨ (0 < state.netQuantity ↔ 0 < leg.signed)) from opposite),
    leg.signed_natAbs, moved]
  by_cases smaller : leg.quantity ≤ state.netQuantity.natAbs
  · have left := checkedI128_fits (reduced_fits ranged.basis smaller)
    simp only [if_pos smaller, checkedI128_fits (worth smaller), left]
  · have opened := checkedI128_fits (contracts_fits contracts priced)
    simp only [if_neg smaller, opened]

end Basis

section Outcome
variable {held leg} (priced : leg.price ≤ u64Max)
include priced

theorem fold_begun (fails : held.FailsAt leg .begun) :
    held.fold leg.side leg.quantity leg.price leg.fee = (.error .arithmetic, held) := by
  rw [fold_eq]
  by_cases sized : Fits 63 leg.quantity
  · rw [checkedI64_fits sized]
    have overcharged : ¬Fits 127 (held.fees + leg.fee) := fails.resolve_left (not_not_intro sized)
    have worth : checkedI128 (leg.side.signed leg.quantity * leg.price) = .ok leg.notional :=
      checkedI128_fits (leg.notional_fits sized priced)
    simp only [foldSigned, worth, checkedI128_exceeds overcharged]
  · rw [checkedI64_exceeds sized]

/-- The fold of a leg whose quantity and fee pass. -/
theorem fold_charged (sized : Fits 63 leg.quantity) (charged : Fits 127 (held.fees + leg.fee)) :
    held.fold leg.side leg.quantity leg.price leg.fee =
      if Fits 127 (held.cashExFee - leg.notional) then
        (held.written leg .paid).foldBasis leg.signed leg.notional leg.price
      else (.error .arithmetic, held.written leg .charged) := by
  have worth : checkedI128 (leg.side.signed leg.quantity * leg.price) = .ok leg.notional :=
    checkedI128_fits (leg.notional_fits sized priced)
  rw [fold_eq, checkedI64_fits sized]
  simp only [foldSigned, worth, checkedI128_fits charged]
  by_cases paid : Fits 127 (held.cashExFee - leg.notional)
  · rw [checkedI128_fits paid, if_pos paid]
    rfl
  · rw [checkedI128_exceeds paid, if_neg paid]
    rfl

/-- A fold whose check fails after a stage keeps the writes up to it. -/
theorem FailsAt.fold {stage : FoldStage} (fails : held.FailsAt leg stage) :
    held.fold leg.side leg.quantity leg.price leg.fee = (.error .arithmetic, held.written leg stage) := by
  cases stage with
  | begun => exact fold_begun priced fails
  | charged =>
    obtain ⟨sized, charged, unpaid⟩ := fails
    rw [fold_charged priced sized charged, if_neg unpaid]
  | paid =>
    obtain ⟨sized, charged, paid, fails⟩ := fails
    rw [fold_charged priced sized charged, if_pos paid]
    by_cases increases : held.Increases leg
    · rw [if_pos increases] at fails
      rw [foldBasis_increases (show (held.written leg .paid).Increases leg from increases)]
      exact if_neg fails
    · rw [if_neg increases] at fails
      exact @foldBasis_exceeds leg (held.written leg .paid) increases fails.1 fails.2
  | costed =>
    obtain ⟨sized, charged, paid, increases, grown, moved⟩ := fails
    rw [fold_charged priced sized charged, if_pos paid,
      foldBasis_increases (show (held.written leg .paid).Increases leg from increases)]
    exact (if_pos grown).trans (if_neg moved)

/-- The stages are all there is: a fold that fails, fails after one of them. -/
theorem exists_failsAt (ranged : held.InRange)
    (failed : (held.fold leg.side leg.quantity leg.price leg.fee).1 ≠ .ok ()) :
    ∃ stage, held.FailsAt leg stage := by
  by_contra none
  have clear : ∀ stage, ¬held.FailsAt leg stage := fun stage fails => none ⟨stage, fails⟩
  obtain ⟨sized, charged⟩ : Fits 63 leg.quantity ∧ Fits 127 (held.fees + leg.fee) := by
    have begun := clear .begun
    simpa only [FailsAt, not_or, not_not] using begun
  have paid : Fits 127 (held.cashExFee - leg.notional) := by
    by_contra unpaid
    exact clear .charged ⟨sized, charged, unpaid⟩
  apply failed
  rw [fold_charged priced sized charged, if_pos paid]
  by_cases increases : held.Increases leg
  · have grown : Fits 127 (held.basis + leg.notional) := by
      by_contra exceeds
      exact clear .paid ⟨sized, charged, paid, by rwa [if_pos increases]⟩
    have moved : Fits 63 (held.netQuantity + leg.signed) := by
      by_contra exceeds
      exact clear .costed ⟨sized, charged, paid, increases, grown, exceeds⟩
    rw [foldBasis_increases (show (held.written leg .paid).Increases leg from increases)]
    exact congrArg Prod.fst ((if_pos grown).trans (if_pos moved))
  · have after : (held.written leg .paid).InRange := ⟨ranged.quantity, ranged.basis, paid, charged⟩
    apply foldBasis_opposite after sized priced increases
    intro smaller
    by_contra exceeds
    exact clear .paid ⟨sized, charged, paid, by rw [if_neg increases]; exact ⟨smaller, exceeds⟩⟩

end Outcome

end PositionState

namespace InMemoryPositionsStore
variable (store : InMemoryPositionsStore) (leg : PositionLeg)

/-- The position that a leg meets. -/
def held : PositionState := (store.positions[(leg.account, leg.symbol)]?).getD (.new leg.underlying)

def InRange : Prop := ∀ (key : AccountId × Symbol) (state : PositionState), store.positions[key]? = some state → state.InRange

/-- The check that refuses the leg, if one does, comes before any write that shows: the position is there
already, and the writes before the check add nothing to it. -/
def RefusesUntouched : Prop :=
  ∀ stage, (store.held leg).FailsAt leg stage →
    (leg.account, leg.symbol) ∈ store.positions ∧ PositionState.Idle leg stage

variable {store leg}

theorem InRange.held (ranged : store.InRange) : (store.held leg).InRange := by
  unfold InMemoryPositionsStore.held
  cases found : store.positions[(leg.account, leg.symbol)]? with
  | none => exact PositionState.inRange_new leg.underlying
  | some state => exact ranged _ _ found

theorem apply_failsAt {stage : FoldStage} (priced : leg.price ≤ u64Max)
    (fails : (store.held leg).FailsAt leg stage) :
    store.apply leg = (.error .arithmetic,
      ⟨store.positions.insert (leg.account, leg.symbol) ((store.held leg).written leg stage)⟩) := by
  have folded := fails.fold priced
  simp only [held] at folded ⊢
  simp only [apply, folded]

/-- Writing a position back changes nothing exactly when it was there. -/
theorem insert_held_eq_iff {state : PositionState} :
    (⟨store.positions.insert (leg.account, leg.symbol) state⟩ : InMemoryPositionsStore) = store ↔
      store.positions[(leg.account, leg.symbol)]? = some state := by
  constructor
  · intro same
    rw [← same]
    exact Std.ExtTreeMap.getElem?_insert_self
  · intro found
    suffices same : store.positions.insert (leg.account, leg.symbol) state = store.positions by rw [same]
    apply Std.ExtTreeMap.ext_getElem?
    intro key
    rw [Std.ExtTreeMap.getElem?_insert]
    split
    next here => rw [← pairCompare_eq_iff.1 here, found]
    next elsewhere => rfl

/-- A refused leg leaves the store as it was exactly when nothing shows of it before the check. -/
theorem apply_error_unchanged_iff (ranged : store.InRange) (priced : leg.price ≤ u64Max) :
    (∀ next, store.apply leg = (.error .arithmetic, next) → next = store) ↔ store.RefusesUntouched leg := by
  constructor
  · intro unchanged stage fails
    have found := insert_held_eq_iff.1 (unchanged _ (apply_failsAt priced fails))
    have present : (leg.account, leg.symbol) ∈ store.positions := by
      apply Std.ExtTreeMap.isSome_getElem?_iff_mem.1
      rw [found]
      rfl
    have same : store.held leg = (store.held leg).written leg stage := by
      conv_lhs => rw [held, found, Option.getD_some]
    exact ⟨present, ((store.held leg).written_eq_iff leg stage).1 same.symm⟩
  · intro untouched next refused
    have failed : ((store.held leg).fold leg.side leg.quantity leg.price leg.fee).1 ≠ .ok () := by
      intro accepted
      have error := congrArg Prod.fst refused
      cases accepted.symm.trans error
    obtain ⟨stage, fails⟩ := PositionState.exists_failsAt priced ranged.held failed
    obtain ⟨present, idle⟩ := untouched stage fails
    have kept := ((store.held leg).written_eq_iff leg stage).2 idle
    obtain ⟨state, found⟩ := Option.isSome_iff_exists.1 (Std.ExtTreeMap.isSome_getElem?_iff_mem.2 present)
    have here : store.held leg = state := by rw [held, found, Option.getD_some]
    have left : next = _ := (congrArg Prod.snd ((apply_failsAt priced fails).symm.trans refused)).symm
    rw [left]
    apply insert_held_eq_iff.2
    rw [kept, here, found]

/-- One account that holds as many contracts as the position can count. -/
def fullStore : InMemoryPositionsStore :=
  ⟨(∅ : PairMap AccountId Symbol PositionState).insert ("acct-1", "BTC-20351231-50000-C")
    ⟨"BTC", 2 ^ 63 - 1, 2 ^ 63 - 1, 1 - 2 ^ 63, 0⟩⟩

def oneMore : PositionLeg := ⟨"acct-1", "BTC-20351231-50000-C", "BTC", .buy, 1, 100, 3⟩

def oversized : PositionLeg := ⟨"acct-1", "BTC-20351231-50000-C", "BTC", .sell, 2 ^ 63, 100, 0⟩

/-- One contract more is refused after the fee, the cash and the basis are written; a first leg that is too large
leaves an empty position. -/
theorem refused_leg_shows :
    (fullStore.apply oneMore).1 = .error .arithmetic ∧
      (fullStore.apply oneMore).2.positions[("acct-1", "BTC-20351231-50000-C")]? =
        some ⟨"BTC", 2 ^ 63 - 1, 2 ^ 63 + 99, -2 ^ 63 - 99, 3⟩ ∧
      (new.apply oversized).1 = .error .arithmetic ∧
      new.positions[("acct-1", "BTC-20351231-50000-C")]? = none ∧
      (new.apply oversized).2.positions[("acct-1", "BTC-20351231-50000-C")]? = some (.new "BTC") := by
  decide +kernel

theorem fullStore_inRange : fullStore.InRange := by
  intro key state found
  have shown : state = ⟨"BTC", 2 ^ 63 - 1, 2 ^ 63 - 1, 1 - 2 ^ 63, 0⟩ := by
    rw [fullStore, Std.ExtTreeMap.getElem?_insert] at found
    split at found
    · exact (Option.some.inj found).symm
    · rw [Std.ExtTreeMap.getElem?_empty] at found
      cases found
  rw [shown]
  constructor <;> decide

/-- A leg too large for a position that is there already is refused without a trace. -/
theorem oversized_refused_untouched :
    (fullStore.apply oversized).1 = .error .arithmetic ∧
      ∀ next, fullStore.apply oversized = (.error .arithmetic, next) → next = fullStore := by
  refine ⟨by decide +kernel, (apply_error_unchanged_iff fullStore_inRange (by decide)).2 ?_⟩
  intro stage fails
  have present : (oversized.account, oversized.symbol) ∈ fullStore.positions := Std.ExtTreeMap.mem_insert_self
  have large : ¬Fits 63 oversized.quantity := by decide
  cases stage with
  | begun => exact ⟨present, trivial⟩
  | charged | paid | costed => exact absurd fails.1 large

end InMemoryPositionsStore
end Fauxchange.Exchange
