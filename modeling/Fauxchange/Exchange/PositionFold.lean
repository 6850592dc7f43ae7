import Fauxchange.Exchange.Stores

/-! The positions fold over any sequence of legs: what its accumulators hold and what the projection of them
shows. The proportional cost that leaves on a partial close is truncated, and the truncation never reaches the
totals: both halves of the profit read the same basis. -/

namespace Fauxchange.Exchange

def Side.signed : Side → Int → Int
  | .buy, quantity => quantity
  | .sell, quantity => -quantity

def PositionLeg.signed (leg : PositionLeg) : Int := leg.side.signed leg.quantity

/-- Whether a value fits a signed integer of one bit more. -/
def Fits (width : Nat) (value : Int) : Prop := -2 ^ width ≤ value ∧ value < 2 ^ width

theorem Fits.widen {value : Int} (fits : Fits 63 value) : Fits 127 value := by
  obtain ⟨low, high⟩ := fits
  exact ⟨by omega, by omega⟩

theorem checkedI64_fits {value : Int} (fits : Fits 63 value) : checkedI64 value = .ok value := by
  apply if_neg
  rintro (low | high)
  · exact absurd fits.1 (Int.not_le.2 low)
  · exact absurd fits.2 (Int.not_lt.2 high)

theorem checkedI128_fits {value : Int} (fits : Fits 127 value) : checkedI128 value = .ok value := by
  apply if_neg
  rintro (low | high)
  · exact absurd fits.1 (Int.not_le.2 low)
  · exact absurd fits.2 (Int.not_lt.2 high)

theorem checkedI64_eq_ok {value result : Int} (checked : checkedI64 value = .ok result) : result = value := by
  unfold checkedI64 at checked
  split at checked
  · cases checked
  · exact (Except.ok.inj checked).symm

theorem checkedI128_eq_ok {value result : Int} (checked : checkedI128 value = .ok result) : result = value := by
  unfold checkedI128 at checked
  split at checked
  · cases checked
  · exact (Except.ok.inj checked).symm

namespace PositionState

/-- A position without contracts has no open cost. -/
def Settled (state : PositionState) : Prop := state.netQuantity = 0 → state.basis = 0

theorem settled_new (underlying : String) : (new underlying).Settled := fun _ => rfl

/-- The basis that a leg of signed quantity `dq` leaves, in integers without a width. -/
def basisAfter (net basis dq : Int) (price : Nat) : Int :=
  if net = 0 ∨ (0 < net ↔ 0 < dq) then basis + dq * price
  else if dq.natAbs ≤ net.natAbs then
    if net + dq = 0 then 0 else basis - (basis * dq.natAbs).tdiv net.natAbs
  else (net + dq) * price

theorem basisAfter_flat {net basis dq : Int} (price : Nat) (settled : net = 0 → basis = 0) (flat : net + dq = 0) :
    basisAfter net basis dq price = 0 := by
  unfold basisAfter
  split
  next increasing =>
    -- the position can only be flat if it was flat and the leg is empty
    have empty : dq = 0 := by omega
    have before : net = 0 := by omega
    rw [settled before, empty, Int.zero_mul]
    rfl
  next opposite =>
    split
    next reducing => rfl
    next flipping => rw [flat, Int.zero_mul]

/-- What an accepted leg does to the basis and the net quantity. -/
theorem foldBasis_ok {state next : PositionState} {dq : Int} {price : Nat}
    (folded : state.foldBasis dq (dq * price) price = (.ok (), next)) :
    next = { state with
      netQuantity := state.netQuantity + dq
      basis := basisAfter state.netQuantity state.basis dq price } := by
  unfold foldBasis at folded
  unfold basisAfter
  dsimp only at folded
  split at folded
  next increasing =>
    rw [if_pos increasing]
    split at folded
    · cases folded
    next basis grown =>
      split at folded
      · cases folded
      next quantity moved =>
        cases folded
        rw [checkedI64_eq_ok moved, checkedI128_eq_ok grown]
  next opposite =>
    rw [if_neg opposite]
    split at folded
    next reducing =>
      rw [if_pos reducing]
      split at folded
      · cases folded
      next product worth =>
        split at folded
        · cases folded
        next basis left =>
          split at folded
          · cases folded
          next quantity moved =>
            cases folded
            rw [checkedI64_eq_ok moved, checkedI128_eq_ok left, checkedI128_eq_ok worth]
    next flipping =>
      rw [if_neg flipping]
      split at folded
      · cases folded
      next quantity moved =>
        split at folded
        · cases folded
        next basis opened =>
          cases folded
          rw [checkedI128_eq_ok opened, checkedI64_eq_ok moved]

/-- The fold of a leg whose signed quantity is known. -/
def foldSigned (state : PositionState) (dq : Int) (price : Nat) (fee : Int) : Except StoreError Unit × PositionState :=
  match checkedI128 (dq * price) with
  | .error error => (.error error, state)
  | .ok dqp =>
    match checkedI128 (state.fees + fee) with
    | .error error => (.error error, state)
    | .ok fees =>
      match checkedI128 (state.cashExFee - dqp) with
      | .error error => (.error error, { state with fees := fees })
      | .ok cash => { state with fees := fees, cashExFee := cash }.foldBasis dq dqp price

theorem fold_eq (state : PositionState) (side : Side) (quantity price : Nat) (fee : Int) :
    state.fold side quantity price fee =
      match checkedI64 quantity with
      | .error error => (.error error, state)
      | .ok size => state.foldSigned (side.signed size) price fee := by
  cases side <;> rfl

/-- What an accepted leg does to the whole fold. -/
theorem fold_ok {state next : PositionState} {side : Side} {quantity price : Nat} {fee : Int}
    (folded : state.fold side quantity price fee = (.ok (), next)) :
    next.netQuantity = state.netQuantity + side.signed quantity ∧
      next.cashExFee = state.cashExFee - side.signed quantity * price ∧
        next.fees = state.fees + fee ∧
          next.basis = basisAfter state.netQuantity state.basis (side.signed quantity) price := by
  rw [fold_eq] at folded
  split at folded
  · cases folded
  next size sized =>
    obtain rfl := checkedI64_eq_ok sized
    unfold foldSigned at folded
    split at folded
    · cases folded
    next dqp worth =>
      obtain rfl := checkedI128_eq_ok worth
      split at folded
      · cases folded
      next fees charged =>
        split at folded
        · cases folded
        next cash paid =>
          obtain rfl := checkedI128_eq_ok charged
          obtain rfl := checkedI128_eq_ok paid
          rw [foldBasis_ok folded]
          exact ⟨rfl, rfl, rfl, rfl⟩

theorem Settled.folded {state next : PositionState} {side : Side} {quantity price : Nat} {fee : Int}
    (settled : state.Settled) (folded : state.fold side quantity price fee = (.ok (), next)) : next.Settled := by
  obtain ⟨quantities, -, -, basis⟩ := fold_ok folded
  intro flat
  rw [basis]
  apply basisAfter_flat price settled
  rw [← quantities, flat]

/-- The fold of a sequence of legs, up to the first that fails. -/
def foldAll (state : PositionState) : List PositionLeg → Except StoreError PositionState
  | [] => .ok state
  | leg :: rest =>
    match state.fold leg.side leg.quantity leg.price leg.fee with
    | (.ok (), next) => next.foldAll rest
    | (.error error, _) => .error error

theorem foldAll_ok {state last : PositionState} {legs : List PositionLeg} (settled : state.Settled)
    (folded : state.foldAll legs = .ok last) :
    last.netQuantity = state.netQuantity + (legs.map PositionLeg.signed).sum ∧
      last.cashExFee = state.cashExFee - (legs.map fun leg => leg.signed * (leg.price : Int)).sum ∧
        last.fees = state.fees + (legs.map PositionLeg.fee).sum ∧ last.Settled := by
  induction legs generalizing state with
  | nil =>
    cases folded
    simp [settled]
  | cons leg rest ih =>
    simp only [foldAll] at folded
    split at folded
    next next step =>
      obtain ⟨quantity, cash, fees, -⟩ := fold_ok step
      obtain ⟨quantities, cashes, charges, after⟩ := ih (settled.folded step) folded
      refine ⟨?_, ?_, ?_, after⟩
      · simp only [List.map_cons, List.sum_cons, PositionLeg.signed] at quantities ⊢
        omega
      · simp only [List.map_cons, List.sum_cons, PositionLeg.signed] at cashes ⊢
        omega
      · simp only [List.map_cons, List.sum_cons] at charges ⊢
        omega
    next => cases folded

/-- What a marked projection shows. -/
theorem project_marked {state : PositionState} {account : AccountId} {symbol : Symbol} {mark : Nat}
    {position : Position} (projected : state.project account symbol (some mark) = .ok position) :
    position.netQuantity = state.netQuantity ∧
      position.realizedPnl = state.cashExFee - state.fees + state.basis ∧
        position.unrealizedPnl = some (state.netQuantity * mark - state.basis) := by
  simp only [project, unrealized, bind, Except.bind, pure, Except.pure] at projected
  split at projected
  · cases projected
  · split at projected
    · cases projected
    next netCash cash =>
      split at projected
      · cases projected
      next realized gained =>
        split at projected
        · cases projected
        next shown narrow =>
          split at projected
          · cases projected
          next gain opened =>
            cases projected
            split at opened
            · cases opened
            next value worth =>
              split at opened
              · cases opened
              next total difference =>
                refine ⟨rfl, ?_, congrArg some ?_⟩
                · rw [checkedI64_eq_ok narrow, checkedI128_eq_ok gained, checkedI128_eq_ok cash]
                · rw [checkedI64_eq_ok opened, checkedI128_eq_ok difference, checkedI128_eq_ok worth]

/-- The figures of a marked position fit the widths they are shown in. -/
structure Presentable (state : PositionState) (mark : Nat) : Prop where
  average : state.netQuantity = 0 ∨ state.basis.natAbs / state.netQuantity.natAbs ≤ u64Max
  cash : Fits 127 (state.cashExFee - state.fees)
  realized : Fits 63 (state.cashExFee - state.fees + state.basis)
  value : Fits 127 (state.netQuantity * mark)
  unrealized : Fits 63 (state.netQuantity * mark - state.basis)

theorem Presentable.project {state : PositionState} {mark : Nat} (fits : state.Presentable mark)
    (account : AccountId) (symbol : Symbol) :
    ∃ position, state.project account symbol (some mark) = .ok position := by
  have average : ∃ price, state.avgPrice = .ok price := by
    unfold avgPrice
    split
    · exact ⟨0, rfl⟩
    next open' => exact ⟨_, if_pos (fits.average.resolve_left open')⟩
  obtain ⟨price, averaged⟩ := average
  refine ⟨⟨account, symbol, state.underlying, state.netQuantity, price, some mark,
    state.cashExFee - state.fees + state.basis, some (state.netQuantity * mark - state.basis), 0⟩, ?_⟩
  simp only [PositionState.project, PositionState.unrealized, averaged, checkedI128_fits fits.cash,
    checkedI128_fits fits.realized.widen, checkedI64_fits fits.realized, checkedI128_fits fits.value,
    checkedI128_fits fits.unrealized.widen, checkedI64_fits fits.unrealized, bind, Except.bind, pure, Except.pure]

end PositionState

section Identity
variable {underlying : String} {legs : List PositionLeg} {state : PositionState}

/-- The accumulators of a fold are the sums of its legs, and what it shows at a mark adds up exactly. -/
structure Accounted (legs : List PositionLeg) (state : PositionState) : Prop where
  quantity : state.netQuantity = (legs.map PositionLeg.signed).sum
  cash : state.cashExFee = -(legs.map fun leg => leg.signed * (leg.price : Int)).sum
  fees : state.fees = (legs.map PositionLeg.fee).sum
  /-- The two halves of the profit. -/
  profit : ∀ account symbol mark position, state.project account symbol (some mark) = .ok position →
    ∃ unrealized, position.unrealizedPnl = some unrealized ∧
      position.realizedPnl + unrealized = state.cashExFee - state.fees + state.netQuantity * mark
  /-- A flat position. -/
  flat : state.netQuantity = 0 → state.basis = 0 ∧ ∀ account symbol mark position,
    state.project account symbol (some mark) = .ok position → position.realizedPnl = state.cashExFee - state.fees
  /-- The projection only fails on a figure that does not fit. -/
  shown : ∀ account symbol mark, state.Presentable mark →
    ∃ position, state.project account symbol (some mark) = .ok position

/-- Any legs that a fresh fold accepts are accounted for. -/
theorem PositionState.foldAll_accounted (accepted : (PositionState.new underlying).foldAll legs = .ok state) :
    Accounted legs state := by
  obtain ⟨quantity, cash, fees, settled⟩ := foldAll_ok (settled_new underlying) accepted
  refine ⟨?_, ?_, ?_, ?_, ?_, fun account symbol mark fits => fits.project account symbol⟩
  · rw [quantity]
    exact Int.zero_add _
  · rw [cash]
    exact Int.zero_sub _
  · rw [fees]
    exact Int.zero_add _
  · intro account symbol mark position projected
    obtain ⟨-, realized, unrealized⟩ := project_marked projected
    refine ⟨_, unrealized, ?_⟩
    rw [realized]
    omega
  · intro flat
    refine ⟨settled flat, ?_⟩
    intro account symbol mark position projected
    obtain ⟨-, realized, -⟩ := project_marked projected
    rw [realized, settled flat, Int.add_zero]

/-- Three contracts at 100, of which one and then one more are sold: the basis of 301 is truncated twice. -/
def truncatingLegs : List PositionLeg :=
  [⟨"acct-1", "BTC-20351231-50000-C", "BTC", .buy, 2, 100, 3⟩, ⟨"acct-1", "BTC-20351231-50000-C", "BTC", .buy, 1, 101, 0⟩,
    ⟨"acct-1", "BTC-20351231-50000-C", "BTC", .sell, 1, 120, -1⟩,
    ⟨"acct-1", "BTC-20351231-50000-C", "BTC", .sell, 1, 90, 2⟩]

theorem truncating_closes_accounted :
    (PositionState.new "BTC").foldAll truncatingLegs = .ok ⟨"BTC", 1, 101, -91, 4⟩ ∧
      Accounted truncatingLegs ⟨"BTC", 1, 101, -91, 4⟩ :=
  ⟨by decide, @PositionState.foldAll_accounted "BTC" _ _ (by decide)⟩

end Identity

end Fauxchange.Exchange
