import Fauxchange.Exchange.Answers
import Fauxchange.Exchange.Isolation

/-! The fills of a command from the side of its taker: they are numbered from zero under the sequence of the command,
and they are on the order and the account that the command places. -/

namespace Fauxchange.Exchange
open Lib

def takerFills (fills : List Fill) : List Fill := fills.filter fun fill => fill.liquidity = .taker

/-- The trades of a capture number its fills, each for both of its sides. -/
theorem Captures.numbered {ctx : ExecutionContext} {trades : List Trade} {fills : List Fill}
    (captures : Captures ctx trades fills) :
    (takerFills fills).map Fill.executionId =
        (List.range trades.length).map (ctx.lineageId.executionId ctx.underlying ctx.sequence) ∧
      ∀ fill ∈ fills, ∃ index < trades.length,
        fill.executionId = ctx.lineageId.executionId ctx.underlying ctx.sequence index := by
  obtain ⟨pairs, legs, rfl⟩ := captures
  have from' : ∀ start, List.Forall₂ (LegsOf ctx) (trades.zipIdx start) pairs →
      (takerFills (pairs.flatMap bothLegs)).map Fill.executionId =
          (List.range' start trades.length).map (ctx.lineageId.executionId ctx.underlying ctx.sequence) ∧
        ∀ fill ∈ pairs.flatMap bothLegs, ∃ index < start + trades.length,
          fill.executionId = ctx.lineageId.executionId ctx.underlying ctx.sequence index := by
    clear legs
    induction pairs generalizing trades with
    | nil =>
      intro start legs
      have none : trades = [] := by simpa using legs.length_eq
      subst none
      exact ⟨rfl, List.forall_mem_nil _⟩
    | cons pair rest ih =>
      intro start legs
      cases trades with
      | nil => cases legs
      | cons trade others =>
        obtain ⟨both, later⟩ := List.forall₂_cons.1 legs
        obtain ⟨numbers, below⟩ := ih (start + 1) later
        have split : takerFills ((pair :: rest).flatMap bothLegs) = pair.2 :: takerFills (rest.flatMap bothLegs) := by
          simp [takerFills, bothLegs, both.maker, both.taker]
        refine ⟨?_, fun fill member => ?_⟩
        · rw [split, List.map_cons, numbers, both.takerId]
          rfl
        · rw [List.length_cons]
          rcases List.mem_append.1 member with first | listed
          · refine ⟨start, by omega, ?_⟩
            rcases List.mem_pair.1 first with rfl | rfl
            · exact both.makerId
            · exact both.takerId
          · obtain ⟨index, low, named⟩ := below fill listed
            exact ⟨index, by omega, named⟩
  obtain ⟨numbers, below⟩ := from' 0 legs
  rw [List.range_eq_range']
  refine ⟨numbers, fun fill member => ?_⟩
  obtain ⟨index, low, named⟩ := below fill member
  exact ⟨index, by omega, named⟩

namespace SequencedState
variable {U : Upstream} (visits : VisitOrder) (state : SequencedState U) (ctx : ExecutionContext)

theorem executeReplace_placed (amended : Replace) :
    ∃ owner, PlacedLegs (amended.placement owner) (outcomeFills (state.executeReplace visits ctx amended).1) := by
  unfold executeReplace
  split
  · exact ⟨0, placedLegs_nil⟩
  · dsimp only
    split
    · exact ⟨0, placedLegs_nil⟩
    · split
      · exact ⟨0, placedLegs_nil⟩
      · split
        · split
          · rw [outcomeFills_classifyAddLeg]
            exact ⟨_, runAdd_placed visits _ _⟩
          · exact ⟨0, placedLegs_nil⟩
        · exact ⟨0, placedLegs_nil⟩

/-- The taker's fills are on the order that the command places. -/
theorem execute_takers : ∀ fill ∈ outcomeFills (state.execute visits ctx).1, fill.liquidity = .taker →
    ctx.command.placedId = some fill.orderId ∧ ctx.command.placingAccount = some fill.account := by
  intro fill member taker
  cases command : ctx.command with
  | addOrder placed =>
    have legs : PlacedLegs placed.placement (outcomeFills (state.execute visits ctx).1) := by
      simp only [execute, command]
      exact addWithIdempotency_fills visits state ctx placedLegs_nil placed (executeAddOrder_placed visits state _ _)
    obtain ⟨order, account⟩ := legs.own fill member taker
    exact ⟨congrArg some order.symm, congrArg some account.symm⟩
  | replace amended =>
    simp only [execute, command] at member
    obtain ⟨owner, legs⟩ := executeReplace_placed visits state ctx amended
    obtain ⟨order, account⟩ := legs.own fill member taker
    exact ⟨congrArg some order.symm, congrArg some account.symm⟩
  | _ =>
    rw [execute_silent visits state ctx (by rw [command]; rfl)] at member
    cases member

end SequencedState

end Fauxchange.Exchange
