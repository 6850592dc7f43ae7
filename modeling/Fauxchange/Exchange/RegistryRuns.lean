import Fauxchange.Exchange.ReferenceLeaf
import Fauxchange.Exchange.TurnMoves

/-! The registry after every run of an executor: its two maps are inverse, it knows exactly the resting orders, and
each as it was placed. -/

namespace Fauxchange.Exchange
open Lib UnderlyingOrderBook

namespace MatchingExecutor
variable {U : Upstream}

/-- The executor after commands in turn. -/
def run (executor : MatchingExecutor U) (contexts : List ExecutionContext) : MatchingExecutor U :=
  contexts.foldl (fun executor ctx => (CommandExecutor.execute executor ctx).2) executor

theorem run_append_singleton (executor : MatchingExecutor U) (contexts : List ExecutionContext) (ctx : ExecutionContext) :
    executor.run (contexts ++ [ctx]) = (CommandExecutor.execute (executor.run contexts) ctx).2 :=
  List.foldl_append

/-- Every command of a run finds the executor as demanded. -/
def Along (holds : MatchingExecutor U → ExecutionContext → Prop) (executor : MatchingExecutor U)
    (contexts : List ExecutionContext) : Prop :=
  ∀ early ctx late, contexts = early ++ ctx :: late → holds (executor.run early) ctx

section Along
variable {holds : MatchingExecutor U → ExecutionContext → Prop} {executor : MatchingExecutor U}

theorem Along.early {early late : List ExecutionContext} (along : executor.Along holds (early ++ late)) :
    executor.Along holds early := by
  intro before ctx after split
  exact along before ctx (after ++ late) (by rw [split]; simp)

theorem Along.nil : executor.Along holds [] := by
  intro early ctx late split
  simp at split

theorem Along.cons {ctx : ExecutionContext} {rest : List ExecutionContext} (first : holds executor ctx)
    (others : (CommandExecutor.execute executor ctx).2.Along holds rest) : executor.Along holds (ctx :: rest) := by
  intro early other late split
  cases early with
  | nil =>
    obtain ⟨rfl, -⟩ := List.cons.inj split
    exact first
  | cons head early =>
    obtain ⟨rfl, later⟩ := List.cons.inj split
    exact others early other late later

end Along

/-- The fills of every match that a run makes can be built. -/
def MatchesFit : MatchingExecutor U → List ExecutionContext → Prop :=
  Along fun executor ctx => ∀ made ∈ executor.state.matchOf ctx.sequence ctx.command, made.Fits U

end MatchingExecutor

/-- The registry in which the makers of a command's match are looked up. A replace has dropped its order by then. -/
def attributing {U : Upstream} (state : SequencedState U) : VenueCommand → OrderRegistry
  | .replace order =>
    match state.registry.venueToEngine[order.orderId]? with
    | some engineId => state.registry.removeResting engineId
    | none => state.registry
  | _ => state.registry

section Report
variable {U : Upstream} {laws : LeafLaws U} {state : SequencedState U} {ctx : ExecutionContext}

theorem attributing_replace {order : Replace} {engineId : Nat}
    (named : state.registry.venueToEngine[order.orderId]? = some engineId) :
    attributing state (.replace order) = state.registry.removeResting engineId := by
  simp only [attributing, named]

/-- Every maker of a command's match is registered when its legs are built. -/
theorem TurnReport.attributed (step : InStep state.home (laws.viewOf state)) {made : MadeMatch} {command : VenueCommand}
    {outcome : VenueOutcome} {moves : List Move} {after : BookView}
    (report : TurnReport U state.home (laws.viewOf state) ctx.sequence (some made) command outcome moves)
    (moved : Moves state.home (laws.viewOf state) moves after) {trade : Trade} (traded : trade ∈ made.matched.trades) :
    ∃ record, (attributing state command).resting[trade.makerOrderId]? = some record := by
  have maker : ∀ {view middle : BookView} {address owner removed}, InStep state.home view →
      Took state.home view (.matched address owner (heardTrades (some made)) removed) middle →
      ∃ record, view.registry.resting[trade.makerOrderId]? = some record := by
    intro view middle address owner removed step took
    cases took with
    | matched consumes =>
      obtain ⟨record, present, -⟩ := (step.mem_iff _).2 (consumes.makers trade traded)
      exact ⟨record, present⟩
  cases report with
  | added =>
    cases moved with
    | next took => exact maker step took
  | marketed =>
    cases moved with
    | next took => exact maker step took
  | @replaced _ amended drop price add removed named =>
    cases moved with
    | next took rest =>
      cases rest with
      | next second =>
        rw [attributing_replace named.named]
        have between := step.took took
        cases took with
        | dropped => exact maker between second

end Report

/-- The registry follows the books of an executor that has run the given commands. -/
structure Follows {U : Upstream} (laws : LeafLaws U) (executor : MatchingExecutor U) (contexts : List ExecutionContext) :
    Prop where
  inverse : (executor.run contexts).state.registry.Lockstep
  domain : ∀ engineId, (∃ record, (executor.run contexts).state.registry.resting[engineId]? = some record) ↔
    ∃ address, engineId ∈ idsOf (laws.orders ((executor.run contexts).state.underlyingBook.leafAt address))
  placed : ∀ engineId record, (executor.run contexts).state.registry.resting[engineId]? = some record →
    ∃ early ctx late, contexts = early ++ ctx :: late ∧ ctx.sequence = engineId ∧
      PlacedBy (executor.run early).state ctx.command record
  recorded : ∀ address, ∀ order ∈ laws.orders ((executor.run contexts).state.underlyingBook.leafAt address),
    ∃ record, (executor.run contexts).state.registry.resting[order.id]? = some record ∧
      addressOf? U (executor.run contexts).state.underlyingBook.underlying record.symbol = some address ∧
        record.side = order.side ∧ record.owner = order.owner
  attributed : ∀ early ctx late, contexts = early ++ ctx :: late → ∀ made,
    (executor.run early).state.matchOf ctx.sequence ctx.command = some made → ∀ trade ∈ made.matched.trades,
      ∃ record, (attributing (executor.run early).state ctx.command).resting[trade.makerOrderId]? = some record

section Runs
variable {U : Upstream} {laws : LeafLaws U} {executor : MatchingExecutor U} {contexts : List ExecutionContext}
  {ctx : ExecutionContext}

theorem inStep_fromBook (underlying : String) (config : BookConfig) :
    InStep (SequencedState.fromBook (U := U) ⟨underlying, config, ∅⟩).home
      (laws.viewOf (.fromBook ⟨underlying, config, ∅⟩)) := by
  have empty : ∀ address, (laws.viewOf (.fromBook ⟨underlying, config, ∅⟩)).orders address = [] :=
    fun _ => laws.new_orders config
  refine ⟨fun address => ?_, fun id record present => ?_, fun address order member => ?_⟩
  · rw [empty]
    exact ⟨List.nodup_nil, fun _ member => absurd member List.not_mem_nil⟩
  · exact absurd present (by simp [LeafLaws.viewOf, SequencedState.fromBook, OrderRegistry.new])
  · rw [empty] at member
    cases member

/-- What every command of a run preserves. -/
structure Tracks (laws : LeafLaws U) (executor : MatchingExecutor U) (contexts : List ExecutionContext) : Prop where
  inStep : InStep (executor.run contexts).state.home (laws.viewOf (executor.run contexts).state)
  inverse : (executor.run contexts).state.registry.Lockstep
  placed : ∀ engineId record, (executor.run contexts).state.registry.resting[engineId]? = some record →
    ∃ early ctx late, contexts = early ++ ctx :: late ∧ ctx.sequence = engineId ∧
      PlacedBy (executor.run early).state ctx.command record
  attributed : ∀ early ctx late, contexts = early ++ ctx :: late → ∀ made,
    (executor.run early).state.matchOf ctx.sequence ctx.command = some made → ∀ trade ∈ made.matched.trades,
      ∃ record, (attributing (executor.run early).state ctx.command).resting[trade.makerOrderId]? = some record

namespace Tracks
variable (tracks : Tracks laws executor contexts)

include tracks in
/-- A later sequence is not in use. -/
theorem unused (above : ∀ earlier ∈ contexts, earlier.sequence < ctx.sequence) :
    (executor.run contexts).state.registry.resting[ctx.sequence]? = none := by
  by_contra present
  obtain ⟨record, here⟩ := Option.ne_none_iff_exists'.1 present
  obtain ⟨early, earlier, late, split, same, -⟩ := tracks.placed _ _ here
  have below := above earlier (by rw [split]; simp)
  omega

include tracks in
/-- A new venue order id is not in use. -/
theorem unnamed {orderId : VenueOrderId} (new : ∀ earlier ∈ contexts, earlier.command.placedId ≠ some orderId) :
    ¬ (executor.run contexts).state.registry.Names orderId := by
  intro named
  obtain ⟨engineId, mapped⟩ := Option.ne_none_iff_exists'.1 named
  obtain ⟨record, present, same⟩ := (tracks.inverse orderId engineId).1 mapped
  obtain ⟨early, earlier, late, split, -, placed⟩ := tracks.placed _ _ present
  have listed : earlier ∈ contexts := by
    rw [split]
    simp
  exact new earlier listed (same ▸ placed.placedId)

include tracks in
theorem next (above : ∀ earlier ∈ contexts, earlier.sequence < ctx.sequence)
    (new : ∀ orderId, ctx.command.placedId = some orderId → ∀ earlier ∈ contexts, earlier.command.placedId ≠ some orderId)
    (fits : ∀ made, (executor.run contexts).state.matchOf ctx.sequence ctx.command = some made → made.Fits U) :
    Tracks laws executor (contexts ++ [ctx]) := by
  have unused := tracks.unused above
  obtain ⟨moves, moved, report⟩ :=
    SequencedState.execute_moves tracks.inStep unused (executor.run contexts).hashOrder fits
  have home := home_of_underlying
    (SequencedState.execute_underlying (executor.run contexts).hashOrder (executor.run contexts).state ctx)
  have after : (executor.run (contexts ++ [ctx])).state =
      ((executor.run contexts).state.execute (executor.run contexts).hashOrder ctx).2 := by
    rw [MatchingExecutor.run_append_singleton]
    rfl
  refine ⟨?_, ?_, fun engineId record present => ?_, fun early other late split made matched trade traded => ?_⟩
  · rw [after, home]
    exact tracks.inStep.moves moved
  · rw [after]
    exact (SequencedState.execute_registry _ _ ctx).lockstep tracks.inverse unused
      fun orderId placed => tracks.unnamed (new orderId placed)
  · rw [after] at present
    rcases (SequencedState.execute_places _ _ ctx).resting present with before | ⟨rfl, placed⟩
    · obtain ⟨early, earlier, late, split, rest⟩ := tracks.placed engineId record before
      exact ⟨early, earlier, late ++ [ctx], by rw [split]; simp, rest⟩
    · exact ⟨contexts, ctx, [], rfl, rfl, placed⟩
  · rcases List.eq_nil_or_concat late with rfl | ⟨rest, last, rfl⟩
    · obtain ⟨rfl, one⟩ := List.append_inj' split rfl
      obtain rfl := List.head_eq_of_cons_eq one
      rw [matched] at report
      exact report.attributed tracks.inStep moved traded
    · rw [List.concat_eq_append, ← List.cons_append, ← List.append_assoc] at split
      exact tracks.attributed early other rest (List.append_inj' split rfl).1 made matched trade traded

end Tracks

theorem tracks_run {underlying : String} {config : BookConfig}
    (fresh : executor.state = .fromBook ⟨underlying, config, ∅⟩)
    (ascending : contexts.Pairwise fun early late => early.sequence < late.sequence)
    (distinct : (contexts.filterMap fun ctx => ctx.command.placedId).Nodup) (fits : executor.MatchesFit contexts) :
    Tracks laws executor contexts := by
  induction contexts using List.reverseRecOn with
  | nil =>
    have start : (executor.run []).state = .fromBook ⟨underlying, config, ∅⟩ := fresh
    refine ⟨?_, ?_, fun _ _ present => ?_, fun _ _ _ split => ?_⟩
    · rw [start]
      exact inStep_fromBook underlying config
    · rw [start]
      exact OrderRegistry.lockstep_new
    · rw [start] at present
      exact absurd present (by simp [SequencedState.fromBook, OrderRegistry.new])
    · simp at split
  | append_singleton contexts ctx ih =>
    obtain ⟨earlier, -, above⟩ := List.pairwise_append.1 ascending
    rw [List.filterMap_append] at distinct
    obtain ⟨names, -, apart⟩ := List.nodup_append.1 distinct
    refine (ih earlier names (MatchingExecutor.Along.early fits)).next (fun other member => above other member ctx (by simp)) ?_ ?_
    · intro orderId placed other member same
      exact apart orderId (List.mem_filterMap.2 ⟨other, member, same⟩) orderId
        (List.mem_filterMap.2 ⟨ctx, by simp, placed⟩) rfl
    · exact fits contexts ctx [] rfl

/-- After every run the two maps of the registry are inverse, their domain is the set of resting orders, each is
recorded as it was placed, and no maker of a match is unknown. -/
theorem follows_run {underlying : String} {config : BookConfig}
    (fresh : executor.state = .fromBook ⟨underlying, config, ∅⟩)
    (ascending : contexts.Pairwise fun early late => early.sequence < late.sequence)
    (distinct : (contexts.filterMap fun ctx => ctx.command.placedId).Nodup) (fits : executor.MatchesFit contexts) :
    Follows laws executor contexts := by
  have tracks : Tracks laws executor contexts := tracks_run fresh ascending distinct fits
  refine ⟨tracks.inverse, fun engineId => ?_, tracks.placed, tracks.inStep.known, tracks.attributed⟩
  constructor
  · rintro ⟨record, present⟩
    obtain ⟨address, -, rests⟩ := tracks.inStep.registered engineId record present
    exact ⟨address, rests⟩
  · rintro ⟨address, rests⟩
    obtain ⟨record, present, -⟩ := (@InStep.mem_iff _ _ address tracks.inStep engineId).2 rests
    exact ⟨record, present⟩

/-- An ask of five and a bid that takes three of them. -/
def crossing : List ExecutionContext :=
  [⟨"BTC", "run-1", 1, 10, .addOrder ⟨"BTC-20351231-50000-C", "a", "acct-1", 7, none, .sell, .limit, some 100, 5, .gtc,
      .none⟩⟩,
    ⟨"BTC", "run-1", 2, 11, .addOrder ⟨"BTC-20351231-50000-C", "b", "acct-2", 8, none, .buy, .limit, some 100, 3, .gtc,
      .none⟩⟩]

theorem crossing_follows :
    Follows referenceLeafLaws (.new "BTC" fun _ _ => Equiv.refl _) crossing :=
  @follows_run referenceUpstream referenceLeafLaws _ _ "BTC" .bare rfl (by decide) (by decide)
    (.cons (by decide) (.cons (by decide) .nil))

end Runs

end Fauxchange.Exchange
