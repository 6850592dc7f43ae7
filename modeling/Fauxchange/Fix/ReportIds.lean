import Fauxchange.Fix.Trading
import Fauxchange.Venue.FloorHomes

/-! The execution ids of the reports that a session renders. Each stands at the position of a journaled event: the trades
of a placement have the ids of its fills, the accept and the terminal cancel stand above them, and a cancel and the legs
of a sweep stand where nothing has been filled. -/

namespace Fauxchange.Fix
open Exchange Lib Venue OrderFlow

/-- The underlying and the sequence of a journaled event. -/
def positionOf (entry : String × VenueEvent) : String × Nat := (entry.1, entry.2.underlyingSequence)

/-- What reports tell of a floor: no id twice, each at one of these positions, the trades under ids of fills and the
others under ids of none. -/
structure Told {U : Upstream} (floor : Floor U) (positions : List (String × Nat)) (reports : List ExecReportSpec) :
    Prop where
  once : (reports.map ExecReportSpec.execId).Nodup
  placed : ∀ report ∈ reports, ∃ position ∈ positions, ∃ index,
    report.execId = floor.lineageId.executionId position.1 position.2 index
  traded : ∀ report ∈ reports, report.execType = .trade → ∃ fill ∈ floor.fills, fill.executionId = report.execId
  apart : ∀ report ∈ reports, report.execType ≠ .trade → ∀ fill ∈ floor.fills, fill.executionId ≠ report.execId

namespace Told
variable {U : Upstream} {floor after : Floor U} {positions others : List (String × Nat)}
  {reports batch : List ExecReportSpec}

theorem nil (floor : Floor U) (positions : List (String × Nat)) : Told floor positions [] where
  once := List.nodup_nil
  placed := List.forall_mem_nil _
  traded := List.forall_mem_nil _
  apart := List.forall_mem_nil _

/-- Reports at other positions have other ids. -/
theorem append (told : Told floor positions reports) (new : Told floor others batch)
    (disjoint : List.Disjoint others positions) : Told floor (positions ++ others) (reports ++ batch) := by
  constructor
  · rw [List.map_append]
    refine List.nodup_append.2 ⟨told.once, new.once, ?_⟩
    intro early old late fresh same
    obtain ⟨report, listed, rfl⟩ := List.mem_map.1 old
    obtain ⟨second, among, rfl⟩ := List.mem_map.1 fresh
    obtain ⟨position, held, index, named⟩ := told.placed report listed
    obtain ⟨place, here, last, called⟩ := new.placed second among
    rw [named, called] at same
    obtain ⟨underlying, sequence, -⟩ := LineageId.executionId_inj same
    have equal : position = place := Prod.ext underlying sequence
    exact disjoint here (equal ▸ held)
  · intro report member
    rcases List.mem_append.1 member with old | fresh
    · obtain ⟨position, held, named⟩ := told.placed report old
      exact ⟨position, List.mem_append_left _ held, named⟩
    · obtain ⟨position, held, named⟩ := new.placed report fresh
      exact ⟨position, List.mem_append_right _ held, named⟩
  · exact fun report member => (List.mem_append.1 member).elim (told.traded report) (new.traded report)
  · exact fun report member => (List.mem_append.1 member).elim (told.apart report) (new.apart report)

/-- What is journaled later is journaled elsewhere. -/
theorem journals (told : Told floor positions reports) (laws : MatchLaws U) (accounted : after.Accounted)
    (lineage : after.lineageId = floor.lineageId) {fresh : List (String × VenueEvent)}
    (journaled : after.journaled = floor.journaled ++ fresh) (known : positions ⊆ floor.journaled.map positionOf) :
    Told after positions reports := by
  have fills : after.fills = floor.fills ++ fresh.flatMap fun entry => outcomeFills entry.2.outcome := by
    unfold Floor.fills
    rw [journaled, List.flatMap_append]
  constructor
  · exact told.once
  · rw [lineage]
    exact told.placed
  · intro report member trades
    obtain ⟨fill, filled, same⟩ := told.traded report member trades
    exact ⟨fill, fills ▸ List.mem_append_left _ filled, same⟩
  · intro report member silent fill filled same
    rw [fills] at filled
    rcases List.mem_append.1 filled with old | new
    · exact told.apart report member silent fill old same
    · obtain ⟨entry, among, here⟩ := List.mem_flatMap.1 new
      obtain ⟨position, held, index, named⟩ := told.placed report member
      have late : entry ∈ after.journaled := journaled ▸ List.mem_append_right _ among
      obtain ⟨place, -, called⟩ := (accounted.numbered laws late).below fill here
      rw [called, named, lineage] at same
      obtain ⟨underlying, sequence, -⟩ := LineageId.executionId_inj same
      have equal : positionOf entry = position := Prod.ext underlying sequence
      have once : ((floor.journaled ++ fresh).map positionOf).Nodup := journaled ▸ accounted.once
      rw [List.map_append] at once
      exact (List.nodup_append.1 once).2.2 position (known held) (positionOf entry) (List.mem_map_of_mem among) equal.symm

end Told

/-- Reports whose trades are numbered below a bound, and whose other reports are numbered from it on. -/
structure NumberedFrom (named : Nat → ExecutionId) (bound : Nat) (reports : List ExecReportSpec) : Prop where
  ids : ∃ count, (reports.map ExecReportSpec.execId).Perm ((List.range count).map named)
  traded : ∀ report ∈ reports, report.execType = .trade → ∃ index < bound, report.execId = named index
  apart : ∀ report ∈ reports, report.execType ≠ .trade → ∃ index, bound ≤ index ∧ report.execId = named index

theorem trades_execIds (placement : OrderFlow.Placement) (legs : List ExecutionRecord) (cum : Nat) :
    (placement.trades cum legs).map ExecReportSpec.execId = legs.map ExecutionRecord.executionId ∧
      ∀ report ∈ placement.trades cum legs, report.execType = .trade := by
  induction legs generalizing cum with
  | nil => exact ⟨rfl, List.forall_mem_nil _⟩
  | cons leg rest ih =>
    obtain ⟨ids, types⟩ := ih (checkedSum cum leg.quantity)
    refine ⟨?_, List.forall_mem_cons.2 ⟨rfl, types⟩⟩
    rw [OrderFlow.Placement.trades, List.map_cons, List.map_cons, ids]
    rfl

section Placement
variable {placement : OrderFlow.Placement} {legs : List ExecutionRecord} {named : Nat → ExecutionId}
  (names : placement.lineage.executionId placement.underlying placement.sequence = named)
  (takers : (legs.map ExecutionRecord.executionId).Perm ((List.range legs.length).map named))

include names in
/-- The clamp of an index does nothing where the index fits. -/
theorem milestone_execId {index : Nat} (fits : index ≤ u32Max) (execType : ExecType) (ordStatus : OrdStatus)
    (leaves cum : Nat) : (placement.milestone execType ordStatus index leaves cum).execId = named index := by
  rw [← names]
  unfold OrderFlow.Placement.milestone
  dsimp only
  rw [Nat.min_eq_left fits]

include names takers in
/-- The accept and the trades, before a terminal cancel. -/
theorem accepted_numbered (few : legs.length < u32Max) {accept : ExecType} (accepts : accept ≠ .trade)
    (status : OrdStatus) :
    ((placement.milestone accept status legs.length placement.quantity 0 :: placement.trades 0 legs).map
        ExecReportSpec.execId).Perm ((List.range (legs.length + 1)).map named) ∧
      NumberedFrom named legs.length
        (placement.milestone accept status legs.length placement.quantity 0 :: placement.trades 0 legs) := by
  obtain ⟨ids, types⟩ := trades_execIds placement legs 0
  have first := milestone_execId names (Nat.le_of_lt few) accept status placement.quantity 0
  rw [← ids] at takers
  have perm : ((placement.milestone accept status legs.length placement.quantity 0 :: placement.trades 0 legs).map
      ExecReportSpec.execId).Perm ((List.range (legs.length + 1)).map named) := by
    rw [List.map_cons, first, List.range_succ, List.map_append, List.map_singleton]
    exact (takers.cons _).trans (List.perm_append_singleton _ _).symm
  refine ⟨perm, ⟨_, perm⟩, fun report among trades => ?_, fun report among silent => ?_⟩
  · rcases List.mem_cons.1 among with rfl | traded
    · exact absurd trades accepts
    · obtain ⟨index, low, same⟩ := List.mem_map.1 (takers.subset (List.mem_map_of_mem traded))
      exact ⟨index, List.mem_range.1 low, same.symm⟩
  · rcases List.mem_cons.1 among with rfl | traded
    · exact ⟨_, Nat.le_refl _, first⟩
    · exact absurd (types report traded) silent

include names takers in
/-- The reports of a placement whose fills are numbered from zero on are numbered on. -/
theorem placement_numbered (few : legs.length < u32Max) {accept : ExecType} (accepts : accept ≠ .trade)
    (status : OrdStatus) (tif : TimeInForce) :
    NumberedFrom named legs.length (renderPlacementReports placement accept status tif legs) := by
  obtain ⟨perm, numbered⟩ := accepted_numbered names takers few accepts status
  unfold renderPlacementReports
  dsimp only
  split
  · have last := milestone_execId names few .canceled .canceled 0 (filledBy legs)
    constructor
    · refine ⟨legs.length + 1 + 1, ?_⟩
      rw [List.map_append, List.map_singleton, last, List.range_succ, List.map_append, List.map_singleton]
      exact perm.append_right _
    · intro report among trades
      rcases List.mem_append.1 among with early | terminal
      · exact numbered.traded report early trades
      · obtain rfl := List.mem_singleton.1 terminal
        cases trades
    · intro report among silent
      rcases List.mem_append.1 among with early | terminal
      · exact numbered.apart report early silent
      · obtain rfl := List.mem_singleton.1 terminal
        exact ⟨_, Nat.le_succ _, last⟩
  · rw [List.append_nil]
    exact numbered

end Placement

section Batches
variable {U : Upstream} {floor : Floor U} (accounted : floor.Accounted) (laws : MatchLaws U) {event : VenueEvent}

include accounted laws in
/-- The reports of a placement or a replacement, from the taker's legs of its event. -/
theorem told_placement {placement : OrderFlow.Placement} (member : (placement.underlying, event) ∈ floor.journaled)
    (lineage : placement.lineage = floor.lineageId) (sequence : placement.sequence = event.underlyingSequence)
    {legs : List ExecutionRecord} (takers : (legs.map ExecutionRecord.executionId).Perm
      ((takerFills (outcomeFills event.outcome)).map Fill.executionId))
    (few : (outcomeFills event.outcome).length < u32Max) {accept : ExecType} (accepts : accept ≠ .trade)
    (status : OrdStatus) (tif : TimeInForce) :
    Told floor [(placement.underlying, event.underlyingSequence)]
      (renderPlacementReports placement accept status tif legs) := by
  have numbered := accounted.numbered laws member
  have count : legs.length = (takerFills (outcomeFills event.outcome)).length := by
    have lengths := takers.length_eq
    rwa [List.length_map, List.length_map] at lengths
  rw [numbered.takers, ← count] at takers
  have few : legs.length < u32Max := by
    rw [count]
    exact Nat.lt_of_le_of_lt (List.length_filter_le ..) few
  have reports := placement_numbered (by rw [lineage, sequence]) takers few accepts status tif
  constructor
  · obtain ⟨total, ids⟩ := reports.ids
    exact ids.nodup_iff.2 (List.nodup_range.map fun first second same => (LineageId.executionId_inj same).2.2)
  · intro report among
    refine ⟨_, List.mem_singleton.2 rfl, ?_⟩
    by_cases trades : report.execType = .trade
    · obtain ⟨index, -, id⟩ := reports.traded report among trades
      exact ⟨index, id⟩
    · obtain ⟨index, -, id⟩ := reports.apart report among trades
      exact ⟨index, id⟩
  · intro report among trades
    obtain ⟨index, low, id⟩ := reports.traded report among trades
    have listed : report.execId ∈ (takerFills (outcomeFills event.outcome)).map Fill.executionId := by
      rw [numbered.takers, ← count, id]
      exact List.mem_map_of_mem (List.mem_range.2 low)
    obtain ⟨fill, taken, same⟩ := List.mem_map.1 listed
    exact ⟨fill, List.mem_flatMap.2 ⟨_, member, (List.mem_filter.1 taken).1⟩, same⟩
  · intro report among silent fill filled
    obtain ⟨index, above, id⟩ := reports.apart report among silent
    rw [id]
    exact accounted.above_fills laws member (count ▸ above) fill filled

/-- A report of a cancelled order stands at a journaled event without fills. -/
def CancelledAt (floor : Floor U) (underlying : String) (sequence : Nat) : Prop :=
  ∃ event, (underlying, event) ∈ floor.journaled ∧ event.underlyingSequence = sequence ∧ outcomeFills event.outcome = []

include accounted laws in
theorem CancelledAt.above_fills {underlying : String} {sequence : Nat}
    (cancelled : CancelledAt floor underlying sequence) (index : Nat) :
    ∀ fill ∈ floor.fills, fill.executionId ≠ floor.lineageId.executionId underlying sequence index := by
  obtain ⟨event, member, rfl, silent⟩ := cancelled
  refine accounted.above_fills laws member ?_
  rw [silent]
  exact Nat.zero_le _

include accounted laws in
theorem told_cancel {underlying : String} {sequence : Nat} (cancelled : CancelledAt floor underlying sequence)
    (symbol : Symbol) (side : OrderSide) (orderId : VenueOrderId) (venueTs : Nat) :
    Told floor [(underlying, sequence)]
      [renderCancelReport symbol side orderId sequence venueTs floor.lineageId underlying] where
  once := List.nodup_singleton _
  placed := List.forall_mem_singleton.2 ⟨_, List.mem_singleton.2 rfl, 0, rfl⟩
  traded := List.forall_mem_singleton.2 fun trades => by cases trades
  apart := List.forall_mem_singleton.2 fun _ => cancelled.above_fills accounted laws 0

include accounted laws in
/-- The legs of a sweep are numbered over the whole venue. -/
theorem told_swept {venue : AppState} (lineage : venue.lineageId = floor.lineageId) {affected : List SweptLeg}
    (swept : ∀ leg ∈ affected, CancelledAt floor (underlyingOfSymbol U leg.leg.symbol) leg.sequence) (now index : Nat) :
    Told floor (affected.map fun swept => (underlyingOfSymbol U swept.leg.symbol, swept.sequence))
      (sweptSpecs U venue now index affected) := by
  have entries : ∀ report ∈ sweptSpecs U venue now index affected, ∃ leg ∈ affected, ∃ place,
      report.execType = .canceled ∧ report.execId =
        floor.lineageId.executionId (underlyingOfSymbol U leg.leg.symbol) leg.sequence place := by
    intro report among
    obtain ⟨⟨leg, place⟩, listed, rfl⟩ := List.mem_map.1 among
    refine ⟨leg, List.fst_mem_of_mem_zipIdx listed, place, rfl, ?_⟩
    rw [← lineage]
    rfl
  constructor
  · unfold sweptSpecs
    rw [List.map_map]
    refine List.Nodup.map_on ?_ (List.Nodup.of_map Prod.snd (by rw [List.zipIdx_map_snd]; exact List.nodup_range'))
    rintro ⟨leg, place⟩ first ⟨other, last⟩ second same
    obtain ⟨-, -, equal⟩ := LineageId.executionId_inj same
    obtain rfl : place = last := equal
    have here := (List.mk_mem_zipIdx_iff_le_and_getElem?_sub.1 first).2
    have there := (List.mk_mem_zipIdx_iff_le_and_getElem?_sub.1 second).2
    rw [Option.some.inj (here.symm.trans there)]
  · intro report among
    obtain ⟨leg, listed, place, -, id⟩ := entries report among
    exact ⟨_, List.mem_map_of_mem listed, place, id⟩
  · intro report among trades
    obtain ⟨leg, -, place, canceled, -⟩ := entries report among
    rw [canceled] at trades
    cases trades
  · intro report among _
    obtain ⟨leg, listed, place, -, id⟩ := entries report among
    rw [id]
    exact (swept leg listed).above_fills accounted laws place

end Batches

end Fauxchange.Fix
