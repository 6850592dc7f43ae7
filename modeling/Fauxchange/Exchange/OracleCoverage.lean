import Fauxchange.Exchange.Recovery

/-! Which stored events a recovery holds against the re-derived ones. The reducer goes through the commands and asks
for the first event at the sequence of each, so an event without a command is never looked at, nor is a second event
at one sequence. A journal that the actor wrote has neither. -/

namespace Fauxchange.Exchange
open Lib

def storedEvents (records : List JournalRecord) : List VenueEvent := records.filterMap JournalRecord.asEvent?

/-- The event is the one that the reducer has held against those re-derived at its sequence, and it agrees with them. -/
structure Recovered.Verifies {U : Upstream} (recovered : Recovered U) (records : List JournalRecord)
    (event : VenueEvent) : Prop where
  examined : storedEventAt records event.underlyingSequence = some event
  rederived : ∃ derived ∈ recovered.events, derived.envelope ∈ commandRecordsInOrder records ∧
    derived.underlyingSequence = event.underlyingSequence
  agrees : ∀ derived ∈ recovered.events, derived.underlyingSequence = event.underlyingSequence →
    storedEventMatches event derived = true

/-- Every event has a command at its sequence, and no two events at one sequence differ. -/
structure EventsCovered (records : List JournalRecord) : Prop where
  commanded : ∀ event ∈ storedEvents records,
    event.underlyingSequence ∈ (records.filterMap JournalRecord.asCommand?).map JournalCommand.sequence
  single : ∀ event ∈ storedEvents records, ∀ other ∈ storedEvents records,
    event.underlyingSequence = other.underlyingSequence → event = other

theorem eventsCovered_iff {records : List JournalRecord} : EventsCovered records ↔
    (∀ event ∈ storedEvents records,
      event.underlyingSequence ∈ (records.filterMap JournalRecord.asCommand?).map JournalCommand.sequence) ∧
    ∀ event ∈ storedEvents records, ∀ other ∈ storedEvents records,
      event.underlyingSequence = other.underlyingSequence → event = other :=
  ⟨fun covered => ⟨covered.commanded, covered.single⟩, fun covered => ⟨covered.1, covered.2⟩⟩

instance EventsCovered.decidable (records : List JournalRecord) : Decidable (EventsCovered records) :=
  decidable_of_iff _ eventsCovered_iff.symm

theorem storedEventAt_mem {records : List JournalRecord} {sequence : Nat} {event : VenueEvent}
    (found : storedEventAt records sequence = some event) :
    event ∈ storedEvents records ∧ event.underlyingSequence = sequence :=
  ⟨List.mem_of_find?_eq_some found, by simpa using List.find?_some found⟩

theorem storedEventAt_isSome {records : List JournalRecord} {event : VenueEvent}
    (stored : event ∈ storedEvents records) :
    ∃ first, storedEventAt records event.underlyingSequence = some first := by
  refine Option.isSome_iff_exists.1 (List.find?_isSome.2 ⟨event, stored, ?_⟩)
  exact decide_eq_true (Eq.refl _)

theorem mem_commandRecordsInOrder {records : List JournalRecord} {command : JournalCommand} :
    command ∈ commandRecordsInOrder records ↔ command ∈ records.filterMap JournalRecord.asCommand? :=
  (List.perm_insertionSort _ _).mem_iff

section Coverage
variable {U : Upstream} {records : List JournalRecord} {executor : MatchingExecutor U} {underlying : String}
  {lineage : LineageId} {microstructure : Option Microstructure.MicrostructureConfig} {index : Option ClOrdIdIndex}
  {recovered : Recovered U}

/-- The reducer re-derives one event for each command. -/
theorem reduceIntoExecutor_envelopes
    (reduced : reduceIntoExecutor records executor underlying lineage microstructure index = .ok recovered) :
    recovered.events.map VenueEvent.envelope = commandRecordsInOrder records := by
  have answered := reexecute_envelopes underlying lineage executor (commandRecordsInOrder records)
  rw [reduceIntoExecutor_executor underlying lineage reduced] at answered
  exact answered

theorem EventsCovered.of_verified (verified : ∀ event ∈ storedEvents records, recovered.Verifies records event) :
    EventsCovered records := by
  refine ⟨fun event stored => ?_, fun event stored other listed same => ?_⟩
  · obtain ⟨derived, -, commanded, here⟩ := (verified event stored).rederived
    exact List.mem_map.2 ⟨derived.envelope, mem_commandRecordsInOrder.1 commanded, here⟩
  · have first := (verified event stored).examined
    rw [same, (verified other listed).examined] at first
    exact (Option.some.inj first).symm

theorem EventsCovered.verified (covered : EventsCovered records)
    (reduced : reduceIntoExecutor records executor underlying lineage microstructure index = .ok recovered)
    {event : VenueEvent} (stored : event ∈ storedEvents records) : recovered.Verifies records event := by
  have answered := reduceIntoExecutor_envelopes reduced
  have examined : storedEventAt records event.underlyingSequence = some event := by
    obtain ⟨first, found⟩ := storedEventAt_isSome stored
    obtain ⟨listed, place⟩ := storedEventAt_mem found
    rw [found, covered.single first listed event stored place]
  refine ⟨examined, ?_, fun derived member same => ?_⟩
  · obtain ⟨command, journaled, here⟩ := List.mem_map.1 (covered.commanded event stored)
    have ordered := mem_commandRecordsInOrder.2 journaled
    obtain ⟨derived, member, envelope⟩ := List.mem_map.1 (answered.symm ▸ ordered)
    refine ⟨derived, member, ?_, ?_⟩
    · rw [envelope]
      exact ordered
    · rw [← here, ← envelope]
      exact Eq.refl _
  · refine reduceIntoExecutor_matches underlying lineage reduced derived member event ?_
    rw [same]
    exact examined

/-- The stored events have all been held against the re-derived ones exactly where each has a command and none
stands behind a different one. -/
theorem reduceIntoExecutor_verifies_iff
    (reduced : reduceIntoExecutor records executor underlying lineage microstructure index = .ok recovered) :
    (∀ event ∈ storedEvents records, recovered.Verifies records event) ↔ EventsCovered records :=
  ⟨EventsCovered.of_verified, fun covered _ stored => covered.verified reduced stored⟩

end Coverage

/-- A bid that is admitted and rests, as its command and its event stand in a journal. -/
def bidPair : List JournalRecord :=
  (deriveEvent "BTC" "run-1" (freshExecutor referenceUpstream "BTC" none none fun _ _ => Equiv.refl _)
    ⟨0, 1, testOrder "a" .buy 100⟩).1.pair

/-- What the recovery of a journal of the test contract gives. -/
def recoverTest (records : List JournalRecord) : Except JournalError (Recovered referenceUpstream) :=
  reduceIntoExecutor records (freshExecutor referenceUpstream "BTC" none none fun _ _ => Equiv.refl _) "BTC" "run-1" none
    none

theorem bidPair_verified : ∃ recovered, recoverTest bidPair = .ok recovered ∧
    ∀ event ∈ storedEvents bidPair, recovered.Verifies bidPair event := by
  have accepted : (recoverTest bidPair).toOption.isSome = true := by decide
  cases reduced : recoverTest bidPair with
  | error error =>
    rw [reduced] at accepted
    cases accepted
  | ok recovered => exact ⟨recovered, Eq.refl _, (reduceIntoExecutor_verifies_iff reduced).2 (by decide)⟩

/-- An event whose command is missing, and an event behind another one of its sequence. -/
def orphanEvent : VenueEvent := .new 1 2 (testOrder "b" .sell 200) (.rejected .internal "lost")
def secondEvent : VenueEvent := .new 0 1 (testOrder "a" .buy 100) (.rejected .notFound "forged")

/-- The recovery accepts both without having looked at them. -/
theorem unexamined_accepted :
    (∃ recovered, recoverTest (bidPair ++ [.event orphanEvent]) = .ok recovered ∧
      ¬∀ event ∈ storedEvents (bidPair ++ [.event orphanEvent]),
        recovered.Verifies (bidPair ++ [.event orphanEvent]) event) ∧
    ∃ recovered, recoverTest (bidPair ++ [.event secondEvent]) = .ok recovered ∧
      ¬∀ event ∈ storedEvents (bidPair ++ [.event secondEvent]),
        recovered.Verifies (bidPair ++ [.event secondEvent]) event := by
  have accepted : ∀ event ∈ [orphanEvent, secondEvent],
      (recoverTest (bidPair ++ [.event event])).toOption.isSome = true ∧ ¬EventsCovered (bidPair ++ [.event event]) := by
    decide
  have passed : ∀ event ∈ [orphanEvent, secondEvent], ∃ recovered,
      recoverTest (bidPair ++ [.event event]) = .ok recovered ∧
        ¬∀ stored ∈ storedEvents (bidPair ++ [.event event]),
          recovered.Verifies (bidPair ++ [.event event]) stored := by
    intro event listed
    obtain ⟨succeeds, uncovered⟩ := accepted event listed
    cases reduced : recoverTest (bidPair ++ [.event event]) with
    | error error =>
      rw [reduced] at succeeds
      cases succeeds
    | ok recovered =>
      exact ⟨recovered, Eq.refl _, fun verified => uncovered (.of_verified verified)⟩
  exact ⟨passed orphanEvent (by simp), passed secondEvent (by simp)⟩

/-- A journal that the actor wrote is covered, under any faults and wherever the process crashed. -/
theorem BootedRun.eventsCovered {U : Upstream} (run : BootedRun)
    (rivalFree : RivalFreeRun (run.actor U) run.inputs) : EventsCovered (run.records U) := by
  have initial : Ledger (run.origin U) [] .running (run.actor U) := Origin.ledger _ _ _ _ _
  obtain ⟨events, phase, ledger, -⟩ := initial.run run.inputs rivalFree
  rw [List.nil_append] at ledger
  obtain ⟨tail, records, shape⟩ := ledger.tail run.landed
  change run.records U = events.flatMap VenueEvent.pair ++ tail at records
  have paired : ∀ event ∈ storedEvents (run.records U),
      event.envelope ∈ (run.records U).filterMap JournalRecord.asCommand? ∧ event ∈ events ++ phase.pending := by
    unfold storedEvents
    rw [records, List.filterMap_append, List.filterMap_append, filterMap_asEvent?_pairs, filterMap_asCommand?_pairs]
    intro event stored
    rcases List.mem_append.1 stored with old | new
    · exact ⟨List.mem_append_left _ (List.mem_map_of_mem old), List.mem_append_left _ old⟩
    · rcases shape with ⟨rfl, -⟩ | ⟨stray, -, rfl, -⟩ | ⟨last, pending, rfl | rfl⟩
      · cases new
      · simp [JournalRecord.asEvent?] at new
      · simp [JournalRecord.asEvent?] at new
      · obtain rfl : event = last := by simpa [VenueEvent.pair, JournalRecord.asEvent?, List.filterMap_cons] using new
        rw [pending]
        exact ⟨List.mem_append_right _ (by simp [VenueEvent.pair, JournalRecord.asCommand?, List.filterMap_cons]), by simp⟩
  refine ⟨fun event stored => List.mem_map.2 ⟨event.envelope, (paired event stored).1, Eq.refl _⟩, ?_⟩
  intro event stored other listed same
  have unique : ((events ++ phase.pending).map VenueEvent.underlyingSequence).Nodup :=
    ledger.gapless ▸ List.nodup_range'
  exact List.inj_on_of_nodup_map unique (paired event stored).2 (paired other listed).2 same

/-- The journal refuses the event of the offer, and the process ends there. -/
def cutShortRun : BootedRun :=
  { sweptRun "a" "b" with script := [.quiet .none, .quiet .none, .quiet .none, .quiet (.appendFailed "connection closed")] }

end Fauxchange.Exchange
