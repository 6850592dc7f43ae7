import Fauxchange.Exchange.Correlation
import Fauxchange.Exchange.SweepTurns
import Fauxchange.Lib.Effects

/-! The floor of a running process: the actors of all its underlyings, with the two stores and the client-order-id
index that they share. An actor has them in its hands for a turn, and what it leaves of them the next one finds. -/

namespace Fauxchange.Venue
open Exchange Lib

def defaultMaxClOrdIdIndexEntries : Nat := 1000000
def defaultMaxClOrdIdPerAccount : Nat := 65536

/-- The actors of a process and what they share. The events whose append was confirmed are kept beside it, each with
its underlying. -/
structure Floor (U : Upstream) where
  lineageId : LineageId
  actors : String → Option (VenueActor U)
  executions : InMemoryExecutionsStore
  positions : InMemoryPositionsStore
  clordidIndex : ClOrdIdIndex
  journaled : List (String × VenueEvent)

section Opening
variable {U : Upstream}

/-- The recovered underlyings, in boot order. -/
def recoveredOf (probed : List (String × Option (Stream × Recovered U))) : List (String × Recovered U) :=
  probed.filterMap fun entry => entry.2.map fun found => (entry.1, found.2)

/-- The recovered underlyings rebuild the shared stores one after the other. -/
def rebuildShared (stores : StoreFanOut U) : List (String × Recovered U) → Except AppStateError (StoreFanOut U)
  | [] => .ok stores
  | (underlying, recovered) :: rest =>
    match rebuildStoresFromEvents stores recovered.events with
    | .error failed => .error (.recoveryProjectionFailed underlying failed.projection failed.detail)
    | .ok next => rebuildShared next rest

/-- Every event of the recovered underlyings with its underlying. -/
def recoveredEvents (recovered : List (String × Recovered U)) : List (String × VenueEvent) :=
  recovered.flatMap fun entry => entry.2.events.map fun event => (entry.1, event)

/-- A process boots, with its stores and its index rebuilt from what it has recovered. -/
def Floor.boot (U : Upstream) (config : BootConfig) (streams : String → Option Stream) :
    Except AppStateError (Floor U) := do
  let process ← Venue.boot U config streams
  let probed ← probeAll U config streams config.underlyings.dedup
  let stores ← rebuildShared (.new U) (recoveredOf probed)
  let events := recoveredEvents (recoveredOf probed)
  .ok
    { lineageId := process.lineageId
      actors := process.actors
      executions := stores.executions
      positions := stores.positions
      clordidIndex := (ClOrdIdIndex.withCeilings defaultMaxClOrdIdIndexEntries defaultMaxClOrdIdPerAccount).publishAll
        (events.map Prod.snd)
      journaled := events }

end Opening

namespace Floor
variable {U : Upstream} (floor : Floor U)

/-- An actor with the shared state in its hands. -/
def lend (actor : VenueActor U) : VenueActor U :=
  { actor with
    fanOut := { actor.fanOut with executions := floor.executions, positions := floor.positions }
    clordidIndex := some floor.clordidIndex }

/-- One sequenced turn of the actor of an underlying. -/
def turn (underlying : String) (input : Submission) : Except VenueError Receipt × Floor U :=
  match floor.actors underlying with
  | none => (.error (.notFound ("underlying '" ++ underlying ++ "' is not hosted by this venue")), floor)
  | some actor =>
    let lent := floor.lend actor
    let done := lent.handle input
    (done.1,
      { floor with
        actors := Function.update floor.actors underlying (some done.2)
        executions := done.2.fanOut.executions
        positions := done.2.fanOut.positions
        clordidIndex := done.2.clordidIndex.getD floor.clordidIndex
        journaled := floor.journaled ++ if lent.Commits input then [(underlying, (lent.derived input).1)] else [] })

/-- The turns of a run, each with the underlying that takes it. -/
def run (turns : List (String × Submission)) : Floor U :=
  turns.foldl (fun floor taken => (floor.turn taken.1 taken.2).2) floor

theorem run_append (early late : List (String × Submission)) :
    floor.run (early ++ late) = (floor.run early).run late := List.foldl_append ..

/-- The legs that the journaled events bring to the stores. -/
def legs : List StoreLeg := floor.journaled.flatMap fun entry => storeLegs U entry.2

end Floor

end Fauxchange.Venue
