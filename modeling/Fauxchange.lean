import Fauxchange.Auth.RateRuns
import Fauxchange.Exchange.AddLegs
import Fauxchange.Exchange.Correlation
import Fauxchange.Exchange.EpochRecovery
import Fauxchange.Exchange.IndexCounts
import Fauxchange.Exchange.OracleCoverage
import Fauxchange.Exchange.PositionPrice
import Fauxchange.Exchange.RestoredIds
import Fauxchange.Exchange.RoundTrip
import Fauxchange.Exchange.StatusGate
import Fauxchange.Exchange.StoreIsolation
import Fauxchange.Exchange.StoreRestore
import Fauxchange.Exchange.TakerLegs
import Fauxchange.Exchange.TornFold
import Fauxchange.Fix.Addressing
import Fauxchange.Fix.Deferred
import Fauxchange.Fix.DepthBook
import Fauxchange.Fix.ExpireTime
import Fauxchange.Fix.Groups
import Fauxchange.Fix.MassCancel
import Fauxchange.Fix.PriceGrammar
import Fauxchange.Fix.Resends
import Fauxchange.Fix.TradingIds
import Fauxchange.Fix.Undecodable
import Fauxchange.MarketData.AggregateRuns
import Fauxchange.MarketData.MirrorRuns
import Fauxchange.Microstructure.FeeProof
import Fauxchange.Microstructure.IngressRelease
import Fauxchange.Microstructure.Merge
import Fauxchange.Rest.FastPath
import Fauxchange.Rest.Support
import Fauxchange.Simulation.Publishing
import Fauxchange.Simulation.ReplayFolds
import Fauxchange.Simulation.ReplayGate
import Fauxchange.Venue.KillSwitch
import Fauxchange.Venue.OrderIds
import Fauxchange.Venue.PlacedOnce
import Fauxchange.Venue.Producers
import Fauxchange.Venue.RollSettles
import Fauxchange.Venue.VenueTime
import Fauxchange.Fix.MessageRoundTrip
import Fauxchange.Auth.Revocation
import Fauxchange.Auth.TicketRuns
import Fauxchange.Venue.ActorMailbox
import Fauxchange.Ws.BookFollowed
import Fauxchange.Ws.Events
