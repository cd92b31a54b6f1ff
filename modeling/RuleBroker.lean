import RuleBroker.Broker.Schedule
import RuleBroker.Function.ProfitTrend
import RuleBroker.Logging
import RuleBroker.Phrase
import RuleBroker.Progress
import RuleBroker.Result.Written
import RuleBroker.Store.Files
import RuleBroker.Store.Memory
import RuleBroker.Summary
import RuleBroker.Proofs.ActiveConfiguration
import RuleBroker.Proofs.Exclusion
import RuleBroker.Proofs.FloatBounds
import RuleBroker.Proofs.Flattening
import RuleBroker.Proofs.ReadBack
import RuleBroker.Proofs.Counting
import RuleBroker.Proofs.LastRun
import RuleBroker.Proofs.WellFormed
import RuleBroker.Proofs.Lookup
import RuleBroker.Proofs.PathLookup
import RuleBroker.Proofs.Documents
import RuleBroker.Proofs.DecimalValue
import RuleBroker.Proofs.DecimalRange
import RuleBroker.Proofs.MovingAverage
import RuleBroker.Proofs.RefusedUpdates
import RuleBroker.Proofs.ExactAverage
import RuleBroker.Proofs.DecimalText
import RuleBroker.Proofs.ProfitSeries
import RuleBroker.Proofs.LeastCount
import RuleBroker.Proofs.Registration
import RuleBroker.Proofs.Stores
import RuleBroker.Proofs.Projection
import RuleBroker.Proofs.Apportioning
import RuleBroker.Proofs.Tallies
import RuleBroker.Proofs.Containment
import RuleBroker.Proofs.History
import RuleBroker.Proofs.Shapes
import RuleBroker.Proofs.Normalising
import RuleBroker.Proofs.FinalReading
import RuleBroker.Proofs.LoadedSettings
import RuleBroker.Proofs.Overrides
import RuleBroker.Proofs.NumberValues
import RuleBroker.Proofs.AverageTime
import RuleBroker.Proofs.Traversal
