import Replica.Data.Dict
import Replica.Json.Parser
import Replica.Record.Codec
import Replica.Schema.Registry
import Replica.Schema.Codec
import Replica.Schema.Catalog
import Replica.Predicate.Codec
import Replica.Predicate.Evaluate
import Replica.Predicate.Filter
import Replica.Store.Condition
import Replica.Store.Basic
import Replica.Settings.Basic
import Replica.Store.Readiness
import Replica.Seed.Files
import Replica.Seed.Opening
import Replica.Request.Page
import Replica.Cycle.Run
import Replica.Exchange.Http
import Replica.Seed.Codec
import Replica.Proofs.Cycle.Rounds
import Replica.Proofs.Cycle.Pagination
import Replica.Proofs.Cycle.Atomicity
import Replica.Proofs.Cycle.Watermark
import Replica.Proofs.Cycle.Backend
import Replica.Proofs.Cycle.Convergence
import Replica.Proofs.Cycle.LastArrival
import Replica.Proofs.Cycle.Idempotence
import Replica.Proofs.Cycle.OverlaySource
import Replica.Proofs.Cycle.DiscardedSlice
import Replica.Proofs.Cycle.ChosenOverlay
import Replica.Proofs.Cycle.Callers
import Replica.Proofs.Cycle.NeededRecords
import Replica.Proofs.Cycle.FullOrIncremental
import Replica.Proofs.Cycle.NewestVersion
import Replica.Proofs.Cycle.MergeFailure
import Replica.Proofs.Schema.Registration
import Replica.Proofs.Predicate.FilterAgreement
import Replica.Proofs.Store.QueryAgreement
import Replica.Proofs.Store.QueryAlgebra
import Replica.Proofs.Store.RowMap
import Replica.Proofs.Store.Separation
import Replica.Proofs.Store.ClauseText
import Replica.Proofs.Settings.Agreement
import Replica.Proofs.Request.Composition
import Replica.Proofs.Request.ComposedResponse
import Replica.Proofs.Request.SentValues
import Replica.Proofs.Request.WholeWords
import Replica.Proofs.Seed.Once
import Replica.Proofs.Seed.Failure
import Replica.Proofs.Seed.Admission
import Replica.Proofs.Seed.Handover
import Replica.Proofs.Time.TextReading
