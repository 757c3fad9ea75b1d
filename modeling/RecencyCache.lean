import RecencyCache.Chain
import RecencyCache.Config
import RecencyCache.Counters
import RecencyCache.Decimal.Binary
import RecencyCache.Decimal.Digits
import RecencyCache.Decimal.Fixed
import RecencyCache.Decimal.Shortest
import RecencyCache.Duration
import RecencyCache.Engine
import RecencyCache.Entry
import RecencyCache.Fault
import RecencyCache.Http.MediaType
import RecencyCache.Http.Message
import RecencyCache.Http.Percent
import RecencyCache.Http.RequestBody
import RecencyCache.Http.ResponseBody
import RecencyCache.Http.Route
import RecencyCache.Http.Server
import RecencyCache.Json.Document
import RecencyCache.Json.Failure
import RecencyCache.Json.Numeral
import RecencyCache.Json.Quoted
import RecencyCache.Json.Record
import RecencyCache.Json.Skip
import RecencyCache.Moment
import RecencyCache.Program
import RecencyCache.Query
import RecencyCache.Refusal
import RecencyCache.Report
import RecencyCache.Store
import RecencyCache.Sweeper
import RecencyCache.Text.Blank
import RecencyCache.Timestamp
import RecencyCache.Word
import RecencyCache.Proofs.Chain.Links
import RecencyCache.Proofs.Chain.Representation
import RecencyCache.Proofs.Chain.Contents
import RecencyCache.Proofs.Chain.Surgery
import RecencyCache.Proofs.Chain.Arena
import RecencyCache.Proofs.Plain.Engine
import RecencyCache.Proofs.Refinement.Store
import RecencyCache.Proofs.Refinement.Engine
import RecencyCache.Proofs.Refinement.SweepOrder
import RecencyCache.Proofs.Refinement.Program
import RecencyCache.Proofs.Soundness
import RecencyCache.Proofs.Overwriting
import RecencyCache.Proofs.Resizing
import RecencyCache.Proofs.Eviction
import RecencyCache.Proofs.Settings
import RecencyCache.Proofs.Refreshing.Steps
import RecencyCache.Proofs.Refreshing.Programs
import RecencyCache.Proofs.Inclusion
import RecencyCache.Proofs.Provenance
import RecencyCache.Proofs.Sweeping
import RecencyCache.Proofs.Elapsing
import RecencyCache.Proofs.Running
import RecencyCache.Proofs.Retention
import RecencyCache.Proofs.SurviveTime
import RecencyCache.Proofs.AccessOrder
import RecencyCache.Proofs.Balance
import RecencyCache.Proofs.Creation
import RecencyCache.Proofs.FailedCreation
import RecencyCache.Proofs.Views
import RecencyCache.Proofs.Lookups
import RecencyCache.Proofs.Recycling
import RecencyCache.Proofs.LastAccess
import RecencyCache.Proofs.Expiry
import RecencyCache.Proofs.StackDistance
import RecencyCache.Proofs.Values
import RecencyCache.Proofs.Disposal
import RecencyCache.Proofs.Json.Numerals
import RecencyCache.Proofs.Json.Spelling
import RecencyCache.Proofs.Json.Layout
import RecencyCache.Proofs.Json.Grammar
import RecencyCache.Proofs.Json.Members
import RecencyCache.Proofs.Http.Routes
import RecencyCache.Proofs.Http.Requests
import RecencyCache.Proofs.Http.Projection
import RecencyCache.Proofs.Removal
import RecencyCache.Proofs.Http.Segments
import RecencyCache.Proofs.Http.Bodies
import RecencyCache.Proofs.Http.Decoding
import RecencyCache.Proofs.Http.RoundTrip
