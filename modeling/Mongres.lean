import Mongres.Library.Text
import Mongres.Library.Formula
import Mongres.Library.Tally
import Mongres.Library.Nested
import Mongres.Library.Placing
import Mongres.Library.Fallible
import Mongres.Library.Json
import Mongres.Library.Decimal
import Mongres.Library.Binary64
import Mongres.Common
import Mongres.Schema.FieldPath
import Mongres.Schema.Sample
import Mongres.Schema.Infer
import Mongres.Bson
import Mongres.Schema.FromBson
import Mongres.Mongo.Filter
import Mongres.Mongo.Matching
import Mongres.Mongo.Update
import Mongres.Sql.Plan
import Mongres.Sql.Truth
import Mongres.Sql.TypePolicy
import Mongres.Sql.Ast
import Mongres.Sql.Resolve
import Mongres.Sql.Lowering
import Mongres.Sql.Binding
import Mongres.Policy.Ambiguity
import Mongres.Policy.MixedTypes
import Mongres.Policy.Candidates
import Mongres.Policy.Contract
import Mongres.Service.Contract
import Mongres.Policy.Audit
import Mongres.Proxy.Gate
import Mongres.Proxy.Offers
import Mongres.Service.Acceptance
import Mongres.Executor.Documents
import Mongres.Executor.Execute
import Mongres.Executor.FieldNames
import Mongres.Executor.FilterGrammar
import Mongres.Executor.SqlMeaning
import Mongres.Catalog.Project
import Mongres.Proxy.Wire
import Mongres.Proxy.Parameters
import Mongres.Proxy.Routing
import Mongres.Proxy.Backend
import Mongres.Proxy.FailClosed
import Mongres.Proxy.TypeSafety
import Mongres.Proxy.UpdateSafety
import Mongres.Proxy.Interception
import Mongres.Service.Recommendation
import Mongres.Proxy.Authentication
import Mongres.Catalog.Truth
import Mongres.Proxy.Description
import Mongres.Sql.Modifiers
import Mongres.Sql.Substitution
import Mongres.Proxy.Isolation
import Mongres.Sql.Literals
import Mongres.Library.Binary32
import Mongres.Proxy.Decoding
import Mongres.Library.JsonText
import Mongres.Proxy.Cells
import Mongres.Library.Rounding
import Mongres.Library.Interleaving
import Mongres.Proxy.AuditTrail
import Mongres.Sql.Addressing
import Mongres.Proxy.AuditReasons
import Mongres.Schema.Definition
import Mongres.Policy.Evidence
import Mongres.Policy.Disclosure
import Mongres.Executor.Limits
import Mongres.Proxy.InsertDocuments
import Mongres.Proxy.UpdateDocuments
import Mongres.Mongo.Projection
import Mongres.Proxy.Projections
import Mongres.Proxy.Redaction
import Mongres.Executor.Refusals
import Mongres.Sql.InsertColumns
import Mongres.Policy.Conversions
import Mongres.Library.Overflow
import Mongres.Library.BigEndian
import Mongres.Proxy.Lossless
import Mongres.Proxy.FiniteNumbers
import Mongres.Library.Codec
import Mongres.Library.Labelled
import Mongres.Mongo.Server
import Mongres.Proxy.ServerReads
import Mongres.Proxy.Tables
import Mongres.Proxy.Deployment
import Mongres.Proxy.Confinement
import Mongres.Proxy.SqlRuns
import Mongres.Discovery.Stored
import Mongres.Discovery.Collections
import Mongres.Discovery.Metadata
import Mongres.Discovery.Discover
import Mongres.Proxy.Startup
import Mongres.Library.Task
import Mongres.Library.Linearization
import Mongres.Library.Overlap
import Mongres.Proxy.Async
import Mongres.Proxy.Concurrency
import Mongres.Service.Resolver
import Mongres.Proxy.Protocol
import Mongres.Library.Failure
import Mongres.Sql.Errors
import Mongres.Proxy.SqlStates
