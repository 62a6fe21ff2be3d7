import GatewayCache.CacheControl
import GatewayCache.Capture
import GatewayCache.Clock
import GatewayCache.Config
import GatewayCache.Config.Environment
import GatewayCache.Config.Record
import GatewayCache.Dict
import GatewayCache.Digest
import GatewayCache.Document
import GatewayCache.Double
import GatewayCache.Entry
import GatewayCache.Entry.Record
import GatewayCache.Fault
import GatewayCache.Http.Date
import GatewayCache.Http.Field
import GatewayCache.Http.Message
import GatewayCache.Http.Target
import GatewayCache.Json.Number
import GatewayCache.Json.Quoted
import GatewayCache.Json.Reader
import GatewayCache.Json.Writer
import GatewayCache.Key
import GatewayCache.Key.Record
import GatewayCache.KeyValue
import GatewayCache.KeyValue.Rehearsal
import GatewayCache.KeyValue.Reply
import GatewayCache.KeyValue.Server
import GatewayCache.KeyValue.Table
import GatewayCache.Metadata.Directory
import GatewayCache.Metadata.Projects
import GatewayCache.Metadata.RecencyCache
import GatewayCache.Policy
import GatewayCache.Proofs.Capture.Progress
import GatewayCache.Proofs.Session.Moves
import GatewayCache.Proofs.Session.History
import GatewayCache.Proofs.Store.Standing
import GatewayCache.Ratio
import GatewayCache.ResponseCache
import GatewayCache.ResponseCache.Session
import GatewayCache.Run
import GatewayCache.Store
import GatewayCache.Store.Memory
import GatewayCache.Store.Networked
import GatewayCache.Text.Base64
import GatewayCache.Text.Blank
import GatewayCache.Text.Case
import GatewayCache.Text.Cut
import GatewayCache.Text.Decimal
import GatewayCache.Text.Form
import GatewayCache.Text.Glob
import GatewayCache.Text.Hex
import GatewayCache.Text.Utf8
import GatewayCache.Validators
import GatewayCache.Yaml.Line
import GatewayCache.Yaml.Place
import GatewayCache.Yaml.Reader
import GatewayCache.Yaml.Scalar
import GatewayCache.Proofs.Session.Origin
import GatewayCache.Proofs.Session.Served
import GatewayCache.Proofs.Entry.Replay
import GatewayCache.Proofs.Session.Sharing
import GatewayCache.Proofs.Digest.Collision
import GatewayCache.Proofs.Key.Parts
import GatewayCache.Proofs.Key.Spelled
import GatewayCache.Proofs.Key.Negotiation
import GatewayCache.Proofs.Text.Form
import GatewayCache.Proofs.Key.RequestLine
import GatewayCache.Proofs.Key.Suffix
import GatewayCache.Proofs.CacheControl.Directives
import GatewayCache.Proofs.CacheControl.Merging
import GatewayCache.Proofs.ResponseCache.Plan
import GatewayCache.Proofs.Policy.Reading
import GatewayCache.Proofs.Policy.Forbidden
import GatewayCache.Proofs.Json.Quoted
import GatewayCache.Proofs.Json.Number
import GatewayCache.Proofs.Json.Written
import GatewayCache.Proofs.Text.Base64
import GatewayCache.Proofs.Entry.Record
import GatewayCache.Proofs.Entry.Decisions
import GatewayCache.Proofs.ResponseCache.Agreement
import GatewayCache.Proofs.Capture.Life
import GatewayCache.Proofs.Store.Expiring
import GatewayCache.Proofs.Dict.Parts
import GatewayCache.Proofs.Text.Glob
import GatewayCache.Proofs.KeyValue.Exact
import GatewayCache.Proofs.Store.Sweep
import GatewayCache.Proofs.Store.Interchange
import GatewayCache.Proofs.Store.Ending
import GatewayCache.Proofs.Store.ReadBack
import GatewayCache.Proofs.Metadata.Items
import GatewayCache.Proofs.Metadata.LastWrite
import GatewayCache.Proofs.Metadata.Recency
import GatewayCache.Proofs.Metadata.Retention
import GatewayCache.Proofs.Metadata.ReadThrough
import GatewayCache.Proofs.Metadata.Freshness
import GatewayCache.Proofs.ResponseCache.Influence
import GatewayCache.Proofs.Session.Counted
import GatewayCache.Proofs.Session.SizeLimit
import GatewayCache.Proofs.Store.Scanning
import GatewayCache.Proofs.Store.Isolation
import GatewayCache.Proofs.Store.Eviction
import GatewayCache.Proofs.Store.Lingering
import GatewayCache.Proofs.Validators.EntityTags
import GatewayCache.Proofs.Validators.Confirming
import GatewayCache.Proofs.Store.Faltering
import GatewayCache.Proofs.Text.Case
import GatewayCache.Proofs.Entry.Faithful
import GatewayCache.Proofs.Metadata.Traceless
import GatewayCache.Proofs.Counting
import GatewayCache.Proofs.Config.Overriding
import GatewayCache.Proofs.Metadata.Balance
import GatewayCache.Proofs.Capture.Journey
import GatewayCache.Proofs.Session.Accounting
import GatewayCache.Proofs.Text.Matching
import GatewayCache.Proofs.KeyValue.Lapsing
import GatewayCache.Proofs.Store.Lifetime
