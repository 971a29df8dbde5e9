import Fcore.Calculus.Prog
import Fcore.Calculus.Protocol
import Fcore.Calculus.Table
import Fcore.Calculus.TryJoin
import Fcore.Calculus.Text
import Fcore.Calculus.Lines
import Fcore.Calculus.Base32
import Fcore.Calculus.Checked
import Fcore.Calculus.Window
import Fcore.Calculus.Triple
import Fcore.Calculus.Makes
import Fcore.Calculus.Trace
import Fcore.Memory.Storage
import Fcore.Memory.Code
import Fcore.Memory.CodeErrors
import Fcore.Zmq.Topic
import Fcore.Api.Postgres
import Fcore.Api.World
import Fcore.Api.Sync
import Fcore.Api.Handlers
import Fcore.Api.Tasks
import Fcore.Api.ConnRows
import Fcore.Api.NodeRows
import Fcore.Api.SubRows
import Fcore.Config.Inbound
import Fcore.Config.Wireguard
import Fcore.Api.Links
import Fcore.Api.Locations
import Fcore.Api.NodeQueries
import Fcore.Api.TrialLog
import Fcore.Metrics.Collector
import Fcore.Metrics.Ranges
import Fcore.Metrics.Pipeline
import Fcore.Node.Batch
import Fcore.Node.Backends
import Fcore.Node.Process
import Fcore.Node.Subscriber
import Fcore.Node.Addresses
import Fcore.Runs.KeyActivation
import Fcore.Runs.KeySpellings
import Fcore.Runs.WgAddresses
import Fcore.Runs.TrialOverlap
import Fcore.Runs.TrialCounts
import Fcore.Runs.DeleteRestore
import Fcore.Runs.DayCredits
import Fcore.Runs.Revocations
import Fcore.Runs.DurableDeletes
import Fcore.Runs.Restarts
import Fcore.Runs.ReloadCredits
import Fcore.Runs.Additions
import Fcore.Runs.ReloadSubscriptions
import Fcore.Runs.TokenTracking
import Fcore.Runs.AuthTokens
import Fcore.Runs.ReferCodes
import Fcore.Runs.Renewals
import Fcore.Runs.Reconciliation
import Fcore.Runs.WgSequence
import Fcore.Runs.FlagReports
import Fcore.Runs.CreditErrors
import Fcore.Runs.Registrations
import Fcore.Runs.ExpiryRange
import Fcore.Runs.Upkeep
import Fcore.Runs.LiveTracking
import Fcore.Runs.ProcessMirror
import Fcore.Runs.Mirrors
import Fcore.Runs.ReloadConnections
import Fcore.Runs.ExpiryEnforced
import Fcore.Runs.ServedLinks
import Fcore.Runs.Routes
import Fcore.Runs.OpenRequests
import Fcore.Runs.RouteOrder
import Fcore.Runs.Reboots
import Fcore.Runs.SnapshotFiles
