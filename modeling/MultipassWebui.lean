import MultipassWebui.Transition.Journal
import MultipassWebui.Transition.Pool
import MultipassWebui.Transition.Progress
import MultipassWebui.Transition.Run
import MultipassWebui.Collections.Expiring
import MultipassWebui.Collections.Newest
import MultipassWebui.Collections.OrderedHash
import MultipassWebui.Collections.Sorting
import MultipassWebui.Collections.Tally
import MultipassWebui.Calendar.Civil
import MultipassWebui.Calendar.Layouts
import MultipassWebui.Calendar.Order
import MultipassWebui.Calendar.Periods
import MultipassWebui.Calendar.Strptime
import MultipassWebui.Calendar.Timestamps
import MultipassWebui.Encoding.Base64
import MultipassWebui.Encoding.Json
import MultipassWebui.Encoding.Uri
import MultipassWebui.Encoding.Utf8
import MultipassWebui.Text.Entries
import MultipassWebui.Text.Integers
import MultipassWebui.Text.Lines
import MultipassWebui.Text.Order
import MultipassWebui.Text.Strings
import MultipassWebui.Text.Words
import MultipassWebui.Numbers.Binary64
import MultipassWebui.Numbers.Decimal
import MultipassWebui.Numbers.Rounding
import MultipassWebui.Effect.Core
import MultipassWebui.Effect.Fallible
import MultipassWebui.Effect.Frame
import MultipassWebui.Effect.RubyError
import MultipassWebui.Effect.Values
import MultipassWebui.Files.Directories
import MultipassWebui.Files.Disk
import MultipassWebui.Files.Growing
import MultipassWebui.Files.Names
import MultipassWebui.Files.Paths
import MultipassWebui.Files.Storing
import MultipassWebui.Files.Tree
import MultipassWebui.Records.Database
import MultipassWebui.Records.EventLog
import MultipassWebui.Records.Integrity
import MultipassWebui.Records.Rows
import MultipassWebui.Records.Schema
import MultipassWebui.Records.Seeding
import MultipassWebui.Records.Table
import MultipassWebui.Scheduler.Firing
import MultipassWebui.Scheduler.Job
import MultipassWebui.Scheduler.Overlap
import MultipassWebui.Scheduler.Reporting
import MultipassWebui.Scheduler.Targets
import MultipassWebui.Scheduler.Tick
import MultipassWebui.Scheduler.Weekly
import MultipassWebui.Terminals.Closing
import MultipassWebui.Terminals.Console
import MultipassWebui.Terminals.Invariant
import MultipassWebui.Terminals.Lifecycle
import MultipassWebui.Terminals.Messages
import MultipassWebui.Terminals.Opening
import MultipassWebui.Terminals.Orphans
import MultipassWebui.Terminals.Reader
import MultipassWebui.Terminals.Reaping
import MultipassWebui.Terminals.Registry
import MultipassWebui.Terminals.Replay
import MultipassWebui.Terminals.Session
import MultipassWebui.Terminals.Viewers
import MultipassWebui.Terminals.Wire
import MultipassWebui.Auth.Credentials
import MultipassWebui.Auth.Requests
import MultipassWebui.Auth.SessionLedger
import MultipassWebui.Auth.SessionRuns
import MultipassWebui.Auth.Singletons
import MultipassWebui.Auth.TokenRuns
import MultipassWebui.Cable.Access
import MultipassWebui.Cable.Input
import MultipassWebui.Cable.System
import MultipassWebui.Migration.Faithful
import MultipassWebui.Migration.Idempotent
import MultipassWebui.Migration.Import
import MultipassWebui.Migration.Tables
import MultipassWebui.Multipass.Bulk
import MultipassWebui.Multipass.Client
import MultipassWebui.Multipass.CloudInitStatus
import MultipassWebui.Multipass.Cloudinit
import MultipassWebui.Multipass.Created
import MultipassWebui.Multipass.DarwinReadings
import MultipassWebui.Multipass.DecimalSizes
import MultipassWebui.Multipass.Flags
import MultipassWebui.Multipass.HostReadings
import MultipassWebui.Multipass.HostResources
import MultipassWebui.Multipass.Info
import MultipassWebui.Multipass.InfoDocuments
import MultipassWebui.Multipass.Launches
import MultipassWebui.Multipass.Listings
import MultipassWebui.Multipass.NamedFiles
import MultipassWebui.Multipass.Names
import MultipassWebui.Multipass.Operations
import MultipassWebui.Multipass.PlaybookStore
import MultipassWebui.Multipass.Playbooks
import MultipassWebui.Multipass.SavedTemplates
import MultipassWebui.Multipass.SizeStrings
import MultipassWebui.Multipass.Sizes
import MultipassWebui.Multipass.Snapshots
import MultipassWebui.Multipass.Stores
import MultipassWebui.Multipass.Streaming
import MultipassWebui.Multipass.TemplateScan
import MultipassWebui.Multipass.TemplateStore
import MultipassWebui.Multipass.Vms
import MultipassWebui.Streams.Completion
import MultipassWebui.Streams.Pipe
import MultipassWebui.Streams.Processes
import MultipassWebui.Web.Application
import MultipassWebui.Web.AuditPayload
import MultipassWebui.Web.CloudInitTemplates
import MultipassWebui.Web.ConfigurationControllers
import MultipassWebui.Web.EventPolling
import MultipassWebui.Web.HostControllers
import MultipassWebui.Web.HostDashboard
import MultipassWebui.Web.LaunchRequests
import MultipassWebui.Web.LoginThrottle
import MultipassWebui.Web.NameRejections
import MultipassWebui.Web.ParameterFilter
import MultipassWebui.Web.ProfileIds
import MultipassWebui.Web.Recording
import MultipassWebui.Web.Registers
import MultipassWebui.Web.Replies
import MultipassWebui.Web.RequestPath
import MultipassWebui.Web.ResourceLimits
import MultipassWebui.Web.ResourceLinks
import MultipassWebui.Web.RouteTable
import MultipassWebui.Web.Routes
import MultipassWebui.Web.RowIds
import MultipassWebui.Web.SettingsUpdate
import MultipassWebui.Web.StrongParameters
import MultipassWebui.Web.TemplateAccess
import MultipassWebui.Web.TemplateLaunches
import MultipassWebui.Web.TemplateSubmissions
import MultipassWebui.Web.Throttling
import MultipassWebui.Web.VmsAudit
import MultipassWebui.Web.VmsController
import MultipassWebui.Installation.Integrity
import MultipassWebui.Installation.Journals
import MultipassWebui.Installation.Log
import MultipassWebui.Installation.Outsiders
import MultipassWebui.Installation.Profiles
import MultipassWebui.Installation.Secrets
import MultipassWebui.Installation.System
import MultipassWebui.Frontend.Intervals
import MultipassWebui.Frontend.Polling
