import Rustmote.Foundations.Text
import Rustmote.Foundations.Utf8
import Rustmote.Foundations.Base64
import Rustmote.Foundations.Shell
import Rustmote.Error
import Rustmote.Foundations.Civil
import Rustmote.Foundations.FileTree
import Rustmote.Foundations.Interaction
import Rustmote.RelayLifecycle.Commands
import Rustmote.RegistryClient.Coherence
import Rustmote.RelayLifecycle.Paths
import Rustmote.RelayLifecycle.Render
import Rustmote.Foundations.SortedMap
import Rustmote.Foundations.TomlFormat
import Rustmote.Session.TofuStore
import Rustmote.RegistryClient.CacheStore
import Rustmote.RegistryClient.Calls
import Rustmote.RegistryClient.Expiry
import Rustmote.Config.Registry
import Rustmote.Config.Credentials
import Rustmote.Cli.Commands
import Rustmote.Cli.History
import Rustmote.Cli.Relays
import Rustmote.Cli.Processes
import Rustmote.Session.Authenticate
import Rustmote.Session.Connect
import Rustmote.Session.Exec
import Rustmote.RelayLifecycle.Internals
import Rustmote.RelayLifecycle.Operations
import Rustmote.RelayLifecycle.Issued
import Rustmote.RelayLifecycle.CommandShape
import Rustmote.Foundations.Utilities
import Rustmote.RelayLifecycle.Host
import Rustmote.RelayLifecycle.Stages
import Rustmote.RelayLifecycle.Effects
import Rustmote.RelayLifecycle.Health
import Rustmote.RelayLifecycle.Plain
import Rustmote.RelayLifecycle.UpdateRuns
import Rustmote.RelayLifecycle.Simulation
import Rustmote.RelayLifecycle.Concluding
import Rustmote.RelayLifecycle.Rollback
import Rustmote.RelayLifecycle.Returning
import Rustmote.RelayLifecycle.Untouched
import Rustmote.RelayLifecycle.Versions
import Rustmote.RelayLifecycle.Working
import Rustmote.RelayLifecycle.Restoring
import Rustmote.RelayLifecycle.BootstrapRuns
import Rustmote.RelayLifecycle.Validated
import Rustmote.RelayLifecycle.Confined
import Rustmote.RelayLifecycle.Cleaning
import Rustmote.RelayLifecycle.Failed
import Rustmote.RelayLifecycle.Rerun
import Rustmote.RelayLifecycle.Rendered
import Rustmote.RelayLifecycle.Rewriting
import Rustmote.RelayLifecycle.Agreeing
import Rustmote.Foundations.Ranking
import Rustmote.RelayLifecycle.Newest
import Rustmote.RelayLifecycle.Retention
import Rustmote.RelayLifecycle.OsRelease
import Rustmote.Config.Keys
import Rustmote.Cli.Labels
import Rustmote.Discovery.Merge
import Rustmote.Foundations.FileSteps
import Rustmote.Config.Saves
import Rustmote.Config.Interrupted
import Rustmote.Config.Interleaved
import Rustmote.RelayLifecycle.Rejected
import Rustmote.RelayLifecycle.Polling
import Rustmote.Foundations.ImageReference
import Rustmote.RelayLifecycle.Referenced
import Rustmote.Foundations.Transitions
import Rustmote.Session.Proxy
import Rustmote.Session.Forwarder
import Rustmote.Foundations.JsonPrint
import Rustmote.RelayLifecycle.Listing
import Rustmote.RelayLifecycle.Lineage
import Rustmote.Foundations.Contracts
import Rustmote.Session.Viewer
import Rustmote.Cli.Connecting
import Rustmote.RegistryClient.Http
import Rustmote.Discovery.Addresses
import Rustmote.Discovery.Arp
import Rustmote.Discovery.Sweeps
import Rustmote.Foundations.Calendar
import Rustmote.RelayLifecycle.Backups
import Rustmote.RelayLifecycle.Provenance
