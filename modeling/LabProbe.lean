import LabProbe.Realtime.WebSocket
import LabProbe.Router.Tasks
import LabProbe.Lib.Latest
import LabProbe.Router.Login
import LabProbe.Agent.Commands
import LabProbe.Lib.Run
import LabProbe.Lib.Dict
import LabProbe.Lib.Delta
import LabProbe.Lib.Keyed
import LabProbe.Lib.Log
import LabProbe.Lib.Rows
import LabProbe.Py.Text
import LabProbe.Py.IpAddress
import LabProbe.Py.Json
import LabProbe.Hub.Values
import LabProbe.Storage.Diff
import LabProbe.Storage.Store
import LabProbe.Storage.Stable
import LabProbe.Storage.View
import LabProbe.Storage.Changes
import LabProbe.Storage.Replay
import LabProbe.PortMap.Rules
import LabProbe.PortMap.Reconcile
import LabProbe.PortMap.Queue
import LabProbe.PortMap.Updates
import LabProbe.PortMap.Order
import LabProbe.WireGuard.Protocol
import LabProbe.WireGuard.System
import LabProbe.WireGuard.Server
import LabProbe.Lib.Register
import LabProbe.WireGuard.Profiles
import LabProbe.WireGuard.Endpoint
import LabProbe.Ddns.Values
import LabProbe.Ddns.Record
import LabProbe.Ddns.Store
import LabProbe.Ddns.Update
import LabProbe.Ddns.System
import LabProbe.Ddns.Published
import LabProbe.Ddns.Acknowledged
import LabProbe.Lib.Confirm
import LabProbe.Ddns.Stability
import LabProbe.Storage.Monotone
import LabProbe.Py.Float
import LabProbe.Py.IpText
import LabProbe.Relay.Net
import LabProbe.PortMap.Clean
import LabProbe.Lib.Slots
import LabProbe.PortMap.Handlers
import LabProbe.PortMap.Distinct
import LabProbe.Stun.Rule
import LabProbe.Stun.Handlers
import LabProbe.Stun.Distinct
import LabProbe.Relay.Rule
import LabProbe.Lib.Check
import LabProbe.Relay.Agree
import LabProbe.Stun.Accepted
import LabProbe.PortMap.Accepted
import LabProbe.Relay.Reserved
import LabProbe.Relay.Runtime
import LabProbe.Relay.Manager
import LabProbe.Relay.Conflicts
import LabProbe.Relay.Atomic
import LabProbe.Relay.Expiry
import LabProbe.WireGuard.Agreement
import LabProbe.Py.Base64
import LabProbe.Py.IpNetwork
import LabProbe.WireGuard.Clean
import LabProbe.WireGuard.Store
import LabProbe.WireGuard.Rejected
import LabProbe.WireGuard.Kept
import LabProbe.WireGuard.Desired
import LabProbe.WireGuard.Cidr
import LabProbe.WireGuard.Schema
import LabProbe.Lib.Presence
import LabProbe.Py.DateTime
import LabProbe.Devices.Daily
import LabProbe.Devices.Ingest
import LabProbe.Devices.Rejected
import LabProbe.Devices.Addresses
import LabProbe.Devices.Fold
import LabProbe.Stun.Router
import LabProbe.Stun.Queue
import LabProbe.Stun.Report
import LabProbe.Ddns.Identity
import LabProbe.Ddns.Concurrent
import LabProbe.Ddns.Schedule
import LabProbe.Router.Config
import LabProbe.Router.ConfigSync
import LabProbe.Router.SlowCache
import LabProbe.Realtime.Devices
import LabProbe.Hub.AddressText
import LabProbe.Router.Rpc
import LabProbe.Router.Firewall
import LabProbe.Router.Automation
import LabProbe.Router.Frame
import LabProbe.Devices.Durations
import LabProbe.Devices.Accounts
import LabProbe.Py.Doubles
import LabProbe.Devices.Traffic
import LabProbe.Devices.Midnight
import LabProbe.Ddns.Credentials
import LabProbe.Lib.Transaction
import LabProbe.Storage.Atomic
import LabProbe.Storage.Snapshot
import LabProbe.Lib.Ranking
import LabProbe.Devices.Ipv6
import LabProbe.WireGuard.EndpointUpdates
import LabProbe.Relay.Normal
import LabProbe.PortMap.Identity
import LabProbe.Lib.Outbox
import LabProbe.Agent.Delivery
import LabProbe.Relay.Peers
import LabProbe.Relay.Neighbors
import LabProbe.Lib.Bytes
import LabProbe.Relay.StunMessage
import LabProbe.Lib.Sightings
import LabProbe.Router.Candidates
import LabProbe.Devices.Events
import LabProbe.PortMap.Display
import LabProbe.Hub.MacText
import LabProbe.Devices.Watched
import LabProbe.Router.Control
import LabProbe.Router.Foreground
import LabProbe.Router.Submits
import LabProbe.Lib.Tiers
import LabProbe.Relay.DdnsAddress
import LabProbe.Relay.Provenance
import LabProbe.Lib.Utf8
import LabProbe.Lib.Spans
import LabProbe.Relay.Sanitize
import LabProbe.Relay.Redacted
import LabProbe.Agent.Devices
import LabProbe.Agent.Slices
import LabProbe.Agent.Details
import LabProbe.Agent.Secrets
import LabProbe.Relay.UciFirewall
import LabProbe.Router.TaskWorkers
import LabProbe.Router.TaskRuns
import LabProbe.Router.Receiver
import LabProbe.Router.FrameReturns
import LabProbe.Lib.Joins
import LabProbe.Relay.Topology
import LabProbe.WireGuard.Dump
import LabProbe.Router.Dashboard
import LabProbe.Router.DashboardMemory
import LabProbe.Router.Credentials
import LabProbe.Router.CredentialRefresh
import LabProbe.Router.DeviceLiveSync
import LabProbe.Router.FastWatchdog
import LabProbe.Ddns.Providers
import LabProbe.Router.Ipv6Mapper
import LabProbe.Router.Ipv6Merge
import LabProbe.Router.Suspensions
import LabProbe.Lib.Pipe
import LabProbe.Relay.Tcp
import LabProbe.Lib.Placement
import LabProbe.Relay.Status
import LabProbe.PortMap.Stored
import LabProbe.PortMap.Sync
import LabProbe.PortMap.Converge
import LabProbe.Lib.Durable
import LabProbe.Relay.Restart
import LabProbe.Stun.Attribution
import LabProbe.Realtime.Revisions
import LabProbe.Agent.Restarts
