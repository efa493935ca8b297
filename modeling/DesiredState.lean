import DesiredState.Action
import DesiredState.Cloud.Basic
import DesiredState.Cloud.Codec
import DesiredState.Command.Backups
import DesiredState.Command.Deployments
import DesiredState.Command.Error
import DesiredState.Command.Resources
import DesiredState.CommandLine.Arguments
import DesiredState.CommandLine.Colouring
import DesiredState.CommandLine.LogText
import DesiredState.CommandLine.Request
import DesiredState.CommandLine.Run
import DesiredState.CommandLine.Screen
import DesiredState.CommandLine.Usage
import DesiredState.Config.Basic
import DesiredState.Config.Load
import DesiredState.Config.Reader
import DesiredState.Decimal.Binary
import DesiredState.Decimal.Fixed
import DesiredState.Decimal.Shortest
import DesiredState.Definition.Basic
import DesiredState.Definition.Codec
import DesiredState.Diff.Basic
import DesiredState.Diff.Codec
import DesiredState.Diff.Compute
import DesiredState.Duration
import DesiredState.Failure
import DesiredState.Failure.Codec
import DesiredState.File.Change
import DesiredState.File.Disk
import DesiredState.File.Tree
import DesiredState.File.Walk
import DesiredState.Journal
import DesiredState.Json.Basic
import DesiredState.Json.Decode
import DesiredState.Json.Document
import DesiredState.Json.Field
import DesiredState.Json.Member
import DesiredState.Json.Number
import DesiredState.Json.Printer
import DesiredState.KeyMap
import DesiredState.Lock.Error
import DesiredState.Lock.Key
import DesiredState.Lock.StoreLock
import DesiredState.Main
import DesiredState.Path.Basic
import DesiredState.Path.Environment
import DesiredState.Path.Expand
import DesiredState.Path.Location
import DesiredState.Plan.Basic
import DesiredState.Plan.Combination
import DesiredState.Policy.Codec
import DesiredState.Poll
import DesiredState.Proofs.Backups
import DesiredState.Proofs.Command.Calls
import DesiredState.Proofs.Command.Effects
import DesiredState.Proofs.Command.Importing
import DesiredState.Proofs.Command.Naming
import DesiredState.Proofs.Definition
import DesiredState.Proofs.Diff
import DesiredState.Proofs.Diff.Apply
import DesiredState.Proofs.Diff.Entries
import DesiredState.Proofs.Diff.Exact
import DesiredState.Proofs.File
import DesiredState.Proofs.Interleaving
import DesiredState.Proofs.Json.Canonical
import DesiredState.Proofs.Json.Depth
import DesiredState.Proofs.Json.Null
import DesiredState.Proofs.Json.RoundTrip
import DesiredState.Proofs.Json.Spacing
import DesiredState.Proofs.Json.Token
import DesiredState.Proofs.Keeps
import DesiredState.Proofs.KeyMap
import DesiredState.Proofs.Lock.Exclusion
import DesiredState.Proofs.Lock.Taking
import DesiredState.Proofs.Outcome
import DesiredState.Proofs.Parallel
import DesiredState.Proofs.Plan
import DesiredState.Proofs.Plan.Combination
import DesiredState.Proofs.Plan.Cover
import DesiredState.Proofs.Plan.Cursor
import DesiredState.Proofs.Plan.Make
import DesiredState.Proofs.Plan.Order
import DesiredState.Proofs.Plan.Stable
import DesiredState.Proofs.Poll
import DesiredState.Proofs.Registry
import DesiredState.Proofs.Registry.Validation
import DesiredState.Proofs.Resource.Course
import DesiredState.Proofs.Resource.Keeps
import DesiredState.Proofs.Resource.Parallel
import DesiredState.Proofs.Resource.Preview
import DesiredState.Proofs.Resource.Replace
import DesiredState.Proofs.Retry
import DesiredState.Proofs.Retry.Budget
import DesiredState.Proofs.Retry.Overflow
import DesiredState.Proofs.Snapshot
import DesiredState.Proofs.State.References
import DesiredState.Proofs.State.Resolver
import DesiredState.Proofs.Store.Batch
import DesiredState.Proofs.Store.Calls
import DesiredState.Proofs.Store.Coherent
import DesiredState.Proofs.Store.Declare
import DesiredState.Proofs.Store.Depth
import DesiredState.Proofs.Store.Edits
import DesiredState.Proofs.Store.Frame
import DesiredState.Proofs.Store.Maps
import DesiredState.Proofs.Store.Refinement
import DesiredState.Proofs.Store.Removal
import DesiredState.Proofs.Store.Rename
import DesiredState.Proofs.Store.Restore
import DesiredState.Proofs.Store.Retimed
import DesiredState.Proofs.Store.Retouch
import DesiredState.Proofs.Store.Rows
import DesiredState.Proofs.Store.Stale
import DesiredState.Proofs.Store.Steps
import DesiredState.Proofs.Thread
import DesiredState.Proofs.Volume.Check
import DesiredState.Proofs.Volume.CheckAll
import DesiredState.Proofs.Volume.CheckTurns
import DesiredState.Proofs.Volume.Consent
import DesiredState.Proofs.Volume.Converge
import DesiredState.Proofs.Volume.Destroy
import DesiredState.Proofs.Volume.Entry
import DesiredState.Proofs.Volume.Faults
import DesiredState.Proofs.Volume.Handlers
import DesiredState.Proofs.Volume.InSync
import DesiredState.Proofs.Volume.Mirror
import DesiredState.Proofs.Volume.Missing
import DesiredState.Proofs.Volume.Neighbours
import DesiredState.Proofs.Volume.Parallel
import DesiredState.Proofs.Volume.Pass
import DesiredState.Proofs.Volume.Ready
import DesiredState.Proofs.Volume.Repeat
import DesiredState.Proofs.Volume.Resume
import DesiredState.Proofs.Volume.Run
import DesiredState.Proofs.Volume.Safe
import DesiredState.Proofs.Volume.Settled
import DesiredState.Proofs.Volume.Silent
import DesiredState.Proofs.Volume.Site
import DesiredState.Proofs.Volume.Size
import DesiredState.Proofs.Volume.Sound
import DesiredState.Proofs.Volume.Tended
import DesiredState.Proofs.World
import DesiredState.Registry.Basic
import DesiredState.Registry.Build
import DesiredState.Resource.Basic
import DesiredState.Resource.CheckAll
import DesiredState.Resource.Codec
import DesiredState.Resource.Converge
import DesiredState.Resource.Tags
import DesiredState.Retry
import DesiredState.Scripted.Basic
import DesiredState.Scripted.Codec
import DesiredState.Snapshot.Basic
import DesiredState.Snapshot.Codec
import DesiredState.State.Basic
import DesiredState.State.Keys
import DesiredState.Status
import DesiredState.Store.Address
import DesiredState.Store.Address.Option
import DesiredState.Store.Attributes
import DesiredState.Store.Basic
import DesiredState.Store.Codec
import DesiredState.Store.Deployments
import DesiredState.Store.Encoding
import DesiredState.Store.Error
import DesiredState.Store.File
import DesiredState.Store.Header
import DesiredState.Store.Obstacles
import DesiredState.Store.Route
import DesiredState.Store.SideFile
import DesiredState.Store.Snapshots
import DesiredState.Terminal.Plain
import DesiredState.Terminal.Style
import DesiredState.Text.Alphanumeric
import DesiredState.Text.Blank
import DesiredState.Text.Cell
import DesiredState.Text.Hexadecimal
import DesiredState.Text.Hidden
import DesiredState.Volume.Basic
import DesiredState.Volume.Handlers
import DesiredState.Word
import DesiredState.World.Basic
import DesiredState.World.Focus
import DesiredState.World.Records
import DesiredState.World.StateFile
