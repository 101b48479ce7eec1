import OffloadCheck.Action
import OffloadCheck.Cluster.Basic
import OffloadCheck.Cluster.Fixture
import OffloadCheck.Cluster.Rehearsal
import OffloadCheck.Comparison
import OffloadCheck.Failure
import OffloadCheck.Job.Keys
import OffloadCheck.Job.Properties
import OffloadCheck.Job.Role
import OffloadCheck.Json.Basic
import OffloadCheck.Json.Decode
import OffloadCheck.Json.Number
import OffloadCheck.Json.Printer
import OffloadCheck.Json.Reader
import OffloadCheck.Matrix
import OffloadCheck.Outcome
import OffloadCheck.Output.ByteStream
import OffloadCheck.Output.Divergence
import OffloadCheck.Output.Manifest
import OffloadCheck.Output.Verdict
import OffloadCheck.Path.Basic
import OffloadCheck.Path.Rooted
import OffloadCheck.Report.Outcome
import OffloadCheck.Report.Settings
import OffloadCheck.Report.Values
import OffloadCheck.Report.Verdict
import OffloadCheck.Role
import OffloadCheck.Run.Plan
import OffloadCheck.Servers.Basic
import OffloadCheck.Servers.Fixture
import OffloadCheck.Servers.Rehearsal
import OffloadCheck.Session.Artifact
import OffloadCheck.Session.Basic
import OffloadCheck.Session.Lifecycle
import OffloadCheck.Session.Sequence
import OffloadCheck.Settings.Basic
import OffloadCheck.Settings.Document
import OffloadCheck.Settings.File
import OffloadCheck.SortedMap
import OffloadCheck.Storage.Disk
import OffloadCheck.Storage.Error
import OffloadCheck.Storage.FileSystem
import OffloadCheck.Storage.Local
import OffloadCheck.Storage.Memory
import OffloadCheck.Storage.Scripted
import OffloadCheck.Storage.Transfer
import OffloadCheck.Text.Blank
import OffloadCheck.Text.Scalar
import OffloadCheck.Text.Separated
import OffloadCheck.Text.Utf8
import OffloadCheck.Timestamp
import OffloadCheck.Toml.Printer
import OffloadCheck.Toml.Reader
import OffloadCheck.Toml.Scalar
import OffloadCheck.Toml.Value
import OffloadCheck.Transport
import OffloadCheck.Proofs.Comparison
import OffloadCheck.Proofs.Plans
import OffloadCheck.Proofs.Embedding
import OffloadCheck.Proofs.Recording
import OffloadCheck.Proofs.Trails
import OffloadCheck.Proofs.Sequencing
import OffloadCheck.Proofs.Paths
import OffloadCheck.Proofs.Memory
import OffloadCheck.Proofs.Rehearsal
import OffloadCheck.Proofs.Staging
import OffloadCheck.Proofs.Wiring
import OffloadCheck.Proofs.Disks
import OffloadCheck.Proofs.Stores
import OffloadCheck.Proofs.Activity
import OffloadCheck.Proofs.Copies
import OffloadCheck.Proofs.Layouts
import OffloadCheck.Proofs.Symmetry
import OffloadCheck.Proofs.Names
import OffloadCheck.Proofs.Passing
import OffloadCheck.Proofs.Entries
import OffloadCheck.Proofs.Separation
import OffloadCheck.Proofs.Listings
import OffloadCheck.Proofs.Operations
import OffloadCheck.Proofs.Lifetimes
import OffloadCheck.Proofs.Removal
import OffloadCheck.Proofs.Roots
import OffloadCheck.Proofs.Closed
import OffloadCheck.Proofs.Clashes
import OffloadCheck.Proofs.Absence
import OffloadCheck.Proofs.Beneath
import OffloadCheck.Proofs.Deletions
import OffloadCheck.Proofs.Simulation
import OffloadCheck.Proofs.JsonText
import OffloadCheck.Proofs.Writers
import OffloadCheck.Proofs.Moments
import OffloadCheck.Proofs.Reports
import OffloadCheck.Proofs.TomlText
import OffloadCheck.Proofs.TomlDocuments
import OffloadCheck.Proofs.Encoding
import OffloadCheck.Proofs.Openings
import OffloadCheck.Proofs.SettingsFiles
import OffloadCheck.Proofs.Descents
import OffloadCheck.Proofs.Views
import OffloadCheck.Proofs.Effects
import OffloadCheck.Proofs.Transfers
import OffloadCheck.Proofs.Selection
import OffloadCheck.Proofs.Hindrances
import OffloadCheck.Proofs.PartialSettings
import OffloadCheck.Proofs.DefaultFile
import OffloadCheck.Proofs.PropertyValues
import OffloadCheck.Proofs.PropertyEdits
import OffloadCheck.Proofs.Manifests
