import BenchHarness.Main
import BenchHarness.ManifestReader
import BenchHarness.Proofs.Lines
import BenchHarness.Proofs.Utf8
import BenchHarness.Proofs.Attempt
import BenchHarness.Proofs.Echo
import BenchHarness.Proofs.Marker
import BenchHarness.Proofs.Protocol
import BenchHarness.Proofs.Paths
import BenchHarness.Proofs.Discovery
import BenchHarness.Proofs.Output
import BenchHarness.Proofs.Verdict
import BenchHarness.Proofs.PathLookup
import BenchHarness.Proofs.Snapshot
import BenchHarness.Proofs.Schedule
import BenchHarness.Proofs.WorkingDirectory
import BenchHarness.Proofs.JsonRecord
import BenchHarness.Proofs.Manifest
import BenchHarness.Proofs.Order
import BenchHarness.Proofs.Decoded
import BenchHarness.Proofs.Skips
import BenchHarness.Proofs.RootLink
import BenchHarness.Proofs.Isolation
import BenchHarness.Proofs.WayBack
import BenchHarness.Proofs.AcceptedMarkers
import BenchHarness.Proofs.Arrival
import BenchHarness.Proofs.RunningActions
import BenchHarness.Proofs.Screen
import BenchHarness.Proofs.Story
import BenchHarness.Proofs.Rules
import BenchHarness.Proofs.EntryPaths
import BenchHarness.Proofs.Resolution
import BenchHarness.Proofs.Placement
import BenchHarness.Proofs.ConfigFile
import BenchHarness.Proofs.TomlKeys
import BenchHarness.Proofs.Settings
import BenchHarness.Proofs.ConfigLayers
import BenchHarness.Proofs.BrokenEcho
import BenchHarness.Proofs.EchoedStream
import BenchHarness.Proofs.PartialWrites
import BenchHarness.Proofs.Decoration
import BenchHarness.Proofs.Filters
import BenchHarness.Proofs.TestDirectory
import BenchHarness.Proofs.ManifestText
import BenchHarness.Proofs.Commands
import BenchHarness.Proofs.Spellings
