import ControlLoop.Main
import ControlLoop.Proofs.Json.Walk
import ControlLoop.Proofs.Patch.Merge
import ControlLoop.Proofs.Patch.Set
import ControlLoop.Proofs.Patch.Override
import ControlLoop.Proofs.Patching
import ControlLoop.Proofs.Watched
import ControlLoop.Proofs.Marker
import ControlLoop.Proofs.Effects.Clearing
import ControlLoop.Proofs.Json.Equality
import ControlLoop.Proofs.Json.Strip
import ControlLoop.Proofs.Diff.Items
import ControlLoop.Proofs.Diff.Merged
import ControlLoop.Proofs.Store.Findings
import ControlLoop.Proofs.Clock
import ControlLoop.Proofs.Throttle.Run
import ControlLoop.Proofs.Throttle.History
import ControlLoop.Proofs.Throttle.Window
import ControlLoop.Proofs.Throttle.Streak
import ControlLoop.Proofs.Effects.Contract
import ControlLoop.Proofs.Worker.Cycle
import ControlLoop.Proofs.Worker.History
import ControlLoop.Proofs.Worker.Backoff
import ControlLoop.Proofs.Store.Written
import ControlLoop.Proofs.Worker.Writes
import ControlLoop.Proofs.Store.Replay
import ControlLoop.Proofs.Throttle.Notes
import ControlLoop.Proofs.Worker.Script
import ControlLoop.Proofs.Worker.Undisturbed
import ControlLoop.Proofs.Simulation.Journal
import ControlLoop.Proofs.Simulation.Program
import ControlLoop.Proofs.Diff.Places
import ControlLoop.Proofs.Diff.Scopes
import ControlLoop.Proofs.Diff.Unmentioned
import ControlLoop.Proofs.Diff.Rebuilt
import ControlLoop.Proofs.Patch.Along
import ControlLoop.Proofs.Patch.Independent
import ControlLoop.Proofs.Store.Emptied
import ControlLoop.Proofs.Store.Collapsed
import ControlLoop.Proofs.Patch.Again
import ControlLoop.Proofs.Store.NullFree
import ControlLoop.Proofs.Touched
import ControlLoop.Proofs.Sleep
import ControlLoop.Proofs.Patch.Lens
import ControlLoop.Proofs.FieldPath
import ControlLoop.Proofs.Text.Reads
import ControlLoop.Proofs.Text.Digits
import ControlLoop.Proofs.Binary64.Rounding
import ControlLoop.Proofs.Binary64.Shortest
import ControlLoop.Proofs.Toml.Number
import ControlLoop.Proofs.Toml.Text
import ControlLoop.Proofs.Toml.Value
import ControlLoop.Proofs.Toml.Document
import ControlLoop.Proofs.Settings
