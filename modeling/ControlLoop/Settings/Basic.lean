import ControlLoop.DelaySet
import ControlLoop.Marker

/-!
# Settings

What can be tuned about a worker: how long it sleeps at most, which fields the
store is known to drop, how it backs off after errors, and where it keeps its
marker.
-/

set_option autoImplicit false

namespace ControlLoop

/-- Settings of patching, sleeping and touching. -/
structure EffectsSettings where
  /-- The longest single sleep, in seconds. -/
  keepaliveSeconds : Nat
  /-- Fields that the store drops when they are patched to hold nothing. -/
  knownInconsistencies : List FieldPath
deriving DecidableEq

/-- Settings of the backoff after errors. -/
structure BatchingSettings where
  /-- The backoff sequence in seconds; its last delay repeats. -/
  errorDelays : List Binary64
deriving DecidableEq

/-- Where the marker is kept. -/
inductive MarkerPlace where
  | status
  | annotations
  | smart
deriving DecidableEq, Repr

/-- Settings of the marker. -/
structure PersistenceSettings where
  place : MarkerPlace
  /-- The key under `status` that holds the marker. -/
  statusName : String
  /-- The domain of the annotation that is the marker. -/
  annotationsPrefix : String
deriving DecidableEq

/-- All settings of a worker. -/
structure Settings where
  effects : EffectsSettings
  batching : BatchingSettings
  persistence : PersistenceSettings
deriving DecidableEq

/-- The longest single sleep. -/
def EffectsSettings.keepalive (s : EffectsSettings) : Duration :=
  Duration.ofSeconds s.keepaliveSeconds

/-- The backoff sequence, without the numbers that are no duration. -/
def BatchingSettings.delays (s : BatchingSettings) : List Duration :=
  s.errorDelays.filterMap Duration.ofBinary64?

/-- The name of a place. -/
def MarkerPlace.name : MarkerPlace → String
  | status => "status"
  | annotations => "annotations"
  | smart => "smart"

/-- The place with a name. -/
def MarkerPlace.ofName? : String → Option MarkerPlace
  | "status" => some status
  | "annotations" => some annotations
  | "smart" => some smart
  | _ => none

/-- The marker fields for a place; the smart place is both others. -/
def PersistenceSettings.markerFields (s : PersistenceSettings) : List FieldPath :=
  match s.place with
  | .status => [Marker.statusField s.statusName]
  | .annotations => [Marker.annotationField s.annotationsPrefix]
  | .smart => [Marker.statusField s.statusName, Marker.annotationField s.annotationsPrefix]

/-- Ten minutes of sleep at most, and the three fields of metadata that are lists or maps. -/
def EffectsSettings.default : EffectsSettings where
  keepaliveSeconds := 600
  knownInconsistencies :=
    [⟨["metadata", "annotations"]⟩, ⟨["metadata", "finalizers"]⟩, ⟨["metadata", "labels"]⟩]

/-- The Fibonacci numbers up to about ten minutes. -/
def BatchingSettings.default : BatchingSettings where
  errorDelays := [1, 1, 2, 3, 5, 8, 13, 21, 34, 55, 89, 144, 233, 377, 610].map Binary64.ofNat

/-- A marker under `status.reconciler`. -/
def PersistenceSettings.default : PersistenceSettings where
  place := .status
  statusName := "reconciler"
  annotationsPrefix := "reconciler.dev"

/-- The settings where none are given. -/
def Settings.default : Settings := ⟨.default, .default, .default⟩

end ControlLoop
