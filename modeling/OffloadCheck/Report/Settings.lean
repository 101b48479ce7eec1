import OffloadCheck.Report.Values
import OffloadCheck.Settings.Basic

/-!
The JSON form of settings. Every field may be missing and then takes its default.
-/
namespace OffloadCheck.Settings

open Json

def keys : List String :=
  ["artifact_dir", "artifact_prefix", "shared_artifact_dir", "output_root", "staging_dir",
    "max_application_priority", "resources_dir", "remote_storage_uri", "reduce_direct_memory_bytes",
    "required_env", "resources"]

def toJson (s : Settings) : Json :=
  record [("artifact_dir", .text s.artifactDir.text), ("artifact_prefix", .text s.artifactPrefix),
    ("shared_artifact_dir", .text s.sharedArtifactDir.text),
    ("output_root", .text s.outputRoot.text), ("staging_dir", .text s.stagingDir),
    ("max_application_priority", .nat s.maxApplicationPriority.toNat),
    ("resources_dir", .text s.resourcesDir.text),
    ("remote_storage_uri", .text s.remoteStorageUri),
    ("reduce_direct_memory_bytes", .nat s.reduceDirectMemory.toNat),
    ("required_env", .array (s.requiredEnv.map .text)), ("resources", s.resources.toJson)]

def path? (j : Json) : Option Path := (string? j).map Path.mk

def ofJson? (j : Json) : Option Settings := do
  let f ← fields? keys j
  return {
    artifactDir := ← f.defaulted 0 path? default.artifactDir
    artifactPrefix := ← f.defaulted 1 string? default.artifactPrefix
    sharedArtifactDir := ← f.defaulted 2 path? default.sharedArtifactDir
    outputRoot := ← f.defaulted 3 path? default.outputRoot
    stagingDir := ← f.defaulted 4 string? default.stagingDir
    maxApplicationPriority := ← f.defaulted 5 uint32? default.maxApplicationPriority
    resourcesDir := ← f.defaulted 6 path? default.resourcesDir
    remoteStorageUri := ← f.defaulted 7 string? default.remoteStorageUri
    reduceDirectMemory :=
      ← f.defaulted 8 (fun j => (word64? j).map UInt64.ofNat) default.reduceDirectMemory
    requiredEnv := ← f.defaulted 9 (list? string?) default.requiredEnv
    resources := ← f.defaulted 10 ResourceSizes.ofJson? default.resources }

end OffloadCheck.Settings
