import OffloadCheck.Settings.Basic
import OffloadCheck.Toml.Printer
import OffloadCheck.Toml.Reader

/-!
Settings as TOML text. A document mentions the settings that differ from the defaults; keys with
other names are skipped. Every setting has a key of its own, and the sizes form a table or a list of
up to three numbers; a moment in their place counts as a table without sizes.
-/
namespace OffloadCheck

open Toml

namespace Toml

/-- A member that stands for `default` where it is missing. -/
def memberOr (ms : List (String × Value)) (key : String) (decode : Value → Option α) (default : α) :
    Option α :=
  match ms.lookup key with
  | some v => decode v
  | none => some default

def Value.string? : Value → Option String
  | .string s => some s
  | _ => none

def Value.natBelow? (bound : Nat) : Value → Option Nat
  | .integer n => if 0 ≤ n ∧ n < bound then some n.toNat else none
  | _ => none

def Value.uint32? (v : Value) : Option UInt32 := (v.natBelow? UInt32.size).map UInt32.ofNat

def Value.uint64? (v : Value) : Option UInt64 := (v.natBelow? UInt64.size).map UInt64.ofNat

def Value.strings? : Value → Option (List String)
  | .array vs => vs.mapM Value.string?
  | _ => none

end Toml

namespace ResourceSizes

def ofToml? : Value → Option ResourceSizes
  | .table ms => do
    return ⟨← memberOr ms "map_memory_mb" Value.uint32? default.mapMemory,
      ← memberOr ms "reduce_memory_mb" Value.uint32? default.reduceMemory,
      ← memberOr ms "sort_buffer_mb" Value.uint32? default.sortBuffer⟩
  | .array vs => do
    let at? (i : Nat) (default : UInt32) : Option UInt32 :=
      match vs[i]? with
      | some v => v.uint32?
      | none => some default
    return ⟨← at? 0 default.mapMemory, ← at? 1 default.reduceMemory, ← at? 2 default.sortBuffer⟩
  | .moment _ => some default
  | _ => none

end ResourceSizes

namespace Settings

def pathOfToml? (v : Value) : Option Path := v.string?.map Path.mk

def ofToml? (ms : List (String × Value)) : Option Settings := do
  return {
    artifactDir := ← memberOr ms "artifact_dir" pathOfToml? default.artifactDir
    artifactPrefix := ← memberOr ms "artifact_prefix" Value.string? default.artifactPrefix
    sharedArtifactDir := ← memberOr ms "shared_artifact_dir" pathOfToml? default.sharedArtifactDir
    outputRoot := ← memberOr ms "output_root" pathOfToml? default.outputRoot
    stagingDir := ← memberOr ms "staging_dir" Value.string? default.stagingDir
    maxApplicationPriority :=
      ← memberOr ms "max_application_priority" Value.uint32? default.maxApplicationPriority
    resourcesDir := ← memberOr ms "resources_dir" pathOfToml? default.resourcesDir
    remoteStorageUri := ← memberOr ms "remote_storage_uri" Value.string? default.remoteStorageUri
    reduceDirectMemory :=
      ← memberOr ms "reduce_direct_memory_bytes" Value.uint64? default.reduceDirectMemory
    requiredEnv := ← memberOr ms "required_env" Value.strings? default.requiredEnv
    resources := ← memberOr ms "resources" ResourceSizes.ofToml? default.resources }

/-- The settings that a text holds, before they are checked. -/
def read? (text : String) : Option Settings := (Toml.parse? text).bind ofToml?

/-- The settings that a text holds, if they are accepted. -/
def parse (text : String) : Except Failure Settings :=
  match read? text with
  | none => .error (.configuration ("Failed to parse " ++ fileName))
  | some s => s.validate.map fun _ => s

/-- The greatest number that a document can hold. -/
def maxInteger : Nat := Int64.maxValue.toInt.toNat

/-- The text of settings; a number that no document can hold has none. -/
def render? (s : Settings) : Option String :=
  if maxInteger < s.reduceDirectMemory.toNat then none
  else
    some (Toml.render
      [("artifact_dir", .text s.artifactDir.text), ("artifact_prefix", .text s.artifactPrefix),
        ("shared_artifact_dir", .text s.sharedArtifactDir.text),
        ("output_root", .text s.outputRoot.text), ("staging_dir", .text s.stagingDir),
        ("max_application_priority", .integer s.maxApplicationPriority.toNat),
        ("resources_dir", .text s.resourcesDir.text),
        ("remote_storage_uri", .text s.remoteStorageUri),
        ("reduce_direct_memory_bytes", .integer s.reduceDirectMemory.toNat),
        ("required_env", .texts s.requiredEnv)]
      "resources"
      [("map_memory_mb", .integer s.resources.mapMemory.toNat),
        ("reduce_memory_mb", .integer s.resources.reduceMemory.toNat),
        ("sort_buffer_mb", .integer s.resources.sortBuffer.toNat)])

def defaultText : String :=
  "# shuffle-parity harness configuration\n" ++
  "#\n" ++
  "# Build output directory and file-name prefix of the shuffle client artifact.\n" ++
  "# The first matching file (by name) is staged into the cluster filesystem.\n" ++
  "artifact_dir = \"client-mr/core/target/shaded\"\n" ++
  "artifact_prefix = \"rss-client-mr\"\n" ++
  "\n" ++
  "# Shared-artifact directory on the cluster filesystem; removed at session end.\n" ++
  "shared_artifact_dir = \"/rss.jar\"\n" ++
  "\n" ++
  "# Every run writes to a fresh directory under this root.\n" ++
  "output_root = \"/tmp/TestMRJobs\"\n" ++
  "\n" ++
  "# Cluster bootstrap settings.\n" ++
  "staging_dir = \"/apps_staging_dir\"\n" ++
  "max_application_priority = 10\n" ++
  "\n" ++
  "# Removed best-effort when the session closes.\n" ++
  "resources_dir = \"target/TestMRJobs-tmpDir/localizedResources\"\n" ++
  "\n" ++
  "# Remote storage advertised to the coordinator.\n" ++
  "remote_storage_uri = \"hdfs://localhost:8020/\"\n" ++
  "\n" ++
  "# Direct-memory cap for reduce tasks in offload runs (bytes).\n" ++
  "reduce_direct_memory_bytes = 419430400\n" ++
  "\n" ++
  "# Environment that must be present before an offload run is configured.\n" ++
  "required_env = [\"JAVA_HOME\"]\n" ++
  "\n" ++
  "# Pinned on every run so outputs never differ because of resources.\n" ++
  "[resources]\n" ++
  "map_memory_mb = 500\n" ++
  "reduce_memory_mb = 2048\n" ++
  "sort_buffer_mb = 128\n"

end Settings
end OffloadCheck
