import OffloadCheck.Failure
import OffloadCheck.Path.Basic
import OffloadCheck.Text.Blank

/-!
The settings of a check: where artifacts, outputs and resources lie and which sizes runs are pinned
to. Settings are accepted when the artifact has a name to look for, every size is positive, and each
directory that the check deletes is named without `..`.
-/
namespace OffloadCheck

structure Settings where
  /-- Where the build leaves the client artifact. -/
  artifactDir : Path
  /-- How the file name of the client artifact begins. -/
  artifactPrefix : String
  /-- Where the cluster finds the client artifact. -/
  sharedArtifactDir : Path
  outputRoot : Path
  stagingDir : String
  maxApplicationPriority : UInt32
  /-- Where the cluster leaves files that are removed when it stops. -/
  resourcesDir : Path
  remoteStorageUri : String
  /-- The direct memory of a reduce task in bytes. -/
  reduceDirectMemory : UInt64
  requiredEnv : List String
  resources : ResourceSizes
deriving DecidableEq, Repr, Inhabited

namespace Settings

def default : Settings where
  artifactDir := ⟨"client-mr/core/target/shaded"⟩
  artifactPrefix := "rss-client-mr"
  sharedArtifactDir := ⟨"/rss.jar"⟩
  outputRoot := ⟨"/tmp/TestMRJobs"⟩
  stagingDir := "/apps_staging_dir"
  maxApplicationPriority := 10
  resourcesDir := ⟨"target/TestMRJobs-tmpDir/localizedResources"⟩
  remoteStorageUri := "hdfs://localhost:8020/"
  reduceDirectMemory := 419430400
  requiredEnv := ["JAVA_HOME"]
  resources := ResourceSizes.default

def fileName : String := "parity.toml"

/-- The directories that have to be named without `..`, with their keys. -/
def guardedDirs (s : Settings) : List (String × Path) :=
  [("shared_artifact_dir", s.sharedArtifactDir), ("output_root", s.outputRoot),
    ("resources_dir", s.resourcesDir)]

/-- Why settings are not accepted. -/
inductive Fault
  | emptyPrefix
  | zeroSize (resources : ResourceSizes)
  | noSharedName (dir : Path)
  | parentStep (key : String) (dir : Path)
deriving DecidableEq, Repr

def Fault.message : Fault → String
  | .emptyPrefix => "artifact_prefix in " ++ fileName ++ " must not be empty"
  | .zeroSize r =>
    "resource sizes must be non-zero, got map=" ++ Text.ofNat r.mapMemory.toNat ++ " reduce=" ++
      Text.ofNat r.reduceMemory.toNat ++ " sort=" ++ Text.ofNat r.sortBuffer.toNat
  | .noSharedName dir => "shared_artifact_dir '" ++ dir.text ++ "' has no final component"
  | .parentStep key dir => key ++ " '" ++ dir.text ++ "' must not contain '..'"

def fault? (s : Settings) : Option Fault :=
  if Text.isAllBlank s.artifactPrefix then some .emptyPrefix
  else if s.resources.hasZero then some (.zeroSize s.resources)
  else if s.sharedArtifactDir.fileName?.isNone then some (.noSharedName s.sharedArtifactDir)
  else
    (s.guardedDirs.find? fun (_, dir) => dir.mentionsParent).map fun (key, dir) =>
      .parentStep key dir

def validate (s : Settings) : Except Failure Unit :=
  match s.fault? with
  | some f => .error (.configuration f.message)
  | none => .ok ()

theorem fault?_eq_none_iff (s : Settings) : s.fault? = none ↔
    Text.isAllBlank s.artifactPrefix = false ∧ s.resources.hasZero = false ∧
      s.sharedArtifactDir.fileName?.isSome = true ∧
      ∀ guarded ∈ s.guardedDirs, guarded.2.mentionsParent = false := by
  unfold fault?
  cases Text.isAllBlank s.artifactPrefix <;> cases s.resources.hasZero <;>
    cases s.sharedArtifactDir.fileName? <;> simp

theorem validate_eq_ok_iff (s : Settings) : s.validate = .ok () ↔ s.fault? = none := by
  unfold validate
  cases s.fault? <;> simp

end Settings
end OffloadCheck
