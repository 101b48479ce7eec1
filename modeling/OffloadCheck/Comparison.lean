import OffloadCheck.Failure
import OffloadCheck.Storage.FileSystem

/-!
The comparison of a reference output with a candidate output. Shape is settled from the two listings
before any file is opened; then files are compared pair by pair in name order, and the first
divergence ends the comparison; the summed lengths come last. A failure of the filesystem is no
verdict.
-/
namespace OffloadCheck

variable {σ ν : Type} [PathText ν]

/-- Compares the files of two directories that share the given names, numbered from `index`. -/
def FileSystem.compareFiles (fs : FileSystem σ ν) (reference candidate : Path ν) (index : Nat) :
    List String → Action σ (StorageError ν) (Option Mismatch)
  | [] => pure none
  | name :: names => do
    let r ← fs.openFile (reference.join name)
    let c ← fs.openFile (candidate.join name)
    let s ← Action.world
    match ← Action.ofExcept (((r s).firstDivergence (c s)).mapError StorageError.io) with
    | some found => return some (.content index name found.offset found.divergence)
    | none => fs.compareFiles reference candidate (index + 1) names

/-- What the manifests of two outputs say before any file is opened. -/
def Manifest.shapeMismatch? (reference candidate : Manifest) : Option ShapeMismatch :=
  if reference.size ≠ candidate.size then some (.fileCount reference.size candidate.size)
  else
    (reference.firstNameDifference candidate).map fun i =>
      .fileName i (nameAt reference i) (nameAt candidate i)
where
  nameAt (m : Manifest) (i : Nat) : String := (m.entries[i]?.map (·.name)).getD ""

def FileSystem.compareDirs (fs : FileSystem σ ν) (reference candidate : Path ν) :
    Action σ (StorageError ν) Verdict := do
  let r ← fs.manifest reference
  let c ← fs.manifest candidate
  match r.shapeMismatch? c with
  | some m => return .fail (.shape m)
  | none =>
    match ← fs.compareFiles reference candidate 0 (r.entries.map (·.name)) with
    | some m => return .fail m
    | none =>
      if r.totalLength ≠ c.totalLength then
        return .fail (.aggregate r.totalLength c.totalLength)
      else return .pass r.size r.totalLength

/-- Compares two outputs, of which either may be absent. -/
def FileSystem.compare (fs : FileSystem σ ν) (reference candidate : Option (Path ν)) :
    Action σ (StorageError ν) Verdict :=
  match reference, candidate with
  | none, none => pure .noOutput
  | some r, some c => fs.compareDirs r c
  | r, c => pure (.fail (.shape (.outputPresence r.isSome c.isSome)))

end OffloadCheck
