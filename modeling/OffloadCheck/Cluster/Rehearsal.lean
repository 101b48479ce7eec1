import OffloadCheck.Cluster.Basic
import OffloadCheck.Job.Keys
import OffloadCheck.Job.Role

/-!
A cluster for trials. Its jobs write given part files and a completion marker into their output
directory; what a run of some role writes or reports can be changed. Every call goes into a log that
lives in the world.
-/
namespace OffloadCheck

open Job

structure PartFile where
  name : String
  data : Bytes
deriving DecidableEq, Repr, Inhabited

/-- A change to the part files of a run. Positions that are not there are passed over. -/
inductive PartEdit
  | add (part : PartFile)
  | remove (index : Nat)
  | rename (index : Nat) (name : String)
  | truncate (index length : Nat)
  | append (index : Nat) (data : Bytes)
  | setByte (index offset : Nat) (value : UInt8)
  | reverse
deriving DecidableEq, Repr

namespace PartEdit

def apply (parts : List PartFile) : PartEdit → List PartFile
  | .add part => parts ++ [part]
  | .remove i => parts.eraseIdx i
  | .rename i name => parts.modify i fun p => { p with name := name }
  | .truncate i length => parts.modify i fun p => { p with data := p.data.take length }
  | .append i data => parts.modify i fun p => { p with data := p.data ++ data }
  | .setByte i offset value => parts.modify i fun p => { p with data := p.data.set offset value }
  | .reverse => parts.reverse

def applyAll (edits : List PartEdit) (parts : List PartFile) : List PartFile :=
  edits.foldl apply parts

end PartEdit

structure Submission where
  role : Role
  workload : Workload
  properties : Properties

structure ClusterLog where
  startedWith : Option Properties
  stops : Nat
  submissions : List Submission

def ClusterLog.empty : ClusterLog := ⟨none, 0, []⟩

/-- How rehearsed jobs go. -/
structure JobScript where
  base : Properties
  parts : List PartFile
  writesMarker : Bool
  /-- Whether runs have an output; those without one drop their output directory property. -/
  writesOutput : Bool
  /-- The exit code of a role whose runs end early and write nothing. -/
  exitCode? : Role → Option Int32
  /-- The part files that runs of a role write in place of the given ones. -/
  altered : Role → List PartFile → List PartFile

namespace JobScript

variable {σ : Type}

def writeParts (fs : FileSystem σ) (dir : Path) : List PartFile → Action σ StorageError Unit
  | [] => pure ()
  | part :: parts => do
    fs.putFile (dir.join part.name) part.data
    writeParts fs dir parts

def writeOutput (script : JobScript) (fs : FileSystem σ) (role : Role) (dir : Path) :
    Action σ StorageError Unit := do
  writeParts fs dir (script.altered role script.parts)
  if script.writesMarker then fs.putFile (dir.join Entry.markerName) []

def perform (script : JobScript) (fs : FileSystem σ) (properties : Properties) :
    Action σ Failure JobResult :=
  match script.exitCode? properties.role with
  | some code => pure ⟨code, properties⟩
  | none =>
    if script.writesOutput then
      match properties.get? Keys.outputDir with
      | none => Action.fail (.fixture "job configuration has no output directory")
      | some dir => do
        (script.writeOutput fs properties.role ⟨dir⟩).mapError Failure.storage
        return ⟨0, properties⟩
    else pure ⟨0, properties.unset Keys.outputDir⟩

/-- The cluster whose jobs follow the script; `note` enters a call into the log. -/
def cluster (script : JobScript) (fs : FileSystem σ) (note : (ClusterLog → ClusterLog) → σ → σ) :
    Cluster σ where
  start properties := Action.change (note fun log => { log with startedWith := some properties })
  stop := Action.change (note fun log => { log with stops := log.stops + 1 })
  baseProperties _ := script.base
  submit properties workload := do
    Action.change (note fun log =>
      { log with submissions := log.submissions ++ [⟨properties.role, workload, properties⟩] })
    script.perform fs properties

end JobScript

structure ClusterFaults where
  /-- Starting fails before the cluster hears of it. -/
  startFault : Option String
  /-- Stopping fails after the cluster has stopped. -/
  stopFault : Option String
  /-- Submitting fails before the cluster hears of it. -/
  submitFault : Option String
  /-- The output directory that jobs of a role leave in their properties, or leave unset. -/
  jobOutput : Role → Option (Option String)

def Cluster.failing {σ : Type} (faults : ClusterFaults) (cluster : Cluster σ) : Cluster σ where
  start properties := do
    raise faults.startFault
    cluster.start properties
  stop := do
    cluster.stop
    raise faults.stopFault
  baseProperties := cluster.baseProperties
  submit properties workload := do
    raise faults.submitFault
    let result ← cluster.submit properties workload
    match faults.jobOutput properties.role with
    | none => return result
    | some none => return { result with properties := result.properties.unset Keys.outputDir }
    | some (some dir) =>
      return { result with properties := result.properties.set Keys.outputDir dir }
where
  raise : Option String → Action σ Failure Unit
    | some reason => Action.fail (.fixture reason)
    | none => pure ()

end OffloadCheck
