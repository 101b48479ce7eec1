import OffloadCheck.Comparison
import OffloadCheck.Outcome
import OffloadCheck.Session.Artifact

/-!
The runs of a session. Each point of the matrix is a sequence of runs, submitted one at a time;
every offload run is compared with the one reference run of its sequence. The first run that fails
and the first comparison that fails end the sequence and the whole matrix.
-/
namespace OffloadCheck.Session

open Job

variable {σ : Type}

def planBaseline (session : Session σ) (base : Properties) : Step σ RunPlan := do
  return RunPlan.baseline session.settings (← session.freshRunId) base

/-- Plans an offload run, once its preconditions hold. -/
def planOffload (session : Session σ) (base : Properties) (transport : Transport)
    (remoteMerge remoteSpill : Bool) : Step σ RunPlan := do
  let artifact ← session.preflight
  return RunPlan.offload session.settings session.quorum artifact (← session.freshRunId) base
    transport remoteMerge remoteSpill

def execute (session : Session σ) (workload : Workload) (plan : RunPlan) : Step σ Execution := do
  let startedAt ← observe session.host.now
  let result ← onWorld (session.cluster.submit plan.properties workload)
  let finishedAt ← observe session.host.now
  if result.exitCode = 0 then
    return {
      role := plan.role
      outputDirectory := (result.properties.get? Keys.outputDir).map Path.mk
      exitCode := result.exitCode
      startedAt := startedAt
      finishedAt := finishedAt }
  else Action.fail (.job plan.role workload.name result.exitCode)

def judge (session : Session σ) (reference candidate : Execution) : Step σ Candidate := do
  match ← onStorage (session.clusterFs.compare reference.outputDirectory candidate.outputDirectory)
    with
  | .fail mismatch => Action.fail (.mismatch mismatch)
  | verdict => return ⟨candidate, verdict⟩

/-- Plans and executes a reference run from the properties that the cluster has now. -/
def runReference (session : Session σ) (workload : Workload) (base : Properties) :
    Step σ Execution := do
  session.execute workload (← session.planBaseline base)

def runOffload (session : Session σ) (workload : Workload) (base : Properties)
    (transport : Transport) (remoteMerge remoteSpill : Bool) : Step σ Execution := do
  session.execute workload (← session.planOffload base transport remoteMerge remoteSpill)

/-- A reference run, then an offload run with local and one with remote spill, each compared with
the reference as soon as it has ended. -/
def runStandard (session : Session σ) (workload : Workload) (transport : Transport) :
    Step σ Outcome := do
  discard session.preflight
  let base ← observe session.cluster.baseProperties
  let reference ← session.runReference workload base
  let standard ← session.runOffload workload base transport false false
  let standard ← session.judge reference standard
  let base ← observe session.cluster.baseProperties
  let spill ← session.runOffload workload base transport false true
  let spill ← session.judge reference spill
  return ⟨⟨transport, .standard⟩, reference, [standard, spill]⟩

/-- An offload run merged on the servers, then a reference run, then their comparison. -/
def runRemoteMerge (session : Session σ) (workload : Workload) (transport : Transport) :
    Step σ Outcome := do
  discard session.preflight
  let base ← observe session.cluster.baseProperties
  let merged ← session.runOffload workload base transport true false
  let base ← observe session.cluster.baseProperties
  let reference ← session.runReference workload base
  let merged ← session.judge reference merged
  return ⟨⟨transport, .remoteMerge⟩, reference, [merged]⟩

def runPoint (session : Session σ) (workload : Workload) (point : MatrixPoint) :
    Step σ Outcome :=
  match point.scenario with
  | .standard => session.runStandard workload point.transport
  | .remoteMerge => session.runRemoteMerge workload point.transport

/-- Runs points in order until one fails. -/
def runMatrix (session : Session σ) (workload : Workload) :
    List MatrixPoint → Step σ (List Outcome)
  | [] => return []
  | point :: points => do
    let outcome ← session.runPoint workload point
    return outcome :: (← session.runMatrix workload points)

end OffloadCheck.Session
