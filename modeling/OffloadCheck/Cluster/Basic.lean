import OffloadCheck.Failure
import OffloadCheck.Job.Properties
import OffloadCheck.Storage.FileSystem

/-!
What the check asks of a cluster: it is started and stopped once, hands out the properties that
every job starts from, and runs a job to its end. A job may change its properties, so they are part
of what a submission leaves.
-/
namespace OffloadCheck

/-- The job that is run the same way in every run of a comparison. -/
structure Workload where
  name : String
  args : List String
deriving DecidableEq, Repr, Inhabited

/-- What a job that reached its end left. -/
structure JobResult where
  /-- The exit status; zero is success. -/
  exitCode : Int32
  /-- The properties as the job left them. -/
  properties : Properties

/-- The calls that a cluster answers. -/
structure Cluster (σ : Type) where
  start : Properties → Action σ Failure Unit
  stop : Action σ Failure Unit
  /-- The properties that every job starts from. -/
  baseProperties : σ → Properties
  submit : Properties → Workload → Action σ Failure JobResult

end OffloadCheck
