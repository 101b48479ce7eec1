import OffloadCheck.Matrix
import OffloadCheck.Output.Verdict
import OffloadCheck.Path.Basic
import OffloadCheck.Role
import OffloadCheck.Timestamp

/-!
What a sequence of runs leaves: the reference execution and every candidate execution with its
verdict.
-/
namespace OffloadCheck

structure Execution where
  role : Role
  /-- The output directory named by the job properties after the run. -/
  outputDirectory : Option Path
  exitCode : Int32
  startedAt : Timestamp
  finishedAt : Timestamp
deriving DecidableEq, Repr, Inhabited

structure Candidate where
  execution : Execution
  verdict : Verdict
deriving DecidableEq, Repr

/-- The outcome of one point of the matrix. -/
structure Outcome where
  point : MatrixPoint
  reference : Execution
  candidates : List Candidate
deriving DecidableEq, Repr

def Outcome.allPassed (o : Outcome) : Bool := o.candidates.all (·.verdict.isPass)

end OffloadCheck
