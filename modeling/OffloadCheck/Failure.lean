import OffloadCheck.Output.Verdict
import OffloadCheck.Role

/-!
Why a check stops. A precondition fails before any run, a run ends with a non-zero exit code, two
outputs do not match, or storage or another collaborator fails. Nothing is retried.
-/
namespace OffloadCheck

/-- Why a check stops. -/
inductive Failure
  /-- A precondition is not met. -/
  | configuration (reason : String)
  | job (role : Role) (workload : String) (exitCode : Int32)
  | mismatch (mismatch : Mismatch)
  | storage (error : StorageError)
  /-- The cluster or the shuffle servers failed. -/
  | fixture (reason : String)
deriving DecidableEq, Repr

namespace Failure

def message : Failure → String
  | .configuration reason => "configuration error: " ++ reason
  | .job role workload code =>
    workload ++ " failed in " ++ role.label ++ " run with exit code " ++ Text.ofInt code.toInt
  | .mismatch m => "equivalence mismatch: " ++ m.message
  | .storage e => "filesystem error: " ++ e.message
  | .fixture reason => "fixture error: " ++ reason

def isMismatch : Failure → Bool
  | .mismatch _ => true
  | _ => false

end Failure
end OffloadCheck
