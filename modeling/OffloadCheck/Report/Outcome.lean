import OffloadCheck.Json.Printer
import OffloadCheck.Outcome
import OffloadCheck.Report.Values
import OffloadCheck.Report.Verdict

/-!
The JSON forms of executions, candidates and outcomes, and the report of an outcome.
-/
namespace OffloadCheck

open Json

namespace Execution

def toJson (e : Execution) : Json :=
  record [("role", e.role.toJson),
    ("output_directory", orNull (e.outputDirectory.map fun p => .text p.text)),
    ("exit_code", .int e.exitCode.toInt), ("started_at", .text e.startedAt.render),
    ("finished_at", .text e.finishedAt.render)]

def timestamp? (j : Json) : Option Timestamp := (string? j).bind Timestamp.parse?

def ofJson? (j : Json) : Option Execution := do
  let f ← fields? ["role", "output_directory", "exit_code", "started_at", "finished_at"] j
  return ⟨← f.required 0 Role.ofJson?, (← f.optional 1 string?).map Path.mk, ← f.required 2 int32?,
    ← f.required 3 timestamp?, ← f.required 4 timestamp?⟩

end Execution

namespace Candidate

def toJson (c : Candidate) : Json :=
  record [("execution", c.execution.toJson), ("comparison", c.verdict.toJson)]

/-- The candidate with a JSON form that stands inside `level` arrays and objects, its own
included. -/
def ofJson? (level : Nat) (j : Json) : Option Candidate := do
  let f ← fields? ["execution", "comparison"] j
  return ⟨← f.required 0 Execution.ofJson?, ← f.required 1 (Verdict.ofJson? (level + 1))⟩

end Candidate

namespace Outcome

def toJson (o : Outcome) : Json :=
  record [("point", o.point.toJson), ("reference", o.reference.toJson),
    ("candidates", .array (o.candidates.map Candidate.toJson))]

def ofJson? (j : Json) : Option Outcome := do
  let f ← fields? ["point", "reference", "candidates"] j
  return ⟨← f.required 0 MatrixPoint.ofJson?, ← f.required 1 Execution.ofJson?,
    ← f.required 2 (list? (Candidate.ofJson? 3))⟩

def report (o : Outcome) : String := o.toJson.pretty

end Outcome
end OffloadCheck
