import OffloadCheck.Transport

/-!
The points at which a workload is checked: every transport with every scenario, each scenario being
a sequence of runs of its own.
-/
namespace OffloadCheck

/-- A sequence of runs and comparisons. -/
inductive Scenario
  /-- The reference first, then a standard and a remote-spill offload. -/
  | standard
  /-- A remote-merge offload first, then the reference. -/
  | remoteMerge
deriving DecidableEq, Repr, Inhabited

namespace Scenario

def all : List Scenario := [.standard, .remoteMerge]

def label : Scenario → String
  | .standard => "standard"
  | .remoteMerge => "remote-merge"

end Scenario

structure MatrixPoint where
  transport : Transport
  scenario : Scenario
deriving DecidableEq, Repr, Inhabited

def MatrixPoint.label (p : MatrixPoint) : String := p.transport.wireName ++ "/" ++ p.scenario.label

namespace Matrix

def ofTransport (t : Transport) : List MatrixPoint := Scenario.all.map fun s => ⟨t, s⟩

def full : List MatrixPoint := Transport.all.flatMap ofTransport

end Matrix
end OffloadCheck
