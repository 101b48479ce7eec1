import OffloadCheck.Transport

/-!
The role a run plays in a comparison and the way its shuffle is executed. The role of an offload run
follows from its two switches: a merge on the servers outranks a remote spill.
-/
namespace OffloadCheck

/-- The part a run plays in a comparison. -/
inductive Role
  /-- A run with the framework's own shuffle, against which all others are held. -/
  | reference
  /-- An offload run that spills to local disk. -/
  | standardOffload
  /-- An offload run whose reduce side spills to the shuffle servers. -/
  | remoteSpillOffload
  /-- An offload run whose partitions are merged on the shuffle servers. -/
  | remoteMergeOffload
deriving DecidableEq, Repr, Inhabited

namespace Role

def all : List Role := [.reference, .standardOffload, .remoteSpillOffload, .remoteMergeOffload]

/-- The label used in messages and in the names of output directories. -/
def label : Role → String
  | .reference => "reference"
  | .standardOffload => "standard-offload"
  | .remoteSpillOffload => "remote-spill-offload"
  | .remoteMergeOffload => "remote-merge-offload"

def ofLabel? (s : String) : Option Role := all.find? fun r => r.label = s

def isReference (r : Role) : Bool := r = .reference

/-- The role of an offload run with the given switches. -/
def ofSwitches (remoteMerge remoteSpill : Bool) : Role :=
  if remoteMerge then .remoteMergeOffload
  else if remoteSpill then .remoteSpillOffload
  else .standardOffload

theorem ofLabel?_label (r : Role) : ofLabel? r.label = some r := by
  cases r <;> decide

end Role

/-- How the shuffle of a run is executed. -/
inductive Mode
  | baseline
  | offload (transport : Transport) (remoteMerge remoteSpill : Bool)
deriving DecidableEq, Repr, Inhabited

def Mode.isOffload : Mode → Bool
  | .baseline => false
  | .offload .. => true

/-- Memory sizes in MiB that every run of a session is pinned to. -/
structure ResourceSizes where
  mapMemory : UInt32
  reduceMemory : UInt32
  sortBuffer : UInt32
deriving DecidableEq, Repr, Inhabited

def ResourceSizes.hasZero (r : ResourceSizes) : Bool :=
  r.mapMemory = 0 || r.reduceMemory = 0 || r.sortBuffer = 0

def ResourceSizes.default : ResourceSizes := ⟨500, 2048, 128⟩

end OffloadCheck
