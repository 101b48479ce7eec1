import OffloadCheck.Path.Basic

/-!
What a directory listing says about an output: the files to compare, in name order, and the total
length. The completion marker takes no part in the comparison but its length counts, and files of
one name keep the order of the listing.
-/
namespace OffloadCheck

structure Entry where
  name : String
  length : Nat
  isDir : Bool
deriving DecidableEq, Repr, Inhabited

namespace Entry

def file (name : String) (length : Nat) : Entry := ⟨name, length, false⟩

def dir (name : String) : Entry := ⟨name, 0, true⟩

/-- The name of the empty file that a job writes once its output is complete. -/
def markerName : String := "_SUCCESS"

def isMarkerName (name : String) : Bool := name = markerName

end Entry

/-- The comparable view of one output directory. -/
structure Manifest where
  entries : List Entry
  totalLength : Nat
deriving DecidableEq, Repr, Inhabited

namespace Manifest

/-- Entries ordered by name; the sort is stable. -/
def byName (entries : List Entry) : List Entry :=
  entries.mergeSort fun a b => (compare a.name b.name).isLE

def ofListing (listing : List Entry) : Manifest where
  entries := byName (listing.filter fun e => !Entry.isMarkerName e.name)
  totalLength := (listing.map (·.length)).foldr (· + ·) 0

def size (m : Manifest) : Nat := m.entries.length

def isEmpty (m : Manifest) : Bool := m.entries.isEmpty

/-- The least position at which two lists hold different values, as far as both reach. -/
def firstDifference [DecidableEq α] : List α → List α → Option Nat
  | a :: as, b :: bs => if a = b then (firstDifference as bs).map (· + 1) else some 0
  | _, _ => none

def firstNameDifference (m other : Manifest) : Option Nat :=
  firstDifference (m.entries.map (·.name)) (other.entries.map (·.name))

end Manifest
end OffloadCheck
