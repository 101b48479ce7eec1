import OffloadCheck.SortedMap
import OffloadCheck.Text.Scalar

/-!
The flat property set that a job is submitted with. Properties are kept in key order, so a set is
determined by what its keys read as. Switches and whole numbers are stored as text and read back
leniently: a missing or malformed value reads as nothing.
-/
namespace OffloadCheck

/-- Properties by name. -/
abbrev Properties := SortedMap String String

namespace Properties

def set (ps : Properties) (key value : String) : Properties := ps.insert key value

def unset (ps : Properties) (key : String) : Properties := ps.erase key

def setSwitch (ps : Properties) (key : String) (value : Bool) : Properties :=
  ps.set key (Text.ofBool value)

def setInt (ps : Properties) (key : String) (value : Int) : Properties :=
  ps.set key (Text.ofInt value)

def getSwitch? (ps : Properties) (key : String) : Option Bool := (ps.get? key).bind Text.bool?

def getInt? (ps : Properties) (key : String) : Option Int := (ps.get? key).bind Text.int64?

/-- The value of a comma-separated list with one more element. -/
def extended (old : Option String) (value : String) : String :=
  match old with
  | none => value
  | some old => if old = "" then value else old ++ "," ++ value

/-- Appends an element to a comma-separated list property. -/
def appendList (ps : Properties) (key value : String) : Properties :=
  ps.set key (extended (ps.get? key) value)

theorem get?_set (ps : Properties) (key key' value : String) :
    (ps.set key value).get? key' = if key' = key then some value else ps.get? key' := by
  simp [set]

theorem get?_unset (ps : Properties) (key key' : String) :
    (ps.unset key).get? key' = if key' = key then none else ps.get? key' := by
  simp [unset, eq_comm (a := key')]

theorem getSwitch?_setSwitch (ps : Properties) (key : String) (value : Bool) :
    (ps.setSwitch key value).getSwitch? key = some value := by
  simp [getSwitch?, setSwitch, get?_set, Text.bool?_ofBool]

end Properties
end OffloadCheck
