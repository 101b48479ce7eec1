import OffloadCheck.Path.Basic

/-!
Resolution beneath a root. The components of a path are met from left to right on the way down from
the root: a name is put behind the path, `..` cuts the path back as long as a name is left to cut
off, and the root and `.` change nothing. A count beside the path tells how many names are left. The
names that are left are those on a stack that a name is pushed on and `..` pops.
-/
namespace OffloadCheck

/-- One component met by the stack of names, whose last element is its top. -/
def Component.onStack (stack : List String) : Component → List String
  | .normal name => stack ++ [name]
  | .parent => stack.dropLast
  | .root | .current => stack

namespace Location

def stackFrom (stack : List String) (l : Location) : List String := l.foldl Component.onStack stack

def stack (l : Location) : List String := stackFrom [] l

@[simp] theorem stackFrom_append (s : List String) (a b : Location) :
    stackFrom s (a ++ b) = stackFrom (stackFrom s a) b :=
  List.foldl_append

theorem stackFrom_map_normal (s names : List String) :
    stackFrom s (names.map Component.normal) = s ++ names := by
  induction names generalizing s with
  | nil => simp [stackFrom]
  | cons n ns ih =>
    have := ih (s ++ [n])
    simpa [stackFrom, Component.onStack] using this

@[simp] theorem stack_map_normal (names : List String) :
    stack (names.map Component.normal) = names := stackFrom_map_normal [] names

end Location

namespace Path

/-- The path without its last component, or the path itself where nothing is above it. -/
def pop (p : Path) : Path := p.parent?.getD p

/-- A path on the way down from a root. -/
structure Descent where
  path : Path
  /-- How many names stand behind the root. -/
  depth : Nat

def Descent.step (d : Descent) : Component → Descent
  | .normal name => ⟨d.path.join name, d.depth + 1⟩
  | .parent => if 0 < d.depth then ⟨d.path.pop, d.depth - 1⟩ else d
  | .root | .current => d

/-- The way down from `root` along the components of a path. -/
def descent (p root : Path) : Descent := p.components.foldl Descent.step ⟨root, 0⟩

/-- The physical place of a path beneath `root`. -/
def resolveUnder (p root : Path) : Path := (p.descent root).path

end Path
end OffloadCheck
