import OffloadCheck.Text.Separated

/-!
Slash-separated paths. A path keeps its text as given, for messages; what it denotes is the list of
its components. Repeated and trailing slashes and inner `.` pieces leave no component, a leading `.`
does, and `..` is kept. Comparison, containment, `parent?` and `fileName?` go by components, so
`/a//b/.` and `/a/b` are one location and `/a/b` is not below `/a-b`.

Names and paths are text for the most part. What is said by their components and by the text that
they are shown as is said of anything that paths can be given as (`PathText`).
-/
namespace OffloadCheck

inductive Component (ν : Type := String)
  | root
  | current
  | parent
  | normal (name : ν)
deriving DecidableEq, Repr

namespace Component

variable {ν : Type}

def rank : Component ν → Nat
  | .root => 0
  | .current => 1
  | .parent => 2
  | .normal _ => 3

def name [Inhabited ν] : Component ν → ν
  | .normal s => s
  | _ => default

/-- The component with its name, if it has one, taken over into other names. -/
def map {μ : Type} (f : ν → μ) : Component ν → Component μ
  | .root => .root
  | .current => .current
  | .parent => .parent
  | .normal s => .normal (f s)

variable [Ord ν] [Inhabited ν]

/-- Components are ordered by kind, and names among themselves; texts are by code points. -/
instance : Ord (Component ν) := ⟨compareLex (compareOn rank) (compareOn name)⟩

instance [Std.TransOrd ν] : Std.TransOrd (Component ν) :=
  inferInstanceAs (Std.TransCmp (compareLex (compareOn rank) (compareOn name)))

theorem compare_eq_iff [Std.LawfulEqOrd ν] {a b : Component ν} : compare a b = .eq ↔ a = b := by
  have h : compare a b = (compare a.rank b.rank).then (compare a.name b.name) := rfl
  rw [h, Ordering.then_eq_eq, Std.LawfulEqOrd.compare_eq_iff_eq, Std.LawfulEqOrd.compare_eq_iff_eq]
  cases a <;> cases b <;> simp [rank, name]

instance [Std.TransOrd ν] [Std.LawfulEqOrd ν] : Std.LawfulEqOrd (Component ν) where
  eq_of_compare := compare_eq_iff.1

end Component

/-- What a path denotes: its components from left to right. -/
abbrev Location (ν : Type := String) := List (Component ν)

namespace Location

variable {ν : Type}

/-- The location without its last component; the root and the empty location have none. -/
def parent? (l : Location ν) : Option (Location ν) :=
  match l.getLast? with
  | none | some .root => none
  | some _ => some l.dropLast

def fileName? (l : Location ν) : Option ν :=
  match l.getLast? with
  | some (.normal name) => some name
  | _ => none

/-- Whether the location lies at or below `above`. -/
def isWithin [DecidableEq ν] (l above : Location ν) : Bool := above.isPrefixOf l

/-- The locations strictly above one that have a component, the outermost first. -/
def ancestors : Location ν → List (Location ν)
  | [] => []
  | [_] => []
  | c :: d :: rest => [c] :: (ancestors (d :: rest)).map (c :: ·)

end Location

/-- What paths and the names in them can be given as. -/
class PathText (ν : Type) where
  /-- What a path denotes. -/
  components : ν → Location ν
  /-- A further text as seen from a path. -/
  join : ν → String → ν
  /-- The path or the name that is given as a text. -/
  ofText : String → ν
  /-- The text that stands for a path or a name wherever it is shown. -/
  shown : ν → String

/-- A path with the text it was given as. -/
structure Path (ν : Type := String) where
  text : ν
deriving DecidableEq, Repr, Inhabited

namespace Path

/-- The component that a piece between slashes stands for, apart from the first piece. -/
def component? : List Char → Option Component
  | [] => none
  | ['.'] => none
  | ['.', '.'] => some .parent
  | name => some (.normal (String.ofList name))

def componentsOf (cs : List Char) : Location :=
  let pieces := Text.splitOn '/' cs
  let body := pieces.filterMap component?
  if cs.head? = some '/' then .root :: body
  else if pieces.head? = some ['.'] then .current :: body
  else body

/-- The text `q` seen from `p`: an absolute `q` stands for itself, any other is put behind one
slash. -/
def joinText (p q : String) : String :=
  if q.toList.head? = some '/' then q
  else if p.toList.getLast?.all (· == '/') then p ++ q
  else p ++ "/" ++ q

/-- Text is shown as it is. -/
instance : PathText String where
  components p := componentsOf p.toList
  join := joinText
  ofText p := p
  shown p := p

@[simp] theorem shown_eq (p : String) : PathText.shown p = p := rfl

@[simp] theorem ofText_eq (p : String) : (PathText.ofText p : String) = p := rfl

variable {ν : Type} [PathText ν]

def components (p : Path ν) : Location ν := PathText.components p.text

def fileName? (p : Path ν) : Option ν := p.components.fileName?

def join (p : Path ν) (q : String) : Path ν := ⟨PathText.join p.text q⟩

theorem components_eq (p : Path) : p.components = componentsOf p.text.toList := rfl

theorem join_eq (p : Path) (q : String) : p.join q = ⟨joinText p.text q⟩ := rfl

def isAbsolute (p : Path) : Bool := p.text.toList.head? = some '/'

/-- The pieces without those at the end that leave no component. The first piece tells whether the
path starts at the root or with `.`, so it stays. -/
def trimPieces : List (List Char) → List (List Char)
  | [] => []
  | first :: rest =>
    first :: (rest.reverse.dropWhile fun piece => (component? piece).isNone).reverse

/-- The path without its last component, in the text it was given as. -/
def parent? (p : Path) : Option Path :=
  p.components.parent?.map fun _ =>
    match trimPieces (trimPieces (Text.splitOn '/' p.text.toList)).dropLast with
    | [[]] => ⟨"/"⟩
    | pieces => ⟨String.ofList (Text.joinWith '/' pieces)⟩

/-- A path and at most `fuel` paths in all on the way up, without the one that nothing is above. -/
def upwardFrom (fuel : Nat) (p : Path) : List Path :=
  match fuel, p.parent? with
  | 0, _ | _, none => []
  | fuel + 1, some above => p :: upwardFrom fuel above

/-- The path as given and those above it, the deepest first, without the one that nothing is above.
Every step up leaves a component, so their number is enough fuel. -/
def upward (p : Path) : List Path := upwardFrom p.components.length p

def mentionsParent (p : Path) : Bool := p.components.contains .parent

end Path
end OffloadCheck
