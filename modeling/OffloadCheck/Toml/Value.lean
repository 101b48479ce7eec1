import OffloadCheck.Text.Scalar

/-!
TOML values, and the tree that a document builds up. A table remembers how it came to be, since that
decides what later statements may add to it: a header defines a table once, the tables that a header
passes through may still be defined, and the tables of a dotted key are closed to headers.
-/
namespace OffloadCheck.Toml

/-- A TOML value. Numbers with a point and moments keep the way they are written. -/
inductive Value
  | string (text : String)
  | integer (n : Int)
  | float (lexeme : List Char)
  | bool (value : Bool)
  | moment (lexeme : List Char)
  | array (elements : List Value)
  | table (members : List (String × Value))
deriving Inhabited

/-- How a table came to be. -/
inductive Origin
  /-- A header names it, or it is the whole document. -/
  | header
  /-- A header passes through it. -/
  | implied
  /-- A dotted key passes through it. -/
  | dotted
deriving DecidableEq, Repr

/-- What a key of an unfinished document leads to. -/
inductive Node
  | value (v : Value)
  | table (origin : Origin) (members : List (String × Node))
  /-- The tables that headers in double brackets have opened, in order. -/
  | tables (elements : List (List (String × Node)))
deriving Inhabited

abbrev Members := List (String × Node)

namespace Members

def replace (ms : Members) (key : String) (node : Node) : Members :=
  ms.map fun m => if m.1 = key then (key, node) else m

/-- Changes the table at the end of a path, making the tables on the way that are not there. With
`dotted` the path belongs to a dotted key, which must not enter a table that a header defined. -/
def descend (dotted : Bool) (change : Origin → Members → Option Members) (origin : Origin)
    (ms : Members) : List String → Option Members
  | [] => change origin ms
  | key :: path =>
    match ms.lookup key with
    | none =>
      let origin := if dotted then .dotted else .implied
      (descend dotted change origin [] path).map fun inner => ms ++ [(key, .table origin inner)]
    | some (.value _) => none
    | some (.table origin inner) =>
      if dotted && origin = .header then none
      else
        (descend dotted change origin inner path).map fun inner =>
          ms.replace key (.table origin inner)
    | some (.tables elements) =>
      elements.getLast?.bind fun last =>
        (descend dotted change .header last path).map fun last =>
          ms.replace key (.tables (elements.dropLast ++ [last]))

/-- Adds a value under a dotted key. The key must be new, and a table entered by a dotted key must
be one that dotted keys made. -/
def insertValue (path : List String) (key : String) (v : Value) (origin : Origin) (ms : Members) :
    Option Members :=
  descend true
    (fun origin ms =>
      if (origin = .dotted) = path.isEmpty || (ms.lookup key).isSome then none
      else some (ms ++ [(key, .value v)]))
    origin ms path

def openTable (path : List String) (key : String) (ms : Members) : Option Members :=
  descend false
    (fun _ ms =>
      match ms.lookup key with
      | none => some (ms ++ [(key, .table .header [])])
      | some (.table .implied inner) => some (ms.replace key (.table .header inner))
      | some _ => none)
    .header ms path

/-- Opens one more table under the key that a header in double brackets names. -/
def openElement (path : List String) (key : String) (ms : Members) : Option Members :=
  descend false
    (fun _ ms =>
      match ms.lookup key with
      | none => some (ms ++ [(key, .tables [[]])])
      | some (.tables elements) => some (ms.replace key (.tables (elements ++ [[]])))
      | some _ => none)
    .header ms path

end Members

mutual

def Node.toValue : Node → Value
  | .value v => v
  | .table _ ms => .table (membersToValues ms)
  | .tables es => .array (tablesToValues es)

def membersToValues : List (String × Node) → List (String × Value)
  | [] => []
  | (k, n) :: ms => (k, n.toValue) :: membersToValues ms

def tablesToValues : List (List (String × Node)) → List Value
  | [] => []
  | ms :: es => .table (membersToValues ms) :: tablesToValues es

end

/-- One statement of a document. A key is the path to it and its last part. -/
inductive Statement
  | pair (path : List String) (key : String) (value : Value)
  | header (path : List String) (key : String)
  | element (path : List String) (key : String)
deriving Inhabited

/-- An unfinished document: its members and the path of the table that pairs go into. -/
structure Draft where
  members : Members
  current : List String

def Draft.add (d : Draft) : Statement → Option Draft
  | .pair path key v =>
    (Members.descend false (fun origin ms => ms.insertValue path key v origin) .header d.members
      d.current).map fun ms => { d with members := ms }
  | .header path key => (d.members.openTable path key).map fun ms => ⟨ms, path ++ [key]⟩
  | .element path key => (d.members.openElement path key).map fun ms => ⟨ms, path ++ [key]⟩

def tableOf? (statements : List Statement) : Option (List (String × Value)) :=
  (statements.foldlM Draft.add ⟨[], []⟩).map fun d => membersToValues d.members

end OffloadCheck.Toml
