import OffloadCheck.Action
import OffloadCheck.Output.ByteStream
import OffloadCheck.SortedMap

/-!
A disk as its system calls show it: directories and regular files by the names that lead to them,
without links and permissions. A path is walked name by name from the top directory, which is also
the working directory; the walk knows `.`, `..` and the directory that a trailing slash asks for.
Files have identities, so a writer keeps its file when the name is deleted or given to a new file.
-/
namespace OffloadCheck

/-- What a name leads to. -/
inductive DiskNode
  | dir
  | file (id : Nat) (data : Bytes)
deriving DecidableEq, Repr

structure Disk where
  nodes : SortedMap (List String) DiskNode
  /-- An identity that no file has. -/
  nextId : Nat
deriving DecidableEq, Inhabited

namespace Disk

def empty : Disk := ⟨.empty, 0⟩

/-- What is at a place; the top is always a directory. -/
def node? (d : Disk) (place : List String) : Option DiskNode :=
  if place = [] then some .dir else d.nodes.get? place

def isDirAt (d : Disk) (place : List String) : Bool := d.node? place = some .dir

def childrenAt (d : Disk) (place : List String) : List (String × DiskNode) :=
  d.nodes.entries.filterMap fun e =>
    match e.1.getLast? with
    | some name => if e.1.dropLast = place then some (name, e.2) else none
    | none => none

/-- The longest name, in bytes. -/
def maxName : Nat := 255

/-- The longest path, in bytes. -/
def maxPath : Nat := 4095

/-- One step of a walk: from the place `at` by one piece between slashes. -/
def step (d : Disk) (place : List String) (piece : List Char) :
    Except SystemFailure (List String) :=
  if !d.isDirAt place then .error .notDirectory
  else if piece = ['.'] then .ok place
  else if piece = ['.', '.'] then .ok place.dropLast
  else
    let name := String.ofList piece
    if maxName < name.utf8ByteSize then .error .nameTooLong
    else if (d.node? (place ++ [name])).isNone then .error .noEntry
    else .ok (place ++ [name])

def pieces (p : Path) : List (List Char) := (Text.splitOn '/' p.text.toList).filter (· ≠ [])

def endsWithSlash (p : Path) : Bool := p.text.toList.getLast? = some '/'

/-- What a system call refuses about a path before it walks. -/
def check (p : Path) : Except IoFailure Unit :=
  if p.text.toList.contains '\x00' then .error .nulInPath
  else if p.text = "" then .error (.system .noEntry)
  else if maxPath < p.text.utf8ByteSize then .error (.system .nameTooLong)
  else .ok ()

def walk (d : Disk) (place : List String) (path : List (List Char)) :
    Except SystemFailure (List String) :=
  path.foldlM (d.step ·) place

def find (d : Disk) (p : Path) : Except IoFailure (List String × DiskNode) := do
  check p
  let place ← (d.walk [] (pieces p)).mapError .system
  match d.node? place with
  | none => .error (.system .noEntry)
  | some node =>
    if endsWithSlash p && node != .dir then .error (.system .notDirectory) else .ok (place, node)

def isPresent (d : Disk) (p : Path) : Bool := (d.find p).isOk

def isDir (d : Disk) (p : Path) : Bool :=
  match d.find p with
  | .ok (_, node) => node = .dir
  | .error _ => false

/-- The last piece of a path as a call that makes or removes a name meets it. -/
inductive LastPiece
  | top
  | current
  | parent
  | name (name : String)
deriving DecidableEq, Repr

/-- The place of the directory that holds the last piece, and that piece. -/
def findParent (d : Disk) (p : Path) : Except IoFailure (List String × LastPiece) := do
  check p
  match (pieces p).getLast? with
  | none => .ok ([], .top)
  | some last =>
    let place ← (d.walk [] (pieces p).dropLast).mapError .system
    if !d.isDirAt place then .error (.system .notDirectory)
    else if last = ['.'] then .ok (place, .current)
    else if last = ['.', '.'] then .ok (place, .parent)
    else .ok (place, .name (String.ofList last))

def makeDir (p : Path) : Action Disk IoFailure Unit := fun d =>
  match d.findParent p with
  | .error e => (.error e, d)
  | .ok (place, .name name) =>
    if maxName < name.utf8ByteSize then (.error (.system .nameTooLong), d)
    else if (d.node? (place ++ [name])).isSome then (.error (.system .alreadyExists), d)
    else (.ok (), { d with nodes := d.nodes.insert (place ++ [name]) .dir })
  | .ok (_, _) => (.error (.system .alreadyExists), d)

/-- Makes the first of some directories, each the child of the next, and those after it that are
needed. A directory that is already there is as good as a new one. -/
def makeDirs : List Path → Action Disk IoFailure Unit
  | [] => pure ()
  | p :: above => do
    match ← (makeDir p).attempt with
    | .ok () => pure ()
    | .error (.system .noEntry) =>
      makeDirs above
      settle p (← (makeDir p).attempt)
    | .error e => settle p (.error e)
where
  /-- Accepts that the directory was already there. -/
  settle (p : Path) (outcome : Except IoFailure Unit) : Action Disk IoFailure Unit := fun d =>
    match outcome with
    | .error (.system .alreadyExists) =>
      if d.isDir p then (.ok (), d) else (.error (.system .alreadyExists), d)
    | outcome => (outcome, d)

/-- Opens a file for writing from its start, emptied when it was there; gives its identity. -/
def openForWriting (p : Path) : Action Disk IoFailure Nat := fun d =>
  match d.findParent p with
  | .error e => (.error e, d)
  | .ok (place, .name name) =>
    if endsWithSlash p then (.error (.system .isDirectory), d)
    else if maxName < name.utf8ByteSize then (.error (.system .nameTooLong), d)
    else
      match d.node? (place ++ [name]) with
      | some .dir => (.error (.system .isDirectory), d)
      | some (.file id _) =>
        (.ok id, { d with nodes := d.nodes.insert (place ++ [name]) (.file id []) })
      | none =>
        (.ok d.nextId, ⟨d.nodes.insert (place ++ [name]) (.file d.nextId []), d.nextId + 1⟩)
  | .ok (_, _) => (.error (.system .isDirectory), d)

def fileWithId? (d : Disk) (id : Nat) : Option (List String × Bytes) :=
  d.nodes.entries.findSome? fun e =>
    match e.2 with
    | .file i data => if i = id then some (e.1, data) else none
    | .dir => none

/-- Bytes written over others from a position on, with zeros up to it where there is nothing. -/
def overwrite (data : Bytes) (position : Nat) (bytes : Bytes) : Bytes :=
  data.take position ++ List.replicate (position - data.length) 0 ++ bytes ++
    data.drop (position + bytes.length)

/-- Writes into the file with an identity. A file without a name takes bytes that nobody sees. -/
def writeAt (id position : Nat) (bytes : Bytes) : Action Disk IoFailure Unit := fun d =>
  match d.fileWithId? id with
  | some (place, data) =>
    (.ok (), { d with nodes := d.nodes.insert place (.file id (overwrite data position bytes)) })
  | none => (.ok (), d)

def putFile (p : Path) (bytes : Bytes) : Action Disk IoFailure Unit := do
  let id ← openForWriting p
  writeAt id 0 bytes

def contents (d : Disk) (p : Path) : Except IoFailure Bytes := do
  match ← d.find p with
  | (_, .dir) => .error (.system .isDirectory)
  | (_, .file _ data) => .ok data

def removeBelow (d : Disk) (place : List String) : Disk :=
  { d with nodes := d.nodes.filter fun k _ => k = place || !place.isPrefixOf k }

def removeAt (d : Disk) (place : List String) : Disk := { d with nodes := d.nodes.erase place }

/-- Removes an empty directory, which the path has to name by its own name. -/
def removeDir (p : Path) : Action Disk IoFailure Unit := fun d =>
  match d.findParent p with
  | .error e => (.error e, d)
  | .ok (_, .top) => (.error (.system .busy), d)
  | .ok (_, .current) => (.error (.system .invalidArgument), d)
  | .ok (_, .parent) => (.error (.system .notEmpty), d)
  | .ok (place, .name name) =>
    match d.node? (place ++ [name]) with
    | none => (.error (.system .noEntry), d)
    | some (.file ..) => (.error (.system .notDirectory), d)
    | some .dir =>
      if (d.childrenAt (place ++ [name])).isEmpty then (.ok (), d.removeAt (place ++ [name]))
      else (.error (.system .notEmpty), d)

/-- Removes the directory that a path leads to with all that is below it. A path that has led
through something below the directory leads nowhere by then, and the emptied directory stays. -/
def removeTree (p : Path) : Action Disk IoFailure Unit := do
  let (place, _) ← Action.ofExcept ((← Action.world).find p)
  Action.change fun d => d.removeBelow place
  match ← (removeDir p).attempt with
  | .error (.system .noEntry) => pure ()
  | outcome => Action.ofExcept outcome

end Disk
end OffloadCheck
