import OffloadCheck.Storage.FileSystem
import OffloadCheck.SortedMap

/-!
A tree of files kept in memory. Files and directories are two maps by location; a directory is there
because it was added or because something was put below it. A file remembers the path under which it
was first put, and the number of successful opens is counted. The names in a tree may be of any kind
that paths are given in; a listing tells them as they are shown.
-/
namespace OffloadCheck

structure StoredFile (ν : Type := String) where
  /-- The path under which the file was first put. -/
  path : Path ν
  data : Bytes
deriving DecidableEq, Repr

structure Memory (ν : Type := String) [Ord ν] [Inhabited ν] where
  files : SortedMap (Location ν) (StoredFile ν)
  dirs : SortedMap (Location ν) Unit
  opens : Nat

namespace Memory

variable {ν : Type} [Ord ν] [Inhabited ν]

instance [DecidableEq ν] : DecidableEq (Memory ν) := fun a b =>
  if h : a.files = b.files ∧ a.dirs = b.dirs ∧ a.opens = b.opens then
    .isTrue (by cases a; cases b; cases h.1; cases h.2.1; cases h.2.2; rfl)
  else
    .isFalse fun e => h (by rw [e]; exact ⟨rfl, rfl, rfl⟩)

def empty : Memory ν := ⟨.empty, .empty, 0⟩

def file? (m : Memory ν) (l : Location ν) : Option (StoredFile ν) := m.files.get? l

def isDir (m : Memory ν) (l : Location ν) : Bool := m.dirs.contains l

/-- The remembered paths of all files, in the order of their locations. -/
def filePaths (m : Memory ν) : List (Path ν) := m.files.entries.map (·.2.path)

variable [DecidableEq ν]

def isPopulated (m : Memory ν) (l : Location ν) : Bool :=
  m.files.keys.any (·.isWithin l) || m.dirs.keys.any fun d => d != l && d.isWithin l

def without (m : Memory ν) (l : Location ν) : Memory ν :=
  { m with
    files := m.files.filter fun k _ => !k.isWithin l
    dirs := m.dirs.filter fun k _ => !k.isWithin l }

variable [PathText ν]

def read? (m : Memory ν) (p : Path ν) : Option Bytes := (m.file? p.components).map (·.data)

/-- The direct children of a location, files first. -/
def children (m : Memory ν) (l : Location ν) : List Entry :=
  let name? (child : Location ν) : Option ν :=
    if child.parent? = some l then child.fileName? else none
  m.files.entries.filterMap (fun e =>
      (name? e.1).map fun n => Entry.file (PathText.shown n) e.2.data.length) ++
    m.dirs.entries.filterMap (fun e => (name? e.1).map fun n => Entry.dir (PathText.shown n))

def list (m : Memory ν) (p : Path ν) : Except (StorageError ν) (List Entry) :=
  if (m.file? p.components).isSome then .error (.notADirectory p)
  else if m.isDir p.components then .ok (m.children p.components)
  else .error (.notFound p)

def missing (m : Memory ν) (p : Path ν) : StorageError ν :=
  if m.isDir p.components then .isADirectory p else .notFound p

variable [Std.TransOrd ν]

def withAncestors (m : Memory ν) (l : Location ν) : Memory ν :=
  { m with dirs := l.ancestors.foldl (fun dirs a => dirs.insert a ()) m.dirs }

/-- The tree with a file at a path; an older file there lends its remembered path. -/
def withFile (m : Memory ν) (p : Path ν) (data : Bytes) : Memory ν :=
  let path := ((m.file? p.components).map (·.path)).getD p
  { m with files := m.files.insert p.components ⟨path, data⟩ }

def addFile (m : Memory ν) (p : Path ν) (data : Bytes) : Memory ν :=
  (m.withAncestors p.components).withFile p data

def addDir (m : Memory ν) (p : Path ν) : Memory ν :=
  let m := m.withAncestors p.components
  { m with dirs := m.dirs.insert p.components () }

def append (p : Path ν) (bytes : Bytes) : Action (Memory ν) IoFailure Unit := fun m =>
  match m.file? p.components with
  | some f =>
    (.ok (), { m with files := m.files.insert p.components { f with data := f.data ++ bytes } })
  | none => (.error (.deletedWhileOpen (PathText.shown p.text)), m)

/-- The memory tree as a filesystem. What an open file yields is fixed when it is opened, and every
writer appends. -/
def fileSystem : FileSystem (Memory ν) ν where
  list p := fun m => (m.list p, m)
  openFile p := fun m =>
    match m.file? p.components with
    | some f => (.ok fun _ => ByteStream.ofBytes f.data, { m with opens := m.opens + 1 })
    | none => (.error (m.missing p), m)
  create p := fun m =>
    if m.isDir p.components then (.error (.isADirectory p), m)
    else (.ok ⟨0, fun _ bytes => append p bytes⟩, m.addFile p [])
  copy src dst := fun m =>
    match m.file? src.components with
    | some f => (.ok (), m.addFile dst f.data)
    | none => (.error (m.missing src), m)
  delete p recursive := fun m =>
    let l := p.components
    if (m.file? l).isSome then (.ok true, { m with files := m.files.erase l })
    else if !m.isDir l then (.ok false, m)
    else if m.isPopulated l && !recursive then (.error (.directoryNotEmpty p), m)
    else (.ok true, m.without l)
  isPresent p m := (m.file? p.components).isSome || m.isDir p.components

end Memory
end OffloadCheck
