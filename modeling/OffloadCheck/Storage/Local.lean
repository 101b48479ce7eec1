import OffloadCheck.Path.Rooted
import OffloadCheck.Storage.Disk
import OffloadCheck.Storage.FileSystem

/-!
A disk as a filesystem. With a root every path is resolved beneath it; without one paths are used as
given. Messages show the path that was asked for. A missing entry is reported as such by the calls
that read; the calls that create report what the system says.
-/
namespace OffloadCheck

structure LocalStore where
  /-- Where paths are resolved, if they are. -/
  root : Option Path
deriving DecidableEq, Repr

namespace LocalStore

def resolve (s : LocalStore) (p : Path) : Path :=
  match s.root with
  | none => p
  | some root => p.resolveUnder root

/-- Makes the directory that a physical path names, with those above it that are not there. The path
itself is used as given, so one that ends with `.` asks for a directory that is there already. -/
def makeDirs (physical : Path) : Action Disk IoFailure Unit := Disk.makeDirs physical.upward

def makeParents (physical : Path) : Action Disk IoFailure Unit :=
  match physical.parent? with
  | none => pure ()
  | some parent => makeDirs parent

/-- Runs a step that looks at the disk only. -/
def look (f : Disk → Except IoFailure α) : Action Disk IoFailure α := fun d => (f d, d)

def entryOf : String × DiskNode → Entry
  | (name, .dir) => Entry.dir name
  | (name, .file _ data) => Entry.file name data.length

def fileSystem (s : LocalStore) : FileSystem Disk where
  list p := do
    match ← (look fun d => d.find (s.resolve p)).mapError (StorageError.ofIo p) with
    | (_, .file ..) => Action.fail (.notADirectory p)
    | (place, .dir) => return ((← Action.world).childrenAt place).map entryOf
  openFile p := do
    let physical := s.resolve p
    if (← Action.world).isDir physical then Action.fail (.isADirectory p)
    else
      match ← (look fun d => d.find physical).mapError (StorageError.ofIo p) with
      | (_, .dir) => Action.fail (.isADirectory p)
      | (_, .file id data) =>
        pure fun d => ByteStream.ofBytes (((d.fileWithId? id).map (·.2)).getD data)
  create p := Action.mapError .io do
    let physical := s.resolve p
    makeParents physical
    let id ← Disk.openForWriting physical
    pure ⟨0, fun position bytes => Disk.writeAt id position bytes⟩
  copy src dst := do
    let source := s.resolve src
    if (← Action.world).isDir source then Action.fail (.isADirectory src)
    else
      let target := s.resolve dst
      (makeParents target).mapError .io
      Action.mapError (StorageError.ofIo src) do
        match ← look fun d => d.find source with
        | (_, .dir) => Action.fail .notRegularFile
        | (_, .file sourceId data) =>
          let id ← Disk.openForWriting target
          let bytes := (((← Action.world).fileWithId? sourceId).map (·.2)).getD data
          Disk.writeAt id 0 bytes
  delete p recursive := do
    let physical := s.resolve p
    match (← Action.world).find physical with
    | .error (.system .noEntry) => pure false
    | .error e => Action.fail (.io e)
    | .ok (place, .file ..) =>
      Action.change fun d => d.removeAt place
      pure true
    | .ok (place, .dir) =>
      if recursive then
        (Disk.removeTree physical).mapError .io
        pure true
      else if !((← Action.world).childrenAt place).isEmpty then
        Action.fail (.directoryNotEmpty p)
      else
        (Disk.removeDir physical).mapError .io
        pure true
  isPresent p d := d.isPresent (s.resolve p)

end LocalStore
end OffloadCheck
