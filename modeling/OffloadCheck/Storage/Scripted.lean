import OffloadCheck.Storage.FileSystem

/-!
Filesystems for trials: one that answers from a script, and one that refuses chosen calls.
-/
namespace OffloadCheck

structure ScriptedFile where
  data : Bytes
  /-- The most bytes that one read delivers. -/
  chunk : Nat
  /-- Where a read fails; a place beyond the end is never reached. -/
  failAt : Option Nat
deriving DecidableEq, Repr

def ScriptedFile.stream (f : ScriptedFile) : ByteStream :=
  match f.failAt with
  | none => ⟨Refill.cut f.chunk f.data, none⟩
  | some n =>
    if n ≤ f.data.length then
      ⟨Refill.cut f.chunk (f.data.take n), some (.other "scripted read failure")⟩
    else ⟨Refill.cut f.chunk f.data, none⟩

/-- Listings and files by the exact text of their path. -/
structure Script where
  listings : List (String × List Entry)
  files : List (String × ScriptedFile)
deriving DecidableEq, Repr, Inhabited

/-- The script as a filesystem: it lists and opens, and has nothing to change. -/
def Script.fileSystem {σ : Type} (script : Script) : FileSystem σ where
  list p := Action.ofExcept ((script.listings.lookup p.text).elim (.error (.notFound p)) .ok)
  openFile p := Action.ofExcept ((script.files.lookup p.text).elim (.error (.notFound p))
    fun f => .ok fun _ => f.stream)
  create p := Action.fail (.notFound p)
  copy src _ := Action.fail (.notFound src)
  delete _ _ := pure false
  isPresent _ _ := false

inductive Call
  | list
  | openFile
  | create
  | copy
  | delete
deriving DecidableEq, Repr

def Call.name : Call → String
  | .list => "list_status"
  | .openFile => "open"
  | .create => "create"
  | .copy => "copy"
  | .delete => "delete"

/-- The filesystem with the given calls failing before they do anything. -/
def FileSystem.refusing {σ : Type} (calls : List Call) (fs : FileSystem σ) : FileSystem σ where
  list p := guarded .list (fs.list p)
  openFile p := guarded .openFile (fs.openFile p)
  create p := guarded .create (fs.create p)
  copy src dst := guarded .copy (fs.copy src dst)
  delete p recursive := guarded .delete (fs.delete p recursive)
  isPresent := fs.isPresent
where
  guarded {α : Type} (call : Call) (x : Action σ StorageError α) : Action σ StorageError α :=
    if calls.contains call then
      Action.fail (.io (.other ("injected " ++ call.name ++ " failure")))
    else x

end OffloadCheck
