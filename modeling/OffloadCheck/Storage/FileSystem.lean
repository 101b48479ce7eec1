import OffloadCheck.Action
import OffloadCheck.Output.ByteStream
import OffloadCheck.Output.Manifest

/-!
What the check asks of storage. A filesystem is a record of steps over some world, so the same
comparison runs on memory, on disk or on anything that answers these calls. An opened file is read
against the world of the moment of reading; an opened writer keeps its own position.
-/
namespace OffloadCheck

/-- A file open for writing. -/
structure Writer (σ : Type) where
  /-- How many bytes have been written through this writer. -/
  position : Nat
  /-- Writes bytes, at a position where the storage has positions. -/
  writeAt : Nat → Bytes → Action σ IoFailure Unit

/-- Writes bytes behind those written before; no bytes never touch the file. -/
def Writer.write (w : Writer σ) (bytes : Bytes) : Action σ IoFailure (Writer σ) :=
  if bytes.isEmpty then pure w
  else do
    w.writeAt w.position bytes
    pure { w with position := w.position + bytes.length }

/-- The calls that a filesystem answers. -/
structure FileSystem (σ : Type) (ν : Type := String) where
  list : Path ν → Action σ (StorageError ν) (List Entry)
  /-- Opens a file; what is read depends on the world at that time. -/
  openFile : Path ν → Action σ (StorageError ν) (σ → ByteStream)
  /-- Creates or empties a file, with the directories above it. -/
  create : Path ν → Action σ (StorageError ν) (Writer σ)
  copy : Path ν → Path ν → Action σ (StorageError ν) Unit
  /-- Deletes a file or directory and says whether there was one. -/
  delete : (path : Path ν) → (recursive : Bool) → Action σ (StorageError ν) Bool
  isPresent : Path ν → σ → Bool

namespace FileSystem

variable {σ τ ν : Type}

def putFile (fs : FileSystem σ ν) (path : Path ν) (bytes : Bytes) :
    Action σ (StorageError ν) Unit := do
  let w ← fs.create path
  discard (w.write bytes |>.mapError StorageError.io)

def contents (fs : FileSystem σ ν) (path : Path ν) : Action σ (StorageError ν) Bytes := do
  let stream ← fs.openFile path
  Action.ofExcept (((stream (← Action.world)).readAll).mapError StorageError.io)

def manifest (fs : FileSystem σ ν) (dir : Path ν) : Action σ (StorageError ν) Manifest :=
  Manifest.ofListing <$> fs.list dir

/-- A filesystem that lives in a part of a larger world. -/
def within (get : σ → τ) (put : τ → σ → σ) (fs : FileSystem τ ν) : FileSystem σ ν where
  list p := (fs.list p).within get put
  openFile p := do
    let stream ← (fs.openFile p).within get put
    pure fun s => stream (get s)
  create p := do
    let w ← (fs.create p).within get put
    pure ⟨w.position, fun i bytes => (w.writeAt i bytes).within get put⟩
  copy src dst := (fs.copy src dst).within get put
  delete p r := (fs.delete p r).within get put
  isPresent p s := fs.isPresent p (get s)

end FileSystem
end OffloadCheck
