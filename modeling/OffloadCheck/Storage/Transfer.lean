import OffloadCheck.Storage.FileSystem

/-!
Copying a file from one filesystem into another. The source is opened first and read only after the
destination has been created, so a disk file copied onto itself is found empty. Bytes read before a
failure have been written.
-/
namespace OffloadCheck

variable {σ : Type}

/-- Writes refills one after the other and counts their bytes from `copied` on. -/
def Writer.writeRefills (w : Writer σ) (copied : Nat) : List Refill → Action σ IoFailure Nat
  | [] => pure copied
  | r :: rs => do
    let w ← w.write r.bytes
    w.writeRefills (copied + r.bytes.length) rs

/-- Copies `src` on `source` to `dst` on `target` and says how many bytes were copied. -/
def FileSystem.transfer (source : FileSystem σ) (src : Path) (target : FileSystem σ) (dst : Path) :
    Action σ StorageError Nat := do
  let stream ← source.openFile src
  let w ← target.create dst
  let found := stream (← Action.world)
  Action.mapError .io do
    let copied ← w.writeRefills 0 found.refills
    match found.failure? with
    | some f => Action.fail f
    | none => pure copied

end OffloadCheck
