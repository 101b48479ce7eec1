import OffloadCheck.Proofs.Disks
import OffloadCheck.Proofs.Preconditions

/-! # Memory trees and disks in a world

The files of a session are kept in a memory tree or on a disk, which is a part of the world. -/
namespace OffloadCheck

variable {σ : Type}

/-- Where files are kept: in a memory tree, or on a disk as one of its filesystems. -/
inductive Store (σ : Type)
  | memory (part : Part σ Memory)
  | disk (part : Part σ Disk) (store : LocalStore)

namespace Store

def fileSystem : Store σ → FileSystem σ
  | .memory part => part.fileSystem Memory.fileSystem
  | .disk part store => part.fileSystem store.fileSystem

/-- The tree or the disk is the same in two worlds. -/
def Untouched : Store σ → σ → σ → Prop
  | .memory part, s, t => part.get t = part.get s
  | .disk part _, s, t => part.get t = part.get s

theorem lasting_fileSystem (store : Store σ) : store.fileSystem.Lasting := by
  cases store with
  | memory part => exact Memory.lasting_fileSystem.part part
  | disk part store => exact store.lasting_fileSystem.part part

theorem isPresent_of_untouched {store : Store σ} {s t : σ} (h : store.Untouched s t) (p : Path) :
    store.fileSystem.isPresent p t = store.fileSystem.isPresent p s := by
  cases store with
  | memory part => exact congrArg (Memory.fileSystem.isPresent p) h
  | disk part store => exact congrArg (store.fileSystem.isPresent p) h

end Store
end OffloadCheck
