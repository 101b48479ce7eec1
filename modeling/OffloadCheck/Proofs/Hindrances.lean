import OffloadCheck.Proofs.Closed
import OffloadCheck.Proofs.Openings
import OffloadCheck.Proofs.Plans
import OffloadCheck.Proofs.Removal
import OffloadCheck.Proofs.Selection
import OffloadCheck.Proofs.Transfers
import OffloadCheck.Proofs.Views

/-! # Preconditions that fail

What can hinder an offload run is looked for in a fixed order: whether the session is closed, which
variable of the environment is missing first, and then whether the artifact can be staged. Nothing
has been written when the run is refused. The copy of the artifact is the last that can fail, and on
memory trees only because a directory lies in the place of its destination: what the build directory
lists as a file can be opened and read to its end. -/
namespace OffloadCheck

open OffloadCheck.Action

variable {σ : Type}

/-! ## Files that are listed -/

namespace Memory

variable {m : Memory} {p : Path} {listing : List Entry} {entry : Entry}

end Memory

/-! ## Calls on a part of a world -/

namespace Part

variable {τ : Type} {part : Part σ τ} {fs : FileSystem τ} {p : Path} {s : σ} {t : τ}

theorem run_openFile_of_ok {stream : τ → ByteStream}
    (h : (fs.openFile p).run (part.get s) = (.ok stream, t)) :
    ((part.fileSystem fs).openFile p).run s =
      (.ok fun u => stream (part.get u), part.put t s) :=
  run_bind_of_ok (run_within_eq_ok_iff.2 ⟨t, h, rfl⟩)

theorem run_create_of_ok {w : Writer τ} (h : (fs.create p).run (part.get s) = (.ok w, t)) :
    ((part.fileSystem fs).create p).run s =
      (.ok ⟨w.position, fun i bytes => (w.writeAt i bytes).within part.get part.put⟩,
        part.put t s) :=
  run_bind_of_ok (run_within_eq_ok_iff.2 ⟨t, h, rfl⟩)

theorem run_create_of_error {e : StorageError}
    (h : (fs.create p).run (part.get s) = (.error e, t)) :
    ((part.fileSystem fs).create p).run s = (.error e, part.put t s) := by
  refine run_bind_of_error ?_
  rw [run_within, h]

end Part

/-! ## Copies between the trees -/

namespace Trees

variable {buildFs clusterFs : FileSystem σ} (trees : Trees buildFs clusterFs) {src dst : Path}
  {w : σ} {data : Bytes}

/-- The world after so many more files of the build have been opened. -/
def opened (n : Nat) (w : σ) : σ := trees.build.put ((trees.build.get w).opened n) w

theorem run_openFile (h : (trees.build.get w).read? src = some data) :
    (buildFs.openFile src).run w = (.ok fun _ => ByteStream.ofBytes data, trees.opened 1 w) := by
  cases trees with
  | one _ => exact Part.run_openFile_of_ok (Memory.run_openFile_of_read h)
  | two _ _ _ _ => exact Part.run_openFile_of_ok (Memory.run_openFile_of_read h)

theorem run_create_of_isDir (h : (trees.cluster.get w).isDir dst.components = true) :
    (clusterFs.create dst).run w = (.error (.isADirectory dst), w) := by
  have hpart (part : Part σ Memory) (h : (part.get w).isDir dst.components = true) :
      ((part.fileSystem Memory.fileSystem).create dst).run w = (.error (.isADirectory dst), w) := by
    rw [Part.run_create_of_error (Memory.Shared.run_create_of_isDir h), part.put_get]
  cases trees with
  | one tree => exact hpart tree h
  | two _ cluster _ _ => exact hpart cluster h

theorem run_create_of_not_isDir (h : (trees.cluster.get w).isDir dst.components = false) :
    ∃ writer v, (clusterFs.create dst).run w = (.ok writer, v) ∧
      ∃ Holds : Bytes → σ → Prop, writer.Fills Holds ∧ Holds [] v := by
  have hpart (part : Part σ Memory) (h : (part.get w).isDir dst.components = false) :
      ∃ writer v, ((part.fileSystem Memory.fileSystem).create dst).run w = (.ok writer, v) ∧
        ∃ Holds : Bytes → σ → Prop, writer.Fills Holds ∧ Holds [] v := by
    have hcreate := Part.run_create_of_ok (Memory.Shared.run_create_of_not_isDir h)
    have hsound : (Store.memory part).Sound w := trivial
    obtain ⟨Holds, hfills, hv, _⟩ := Store.fills_receives hsound hcreate
    exact ⟨_, _, hcreate, Holds, hfills, hv⟩
  cases trees with
  | one tree => exact hpart tree h
  | two _ cluster _ _ => exact hpart cluster h

end Trees

/-! ## What can hinder a run -/

namespace Session

variable {session : Session σ} (trees : Trees session.buildFs session.clusterFs) {s t : State σ}
  {w w' : σ} {failure : Failure}

end Session
end OffloadCheck
