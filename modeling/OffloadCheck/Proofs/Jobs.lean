import OffloadCheck.Cluster.Rehearsal
import OffloadCheck.Proofs.Outputs

/-! # What a rehearsed job leaves

A job of a rehearsed cluster writes its part files one after the other and then the completion
marker. Into a vacant directory of a memory tree it so puts the files of its role and nothing else,
and nothing changes apart from that directory. -/
namespace OffloadCheck

open Job

namespace JobScript

variable {σ τ : Type}

/-- The files that a run of a role leaves: of parts of one name, the last one. -/
def contents (script : JobScript) (role : Role) : SortedMap String Bytes :=
  SortedMap.ofList ((script.altered role script.parts).map fun part => (part.name, part.data))

/-- Every run ends well and leaves a complete output, and jobs start from properties that leave
their role open. -/
structure Faithful (script : JobScript) : Prop where
  marker : script.writesMarker = true
  output : script.writesOutput = true
  exits : ∀ role, script.exitCode? role = none
  collector : script.base.get? Keys.outputCollector = none
  remoteMerge : script.base.get? Keys.remoteMerge = none
  names : ∀ role, ∀ part ∈ script.altered role script.parts,
    Path.IsPlain part.name ∧ part.name ≠ Entry.markerName

/-! ## Writing an output -/

theorem follows_writeParts {f : σ → τ} {fs : FileSystem σ} {gs : FileSystem τ}
    (h : fs.Follows f gs) (dir : Path) (parts : List PartFile) :
    Action.Follows f Eq (writeParts fs dir parts) (writeParts gs dir parts) := by
  induction parts with
  | nil => exact Action.follows_pure rfl
  | cons part parts ih =>
    refine (h.putFile (dir.join part.name) part.data).bind ?_
    intro _ _ _
    exact ih

theorem follows_writeOutput {f : σ → τ} {fs : FileSystem σ} {gs : FileSystem τ}
    (h : fs.Follows f gs) (script : JobScript) (role : Role) (dir : Path) :
    Action.Follows f Eq (script.writeOutput fs role dir) (script.writeOutput gs role dir) := by
  refine (follows_writeParts h dir _).bind ?_
  intro _ _ _
  split
  · exact h.putFile _ _
  · exact Action.follows_pure rfl

open Memory

/-- Puts a part file among files. -/
def putPart (files : SortedMap String Bytes) (part : PartFile) : SortedMap String Bytes :=
  files.insert part.name part.data

theorem contents_eq_foldl (script : JobScript) (role : Role) :
    script.contents role = (script.altered role script.parts).foldl putPart .empty := by
  rw [contents, SortedMap.ofList, List.foldl_map]
  rfl

theorem name_of_get?_foldl {parts : List PartFile} {files : SortedMap String Bytes} {name : String}
    {data : Bytes} (h : (parts.foldl putPart files).get? name = some data) :
    files.get? name = some data ∨ ∃ part ∈ parts, part.name = name := by
  induction parts generalizing files with
  | nil => exact .inl h
  | cons part parts ih =>
    rcases ih h with hfiles | ⟨other, hmem, hname⟩
    · rw [putPart, SortedMap.get?_insert] at hfiles
      split at hfiles
      · next heq =>
        exact .inr ⟨part, List.mem_cons_self, (Std.LawfulEqOrd.eq_of_compare heq).symm⟩
      · exact .inl hfiles
    · exact .inr ⟨other, List.mem_cons_of_mem _ hmem, hname⟩

theorem name_of_get?_contents {script : JobScript} {role : Role} {name : String} {data : Bytes}
    (h : (script.contents role).get? name = some data) :
    ∃ part ∈ script.altered role script.parts, part.name = name := by
  rw [contents_eq_foldl] at h
  rcases name_of_get?_foldl h with hempty | hpart
  · cases hempty
  · exact hpart

theorem run_putFile_join {m : Memory} {dir : Path} {files : SortedMap String Bytes}
    (hdir : dir.components ≠ []) (h : Fills m dir.components files) {name : String}
    (hname : Path.IsPlain name) (bytes : Bytes) :
    ∃ m', (fileSystem.putFile (dir.join name) bytes).run m = (.ok (), m') ∧
      Holds m' dir.components (files.insert name bytes) ∧ Grows dir.components m m' := by
  have hcomponents := Path.components_join_plain dir hname
  have hfree : m.isDir (dir.join name).components = false := by
    rw [hcomponents]
    exact h.below [.normal name] (by simp)
  obtain ⟨m', hrun, hputs⟩ := run_putFile hfree bytes
  rw [hcomponents] at hputs
  exact ⟨m', hrun, h.puts hdir hputs, hputs.grows⟩

theorem run_writeParts {m : Memory} {dir : Path} {files : SortedMap String Bytes}
    (hdir : dir.components ≠ []) (h : Fills m dir.components files) {parts : List PartFile}
    (hparts : ∀ part ∈ parts, Path.IsPlain part.name) :
    ∃ m', (writeParts fileSystem dir parts).run m = (.ok (), m') ∧
      Fills m' dir.components (parts.foldl putPart files) ∧ Grows dir.components m m' := by
  induction parts generalizing m files with
  | nil => exact ⟨m, rfl, h, .refl _ m⟩
  | cons part parts ih =>
    obtain ⟨hpart, hrest⟩ := List.forall_mem_cons.1 hparts
    obtain ⟨m₁, hrun, hholds, hgrows⟩ := run_putFile_join hdir h hpart part.data
    obtain ⟨m₂, hrun', hfills, hgrows'⟩ := ih hholds.toFills hrest
    refine ⟨m₂, ?_, hfills, hgrows.trans hgrows'⟩
    rw [writeParts, Action.run_bind_of_ok hrun, hrun']

/-- A run leaves the files of its role in its directory and touches nothing else. -/
theorem Faithful.run_writeOutput {script : JobScript} (h : script.Faithful) (role : Role)
    {m : Memory} {dir : Path} (hdir : dir.components ≠ []) (hvacant : Vacant m dir.components) :
    ∃ m', (script.writeOutput fileSystem role dir).run m = (.ok (), m') ∧
      HasOutput m' dir (script.contents role) ∧ Grows dir.components m m' := by
  obtain ⟨m₁, hparts, hfills, hgrows⟩ := run_writeParts hdir hvacant.fills
    fun part hpart => (h.names role part hpart).1
  rw [← contents_eq_foldl] at hfills
  obtain ⟨m₂, hmarker, hholds, hgrows'⟩ :=
    run_putFile_join hdir hfills Path.isPlain_markerName []
  refine ⟨m₂, ?_, ⟨hholds, ?_, ?_⟩, hgrows.trans hgrows'⟩
  · rw [writeOutput, Action.run_bind_of_ok hparts, if_pos h.marker]
    exact hmarker
  · intro name data hname
    obtain ⟨part, hmem, rfl⟩ := name_of_get?_contents hname
    exact (h.names role part hmem).1
  · refine Option.eq_none_iff_forall_not_mem.2 ?_
    intro data hdata
    obtain ⟨part, hmem, hname⟩ := name_of_get?_contents hdata
    exact (h.names role part hmem).2 hname

/-- A submission into a vacant directory ends well and leaves the output of its role. -/
theorem Faithful.run_submit {script : JobScript} (h : script.Faithful) (memory : Part σ Memory)
    {note : (ClusterLog → ClusterLog) → σ → σ}
    (hnote : ∀ f s, memory.get (note f s) = memory.get s) (workload : Workload)
    {properties : Properties} {dir : Path}
    (hproperties : properties.get? Keys.outputDir = some dir.text) (hdir : dir.components ≠ [])
    {s : σ} (hvacant : Vacant (memory.get s) dir.components) :
    ∃ t, ((script.cluster (memory.fileSystem fileSystem) note).submit properties workload).run s =
        (.ok ⟨0, properties⟩, t) ∧
      HasOutput (memory.get t) dir (script.contents properties.role) ∧
      Grows dir.components (memory.get s) (memory.get t) := by
  obtain ⟨u, hu⟩ : ∃ u, u = note (fun log => { log with
    submissions := log.submissions ++ [⟨properties.role, workload, properties⟩] }) s := ⟨_, rfl⟩
  have hsame : memory.get u = memory.get s := by rw [hu, hnote]
  obtain ⟨m', hwrite, houtput, hgrows⟩ :=
    h.run_writeOutput properties.role hdir (hsame ▸ hvacant)
  have hrun := memory.run_eq (s := u) (follows_writeOutput (memory.follows_fileSystem fileSystem u)
    script properties.role dir)
  rw [hwrite] at hrun
  refine ⟨memory.put m' u, ?_, ?_, ?_⟩
  · have hperform : (script.perform (memory.fileSystem fileSystem) properties).run u =
        (.ok ⟨0, properties⟩, memory.put m' u) := by
      simp only [perform, h.exits, h.output, hproperties, if_true]
      exact Action.run_bind_of_ok (Action.run_mapError_of_ok hrun Failure.storage)
    rw [hu] at hperform ⊢
    exact (Action.run_bind_of_ok (Action.run_change _ s)).trans hperform
  · rw [memory.get_put]
    exact houtput
  · rw [memory.get_put, ← hsame]
    exact hgrows

end JobScript

end OffloadCheck
