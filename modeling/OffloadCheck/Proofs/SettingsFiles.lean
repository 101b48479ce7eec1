import OffloadCheck.Proofs.Copies
import OffloadCheck.Proofs.Encoding
import OffloadCheck.Proofs.TomlDocuments
import OffloadCheck.Settings.File

/-! # Settings files

The text of settings is read as these settings whatever their texts are made of, and a file that can
be written holds what was written. So saved settings are loaded again, and settings that no document
can hold leave the disk as it was. -/
namespace OffloadCheck

open OffloadCheck.Action OffloadCheck.Toml

/-! ## Files that can be written -/

namespace Disk

variable {d : Disk} {p : Path}

/-- A path that names something in a directory which is no directory itself. -/
def Writable (d : Disk) (p : Path) : Prop :=
  ∃ place name, d.findParent p = .ok (place, .name name) ∧ endsWithSlash p = false ∧
    name.utf8ByteSize ≤ maxName ∧ d.isDirAt (place ++ [name]) = false

theorem Writable.run_openForWriting (h : d.Writable p) :
    ∃ id d', (openForWriting p).run d = (.ok id, d') := by
  obtain ⟨place, name, hparent, hslash, hname, hdir⟩ := h
  simp only [Action.run, openForWriting, hparent, hslash]
  rw [if_neg (by decide), if_neg (Nat.not_lt.2 hname)]
  split
  · next hnode =>
    rw [isDirAt_iff.2 hnode] at hdir
    cases hdir
  · exact ⟨_, _, rfl⟩
  · exact ⟨_, _, rfl⟩

/-- On a sound disk a file that was opened for writing takes what is written into it. -/
theorem Sound.run_writeAt_of_empties (hd : d.Sound) {place : List String} {id : Nat} {u : Disk}
    (hempties : Empties d place id u) (hfind : u.find p = .ok (place, .file id []))
    (bytes : Bytes) : ∃ d', (writeAt id 0 bytes).run u = (.ok (), d') ∧
      Written d p place id bytes d' := by
  have hunchanged : Extends d d := ⟨hd, .refl d, fun _ _ _ => Iff.rfl⟩
  obtain ⟨_, _, hnode, _⟩ := find_eq_ok_iff.1 hfind
  have hwrite := (hd.empties hempties).run_writeAt hnode 0 bytes
  rw [← List.length_nil (α := UInt8), overwrite_length, List.nil_append] at hwrite
  exact ⟨_, hwrite, (written_empties hunchanged hempties hfind).put bytes⟩

/-- What is put into a file that can be written is what it holds. -/
theorem run_putFile (hd : d.Sound) (h : d.Writable p) (bytes : Bytes) :
    ∃ d', (putFile p bytes).run d = (.ok (), d') ∧ d'.contents p = .ok bytes := by
  obtain ⟨id, u, hopen⟩ := h.run_openForWriting
  rcases Disk.run_openForWriting p d with ⟨e, hrun⟩ | ⟨parent, name, i, v, _, hrun, hempties, hfind⟩
  · rw [hopen] at hrun
    cases hrun
  · rw [hopen] at hrun
    cases hrun
    obtain ⟨d', hwrite, hwritten⟩ := hd.run_writeAt_of_empties hempties hfind bytes
    refine ⟨d', (run_bind_of_ok hopen).trans hwrite, ?_⟩
    rw [contents, hwritten.leads]
    rfl

end Disk

/-! ## Settings as text -/

namespace Settings

theorem maxInteger_eq : maxInteger = 9223372036854775807 := rfl

theorem fitsInt64_of_le {n : Nat} (h : n ≤ maxInteger) : Text.FitsInt64 n := by
  have hmin : Int64.minValue.toInt = -9223372036854775808 := rfl
  have hmax : Int64.maxValue.toInt = 9223372036854775807 := rfl
  rw [maxInteger_eq] at h
  rw [Text.FitsInt64, hmin, hmax]
  omega

theorem fitsInt64_uint32 (n : UInt32) : Text.FitsInt64 n.toNat :=
  fitsInt64_of_le (Nat.le_trans (Nat.le_of_lt n.toNat_lt) (by decide))

/-- The lines of a document that stand above its table. -/
def topLines (s : Settings) : List (String × Line) :=
  [("artifact_dir", .text s.artifactDir.text), ("artifact_prefix", .text s.artifactPrefix),
    ("shared_artifact_dir", .text s.sharedArtifactDir.text),
    ("output_root", .text s.outputRoot.text), ("staging_dir", .text s.stagingDir),
    ("max_application_priority", .integer s.maxApplicationPriority.toNat),
    ("resources_dir", .text s.resourcesDir.text),
    ("remote_storage_uri", .text s.remoteStorageUri),
    ("reduce_direct_memory_bytes", .integer s.reduceDirectMemory.toNat),
    ("required_env", .texts s.requiredEnv)]

def sizeLines (r : ResourceSizes) : List (String × Line) :=
  [("map_memory_mb", .integer r.mapMemory.toNat),
    ("reduce_memory_mb", .integer r.reduceMemory.toNat),
    ("sort_buffer_mb", .integer r.sortBuffer.toNat)]

theorem keys_topLines (s : Settings) : s.topLines.map Prod.fst =
    ["artifact_dir", "artifact_prefix", "shared_artifact_dir", "output_root", "staging_dir",
      "max_application_priority", "resources_dir", "remote_storage_uri",
      "reduce_direct_memory_bytes", "required_env"] :=
  rfl

theorem keys_sizeLines (r : ResourceSizes) :
    (sizeLines r).map Prod.fst = ["map_memory_mb", "reduce_memory_mb", "sort_buffer_mb"] :=
  rfl

theorem render?_eq {s : Settings} (h : s.reduceDirectMemory.toNat ≤ maxInteger) :
    s.render? = some (Toml.render s.topLines "resources" (sizeLines s.resources)) :=
  if_neg (Nat.not_lt.2 h)

theorem topLines_fit {s : Settings} (h : s.reduceDirectMemory.toNat ≤ maxInteger) :
    ∀ l ∈ s.topLines, IsBareKey l.1 ∧ l.2.Fits := by
  have hkeys : ∀ key ∈ s.topLines.map Prod.fst, IsBareKey key := by
    rw [keys_topLines]
    decide
  refine fun l hl => ⟨hkeys _ (List.mem_map_of_mem hl), ?_⟩
  have hfits := fitsInt64_of_le h
  have hpriority := fitsInt64_uint32 s.maxApplicationPriority
  revert l
  simp [topLines, Line.Fits, hfits, hpriority]

theorem sizeLines_fit (r : ResourceSizes) : ∀ l ∈ sizeLines r, IsBareKey l.1 ∧ l.2.Fits := by
  have hkeys : ∀ key ∈ (sizeLines r).map Prod.fst, IsBareKey key := by
    rw [keys_sizeLines]
    decide
  refine fun l hl => ⟨hkeys _ (List.mem_map_of_mem hl), ?_⟩
  revert l
  simp [sizeLines, Line.Fits, fitsInt64_uint32]

theorem natBelow?_integer {bound n : Nat} (h : n < bound) :
    Value.natBelow? bound (.integer n) = some n :=
  if_pos ⟨Int.natCast_nonneg n, Int.ofNat_lt.2 h⟩

theorem uint32?_integer (n : UInt32) : Value.uint32? (.integer n.toNat) = some n := by
  rw [Value.uint32?, natBelow?_integer n.toNat_lt, Option.map_some, UInt32.ofNat_toNat]

theorem uint64?_integer (n : UInt64) : Value.uint64? (.integer n.toNat) = some n := by
  rw [Value.uint64?, natBelow?_integer n.toNat_lt, Option.map_some, UInt64.ofNat_toNat]

theorem strings?_array (ss : List String) : Value.strings? (.array (ss.map .string)) = some ss := by
  rw [Value.strings?]
  induction ss with
  | nil => rfl
  | cons s ss ih =>
    rw [List.map_cons, List.mapM_cons, ih]
    rfl

theorem sizes_ofToml? (r : ResourceSizes) :
    ResourceSizes.ofToml? (.table ((sizeLines r).map fun l => (l.1, l.2.toValue))) = some r := by
  simp [ResourceSizes.ofToml?, sizeLines, Line.toValue, memberOr, List.lookup_cons, uint32?_integer]

theorem ofToml?_lines {s : Settings} {sizes : Value}
    (h : ResourceSizes.ofToml? sizes = some s.resources) :
    ofToml? (s.topLines.map (fun l => (l.1, l.2.toValue)) ++ [("resources", sizes)]) = some s := by
  simp [ofToml?, topLines, Line.toValue, memberOr, List.lookup_cons, pathOfToml?, Value.string?,
    uint32?_integer, uint64?_integer, strings?_array, h]

/-- The text of settings is read as them. -/
theorem read?_render {s : Settings} (h : s.reduceDirectMemory.toNat ≤ maxInteger) :
    ∃ text, s.render? = some text ∧ read? text = some s := by
  refine ⟨_, render?_eq h, ?_⟩
  rw [read?, parse?_render (topLines_fit h) (by decide) (sizeLines_fit _), Option.bind_some]
  · exact ofToml?_lines (sizes_ofToml? s.resources)
  · simp only [topLines, List.map_cons, List.map_nil]
    decide
  · simp only [topLines, List.map_cons, List.map_nil]
    decide
  · simp only [sizeLines, List.map_cons, List.map_nil]
    decide

/-- Accepted settings that a document can hold are loaded from the file they were saved to. Others
that no document can hold are refused before anything is written. -/
theorem load_after_save (s : Settings) (p : Path) {d : Disk} (hd : d.Sound) :
    (s.validate = .ok () → s.reduceDirectMemory.toNat ≤ maxInteger → d.Writable p →
      ∃ d', (s.save p).run d = (.ok (), d') ∧ load p d' = .ok s) ∧
    (maxInteger < s.reduceDirectMemory.toNat →
      (s.save p).run d = (.error (.configuration "Failed to serialize config"), d)) := by
  refine ⟨fun hvalid hmemory hp => ?_, fun hmemory => ?_⟩
  · obtain ⟨text, htext, hread⟩ := read?_render hmemory
    obtain ⟨d', hrun, hcontents⟩ := Disk.run_putFile hd hp (Text.encode text)
    refine ⟨d', ?_, ?_⟩
    · rw [save, htext]
      exact run_mapError_of_ok hrun _
    · have htext : readText p d' = .ok text := by
        rw [readText, hcontents]
        simp [bind, Except.bind, Text.decode?_encode]
      rw [load, htext]
      simp only [parse, hread, hvalid]
      rfl
  · have hnone : s.render? = none := if_pos hmemory
    rw [save, hnone]
    rfl

/-- Settings with quotes, line ends and a control character on an empty disk. -/
theorem load_after_save_quotes :
    let s : Settings := { default with
      artifactPrefix := "a'''b\"\"\"\\\n\x7f", outputRoot := ⟨"/it's\t#[out]"⟩
      requiredEnv := [], reduceDirectMemory := 9223372036854775807 }
    let t : Settings := { s with reduceDirectMemory := 9223372036854775808 }
    (∃ d, (s.save ⟨fileName⟩).run .empty = (.ok (), d) ∧ load ⟨fileName⟩ d = .ok s) ∧
      (t.save ⟨fileName⟩).run .empty =
        (.error (.configuration "Failed to serialize config"), .empty) := by
  intro s t
  have hvalid : s.validate = .ok () := (validate_eq_ok_iff s).2 (by decide)
  have hwritable : Disk.Writable .empty ⟨fileName⟩ :=
    ⟨[], fileName, rfl, by decide, by decide, by decide⟩
  exact ⟨(load_after_save s ⟨fileName⟩ Disk.sound_empty).1 hvalid (by decide) hwritable,
    (load_after_save t ⟨fileName⟩ Disk.sound_empty).2 (by decide)⟩

end Settings
end OffloadCheck
