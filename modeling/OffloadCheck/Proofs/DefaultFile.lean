import OffloadCheck.Proofs.SettingsFiles

/-! # The file of commented defaults

The commented defaults are read as the defaults, and so is an empty text. A file for them is made
only where nothing is, where the defaults count anyway; so writing it changes nothing of what is
loaded, and writing it again changes nothing at all. -/
namespace OffloadCheck

open OffloadCheck.Action

/-! ## Files made where nothing is -/

namespace Disk

variable {d d' : Disk} {p : Path} {place : List String} {id : Nat} {data : Bytes}

/-- What cannot be written is refused before anything changes. -/
theorem run_putFile_of_not_writable (h : ¬ d.Writable p) (bytes : Bytes) :
    ∃ e, (putFile p bytes).run d = (.error e, d) := by
  have hopen : ∃ e, (openForWriting p).run d = (.error e, d) := by
    simp only [Action.run, openForWriting]
    split
    · exact ⟨_, rfl⟩
    · next place name hparent =>
      split
      · exact ⟨_, rfl⟩
      · next hslash =>
        split
        · exact ⟨_, rfl⟩
        · next hname =>
          have hdir : d.isDirAt (place ++ [name]) = true := by
            by_contra hdir
            exact h ⟨place, name, hparent, Bool.eq_false_iff.2 hslash, Nat.not_lt.1 hname,
              Bool.eq_false_iff.2 hdir⟩
          rw [isDirAt_iff.1 hdir]
          exact ⟨_, rfl⟩
    · exact ⟨_, rfl⟩
  obtain ⟨e, hrun⟩ := hopen
  exact ⟨e, run_bind_of_error hrun⟩

/-- A file is made where a path that can be written leads to nothing. -/
theorem Writable.run_openForWriting_of_absent (h : d.Writable p) (habsent : d.isPresent p = false) :
    ∃ place id d', d.node? place = none ∧ (openForWriting p).run d = (.ok id, d') ∧
      Empties d place id d' ∧ d'.find p = .ok (place, .file id []) := by
  obtain ⟨parent, name, hparent, hslash, hname, _⟩ := h
  have hleads := findParent_eq_ok hparent
  have hnone : d.node? (parent ++ [name]) = none := by
    cases hnode : d.node? (parent ++ [name]) with
    | none => rfl
    | some node =>
      have hfind := hleads.find hname hslash (.refl d) hnode
      rw [isPresent_iff.2 ⟨_, _, hfind⟩] at habsent
      cases habsent
  have hempties := Empties.fresh (List.concat_ne_nil _ _) hnone
  refine ⟨_, _, _, hnone, ?_, hempties, hleads.find hname hslash hempties.grows ?_⟩
  · simp only [Action.run, openForWriting, hparent, hslash, hnone]
    rw [if_neg (by decide), if_neg (Nat.not_lt.2 hname)]
  · rw [hempties.node?, if_pos rfl]

/-- On a disk that has grown a path leads to the file that lies where it led. -/
theorem Grows.find_file (h : Grows d d') (hfind : d.find p = .ok (place, .file id data)) {i : Nat}
    {b : Bytes} (hnode : d'.node? place = some (.file i b)) :
    d'.find p = .ok (place, .file i b) := by
  obtain ⟨hcheck, hwalk, _, hslash⟩ := find_eq_ok_iff.1 hfind
  exact find_eq_ok_iff.2 ⟨hcheck, h.walk hwalk, hnode, fun hs => by cases hslash hs⟩

/-- Writing into an empty file leaves it with the bytes, or empty if another file has its identity. -/
theorem find_run_writeAt (hfind : d.find p = .ok (place, .file id [])) (bytes : Bytes) :
    ∃ data d', (writeAt id 0 bytes).run d = (.ok (), d') ∧
      d'.find p = .ok (place, .file id data) ∧ (data = bytes ∨ data = []) := by
  rcases run_writeAt id 0 bytes d with hrun | ⟨q, data, hfile, hrun⟩
  · exact ⟨[], d, hrun, hfind, .inr rfl⟩
  · have hgrows : Grows d (d.put q (.file id (overwrite data 0 bytes))) := by
      have hsustains := (sustains_grows_writeAt d id 0 bytes d (.refl d)).1
      rwa [hrun] at hsustains
    have hnode := (find_eq_ok_iff.1 hfind).2.2.1
    have hplace := ne_nil_of_file hnode
    by_cases hq : q = place
    · subst hq
      rw [node?, if_neg hplace, hfile] at hnode
      cases hnode
      refine ⟨bytes, _, hrun, hgrows.find_file hfind ?_, .inl rfl⟩
      rw [put, node?_insert hplace, if_pos rfl, ← List.length_nil (α := UInt8), overwrite_length,
        List.nil_append]
    · refine ⟨[], _, hrun, hgrows.find_file hfind ?_, .inr rfl⟩
      by_cases htop : q = []
      · subst htop
        rw [put, node?_insert_top]
        exact hnode
      · rw [put, node?_insert htop, if_neg (Ne.symm hq)]
        exact hnode

theorem contents_eq_ok_iff {bytes : Bytes} :
    d.contents p = .ok bytes ↔ ∃ place id, d.find p = .ok (place, .file id bytes) := by
  unfold contents
  rcases d.find p with e | ⟨place, _ | ⟨id, data⟩⟩
  · simp [bind, Except.bind]
  · simp [bind, Except.bind]
  · simp [bind, Except.bind]

/-- A file that is made holds what was put into it. On a sound disk no other file changes. -/
theorem Writable.run_putFile_of_absent (h : d.Writable p) (habsent : d.isPresent p = false)
    (bytes : Bytes) : ∃ place id data d', (putFile p bytes).run d = (.ok (), d') ∧
      d'.find p = .ok (place, .file id data) ∧ (data = bytes ∨ data = []) ∧
      (d.Sound → data = bytes ∧ ∀ q b, d.contents q = .ok b → d'.contents q = .ok b) := by
  obtain ⟨place, id, u, hnone, hopen, hempties, hfind⟩ := h.run_openForWriting_of_absent habsent
  obtain ⟨data, d', hwrite, hleads, hdata⟩ := find_run_writeAt hfind bytes
  refine ⟨place, id, data, d', (run_bind_of_ok hopen).trans hwrite, hleads, hdata, fun hd => ?_⟩
  obtain ⟨u', hrun, hwritten⟩ := hd.run_writeAt_of_empties hempties hfind bytes
  rw [hwrite] at hrun
  cases hrun
  constructor
  · have hholds := hwritten.leads
    rw [hleads] at hholds
    cases hholds
    rfl
  · intro q b hq
    obtain ⟨other, i, hother⟩ := contents_eq_ok_iff.1 hq
    refine contents_eq_ok_iff.2 ⟨other, i, hwritten.find_of_ne hother fun heq => ?_⟩
    obtain ⟨_, _, hnode, _⟩ := find_eq_ok_iff.1 hother
    rw [heq, hnone] at hnode
    cases hnode

end Disk

/-! ## The defaults as text -/

namespace Settings

variable {d : Disk} {p : Path}

theorem validate_default : default.validate = .ok () := (validate_eq_ok_iff _).2 (by decide)

/-- The commented defaults are read as the defaults. -/
theorem read?_defaultText : read? defaultText = some default := by
  -- The reader is quick to evaluate on characters, but taking the text apart into them is not.
  have hchars (cs : List Char) : (String.ofList cs).toList = cs := String.toList_ofList
  rw [read?, Toml.parse?]
  unfold defaultText
  repeat rw [String.toList_append]
  repeat rw [hchars]
  decide +kernel

theorem parse_of_read?_default {text : String} (h : read? text = some default) :
    parse text = .ok default := by
  rw [parse, h]
  exact congrArg (Except.map _) validate_default

/-- A text without a character is read as the defaults as well. -/
theorem read?_empty : read? "" = some default := by decide

/-! ## Loading -/

theorem loadOrDefault_of_absent (h : d.isPresent p = false) : loadOrDefault p d = .ok default := by
  rw [loadOrDefault, h]
  rfl

theorem loadOrDefault_of_find {place : List String} {id : Nat} {text : String}
    (h : d.find p = .ok (place, .file id (Text.encode text))) : loadOrDefault p d = parse text := by
  have hcontents : d.contents p = .ok (Text.encode text) := Disk.contents_eq_ok_iff.2 ⟨_, _, h⟩
  have htext : readText p d = .ok text := by
    rw [readText, hcontents]
    simp [bind, Except.bind, Text.decode?_encode]
  rw [loadOrDefault, Disk.isPresent_iff.2 ⟨_, _, h⟩, if_pos rfl, load, htext]

theorem run_writeDefaultIfMissing_of_present (h : d.isPresent p = true) :
    (writeDefaultIfMissing p).run d = (.ok (), d) := by
  rw [writeDefaultIfMissing, run_bind_of_ok (run_world d), if_pos h, run_pure]

theorem run_writeDefaultIfMissing_of_absent (h : d.isPresent p = false) :
    (writeDefaultIfMissing p).run d = (writeText p defaultText).run d := by
  rw [writeDefaultIfMissing, run_bind_of_ok (run_world d), h]
  rfl

theorem run_writeDefaultIfMissing_of_refused (habsent : d.isPresent p = false)
    (h : ¬ d.Writable p) :
    ∃ f, (writeDefaultIfMissing p).run d = (.error (.storage (.io f)), d) := by
  obtain ⟨f, hrun⟩ := Disk.run_putFile_of_not_writable h (Text.encode defaultText)
  rw [run_writeDefaultIfMissing_of_absent habsent]
  exact ⟨f, run_mapError_of_error hrun _⟩

/-- The file that is made stands for the defaults. -/
theorem run_writeDefaultIfMissing_of_writable (habsent : d.isPresent p = false)
    (h : d.Writable p) : ∃ d', (writeDefaultIfMissing p).run d = (.ok (), d') ∧
      d'.isPresent p = true ∧ loadOrDefault p d' = .ok default ∧
      (d.Sound → d'.contents p = .ok (Text.encode defaultText) ∧
        ∀ q bytes, d.contents q = .ok bytes → d'.contents q = .ok bytes) := by
  obtain ⟨place, id, data, d', hrun, hfind, hdata, hsound⟩ :=
    h.run_putFile_of_absent habsent (Text.encode defaultText)
  rw [run_writeDefaultIfMissing_of_absent habsent]
  refine ⟨d', run_mapError_of_ok hrun _, Disk.isPresent_iff.2 ⟨_, _, hfind⟩, ?_, fun hd => ?_⟩
  · have htext : ∃ text, data = Text.encode text ∧ read? text = some default := by
      rcases hdata with rfl | rfl
      · exact ⟨defaultText, rfl, read?_defaultText⟩
      · exact ⟨"", (Text.encode_eq_flatMap "").symm, read?_empty⟩
    obtain ⟨text, rfl, hread⟩ := htext
    rw [loadOrDefault_of_find hfind, parse_of_read?_default hread]
  · obtain ⟨rfl, hothers⟩ := hsound hd
    exact ⟨Disk.contents_eq_ok_iff.2 ⟨_, _, hfind⟩, hothers⟩

/-- Whatever a path leads to and whether or not the defaults can be written there, the same settings
or the same failure are loaded after writing them as before, and writing them again gives the same
answer and changes nothing. Where something is, nothing changes the first time either. Where nothing
is, a path that cannot be written is refused and leaves the disk as it was; one that can be written
gets its file, which on a sound disk holds the commented defaults next to all the others. -/
theorem loadOrDefault_after_writeDefaultIfMissing (p : Path) (d : Disk) :
    let written := (writeDefaultIfMissing p).run d
    loadOrDefault p written.2 = loadOrDefault p d ∧
    (writeDefaultIfMissing p).run written.2 = written ∧
    (d.isPresent p = true → written = (.ok (), d)) ∧
    (d.isPresent p = false → ¬ d.Writable p → ∃ f, written = (.error (.storage (.io f)), d)) ∧
    (d.isPresent p = false → d.Writable p → written.1 = .ok () ∧
      (d.Sound → written.2.contents p = .ok (Text.encode defaultText) ∧
        ∀ q bytes, d.contents q = .ok bytes → written.2.contents q = .ok bytes)) := by
  intro written
  by_cases hpresent : d.isPresent p = true
  · have hwritten : written = (.ok (), d) := run_writeDefaultIfMissing_of_present hpresent
    have hthere : d.isPresent p ≠ false := by simp [hpresent]
    rw [hwritten]
    exact ⟨rfl, run_writeDefaultIfMissing_of_present hpresent, fun _ => rfl,
      fun h => absurd h hthere, fun h => absurd h hthere⟩
  · have habsent : d.isPresent p = false := Bool.eq_false_iff.2 hpresent
    by_cases hwritable : d.Writable p
    · obtain ⟨d', hrun, hthere, hload, hsound⟩ :=
        run_writeDefaultIfMissing_of_writable habsent hwritable
      have hwritten : written = (.ok (), d') := hrun
      rw [hwritten, hload, loadOrDefault_of_absent habsent]
      exact ⟨rfl, run_writeDefaultIfMissing_of_present hthere, fun h => absurd h hpresent,
        fun _ h => absurd hwritable h, fun _ _ => ⟨rfl, hsound⟩⟩
    · obtain ⟨f, hrun⟩ := run_writeDefaultIfMissing_of_refused habsent hwritable
      have hwritten : written = (.error (.storage (.io f)), d) := hrun
      rw [hwritten]
      exact ⟨rfl, hrun, fun h => absurd h hpresent, fun _ _ => ⟨f, rfl⟩,
        fun _ h => absurd h hwritable⟩

/-- A disk with a file of settings that is no text. -/
def garbledDisk : Disk := ((Disk.putFile ⟨fileName⟩ [0xff]).run .empty).2

/-- On an empty disk the defaults are written, but not into a directory that is missing; a garbled
file is left as it is. -/
theorem default_file_is_written_where_missing :
    ((writeDefaultIfMissing ⟨fileName⟩).run .empty).1 = .ok () ∧
    ((writeDefaultIfMissing ⟨fileName⟩).run .empty).2.contents ⟨fileName⟩ =
      .ok (Text.encode defaultText) ∧
    (∃ f, (writeDefaultIfMissing ⟨"build/parity.toml"⟩).run .empty =
      (.error (.storage (.io f)), .empty)) ∧
    (writeDefaultIfMissing ⟨fileName⟩).run garbledDisk = (.ok (), garbledDisk) := by
  have hwritable : Disk.Writable .empty ⟨fileName⟩ :=
    ⟨[], fileName, rfl, by decide, by decide, by decide⟩
  have hrefused : ¬ Disk.Writable .empty ⟨"build/parity.toml"⟩ := by
    rintro ⟨place, name, hparent, -⟩
    cases hparent
  obtain ⟨hok, hsound⟩ :=
    (loadOrDefault_after_writeDefaultIfMissing ⟨fileName⟩ .empty).2.2.2.2 (by decide) hwritable
  exact ⟨hok, (hsound Disk.sound_empty).1,
    (loadOrDefault_after_writeDefaultIfMissing ⟨"build/parity.toml"⟩ .empty).2.2.2.1 (by decide)
      hrefused,
    (loadOrDefault_after_writeDefaultIfMissing ⟨fileName⟩ garbledDisk).2.2.1 (by decide)⟩

end Settings
end OffloadCheck
