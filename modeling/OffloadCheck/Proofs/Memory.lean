import OffloadCheck.Proofs.Paths
import OffloadCheck.Storage.Memory

/-! # Directories of a memory tree

A memory tree is looked at through the data and the directories at its locations. A directory
`Holds` files when exactly these lie directly in it and nothing lies deeper. Writing a file changes
one such directory and above it only adds directories, so whatever lies apart stays as it was. -/

-- What is assumed of names is assumed together, also where a lemma needs less.
set_option linter.unusedSectionVars false

namespace OffloadCheck

namespace Location

variable {ν : Type}

theorem mem_ancestors_iff {a l : Location ν} :
    a ∈ ancestors l ↔ a ≠ [] ∧ ∃ below, below ≠ [] ∧ l = a ++ below := by
  fun_induction ancestors l generalizing a with
  | case1 => simp
  | case2 c =>
    simp only [List.not_mem_nil, false_iff, not_and, not_exists]
    intro ha below hbelow heq
    have hlength := congrArg List.length heq
    have hpos := List.length_pos_iff.2 ha
    have hpos' := List.length_pos_iff.2 hbelow
    simp only [List.length_append, List.length_cons, List.length_nil] at hlength
    omega
  | case3 c d rest ih =>
    rw [List.mem_cons, List.mem_map]
    constructor
    · intro h
      rcases h with rfl | ⟨b, hb, rfl⟩
      · exact ⟨by simp, d :: rest, by simp, rfl⟩
      · obtain ⟨_, below, hbelow, heq⟩ := ih.1 hb
        exact ⟨by simp, below, hbelow, by rw [heq]; rfl⟩
    · intro h
      obtain ⟨ha, below, hbelow, heq⟩ := h
      obtain ⟨x, a, rfl⟩ := List.exists_cons_of_ne_nil ha
      rw [List.cons_append, List.cons.injEq] at heq
      obtain ⟨rfl, heq⟩ := heq
      by_cases hnil : a = []
      · exact .inl (by rw [hnil])
      · exact .inr ⟨a, ih.2 ⟨hnil, below, hbelow, heq⟩, rfl⟩

end Location

namespace Memory

open Location

variable {ν : Type} [Ord ν] [Inhabited ν] [DecidableEq ν] [PathText ν] [Std.TransOrd ν]
  [Std.LawfulEqOrd ν]

/-! ## What writing changes -/

/-- The data of the file at a location. -/
def data? (m : Memory ν) (l : Location ν) : Option Bytes := (m.file? l).map (·.data)

/-- A file or a directory is there. -/
def Occupied (m : Memory ν) (l : Location ν) : Prop :=
  (m.data? l).isSome = true ∨ m.isDir l = true

/-- Nothing is both a file and a directory. -/
def Unmixed (m : Memory ν) : Prop := ∀ l, m.isDir l = true → m.data? l = none

theorem unmixed_of_keys {m : Memory ν} (h : ∀ l ∈ m.dirs.keys, m.data? l = none) : m.Unmixed := by
  intro l hl
  obtain ⟨found, hfound⟩ := Option.isSome_iff_exists.1 hl
  exact h l (m.dirs.mem_keys_iff.2 ⟨found, hfound⟩)

/-- A listing of the directory tells the names of what lies in it. -/
def Legible (m : Memory ν) (dir : Location ν) : Prop :=
  ∀ name, m.Occupied (dir ++ [.normal name]) → PathText.Legible name

theorem legible_of_text (m : Memory) (dir : Location) : m.Legible dir := fun _ _ => rfl

/-- Nothing in the directory is shown as the name is, apart from what has that name. -/
def Tells (m : Memory ν) (dir : Location ν) (name : ν) : Prop :=
  ∀ other, m.Occupied (dir ++ [.normal other]) → PathText.shown other = PathText.shown name →
    other = name

/-- The tree `m'` is the tree `m` with a file put at a location. -/
structure Puts (l : Location ν) (bytes : Bytes) (m m' : Memory ν) : Prop where
  data : ∀ k, m'.data? k = if k = l then some bytes else m.data? k
  isDir : ∀ k, m'.isDir k = true ↔ m.isDir k = true ∨ k ∈ l.ancestors

theorem contains_foldl_insert (as : List (Location ν)) (dirs : SortedMap (Location ν) Unit)
    (k : Location ν) :
    (as.foldl (fun dirs a => dirs.insert a ()) dirs).contains k = true ↔
      dirs.contains k = true ∨ k ∈ as := by
  induction as generalizing dirs with
  | nil => simp
  | cons a as ih =>
    rw [List.foldl_cons, ih, List.mem_cons, ← or_assoc]
    refine or_congr_left ?_
    rw [SortedMap.contains, SortedMap.contains, SortedMap.get?_insert]
    by_cases hk : k = a
    · simp [hk]
    · simp [hk]

theorem file?_insert (m : Memory ν) (l k : Location ν) (f : StoredFile ν) :
    file? { m with files := m.files.insert l f } k = if k = l then some f else m.file? k := by
  simp only [file?, SortedMap.get?_insert, Std.LawfulEqOrd.compare_eq_iff_eq]

theorem file?_addFile (m : Memory ν) (p : Path ν) (bytes : Bytes) (k : Location ν) :
    (m.addFile p bytes).file? k =
      if k = p.components then some ⟨((m.file? k).map (·.path)).getD p, bytes⟩ else m.file? k := by
  have hfile := file?_insert (m.withAncestors p.components) p.components k
    ⟨((m.file? p.components).map (·.path)).getD p, bytes⟩
  refine Eq.trans hfile ?_
  split
  · next heq => rw [heq]
  · rfl

theorem isDir_addFile (m : Memory ν) (p : Path ν) (bytes : Bytes) (k : Location ν) :
    (m.addFile p bytes).isDir k = true ↔ m.isDir k = true ∨ k ∈ p.components.ancestors :=
  contains_foldl_insert p.components.ancestors m.dirs k

theorem puts_addFile (m : Memory ν) (p : Path ν) (bytes : Bytes) :
    Puts p.components bytes m (m.addFile p bytes) where
  data k := by
    rw [data?, file?_addFile]
    split
    · rfl
    · rfl
  isDir := m.isDir_addFile p bytes

theorem run_append {m : Memory ν} {p : Path ν} {old : Bytes} (h : m.data? p.components = some old)
    (bytes : Bytes) :
    ∃ m', (append p bytes).run m = (.ok (), m') ∧
      (∀ k, m'.data? k = if k = p.components then some (old ++ bytes) else m.data? k) ∧
      ∀ k, m'.isDir k = m.isDir k := by
  obtain ⟨f, hf, rfl⟩ := Option.map_eq_some_iff.1 h
  refine ⟨{ m with files := m.files.insert p.components { f with data := f.data ++ bytes } },
    ?_, ?_, fun k => rfl⟩
  · simp only [Action.run, append, hf]
  · intro k
    rw [data?, file?_insert]
    split
    · rfl
    · rfl

theorem Puts.append {m m' m'' : Memory ν} {l : Location ν} {bytes more : Bytes}
    (h : Puts l bytes m m')
    (hdata : ∀ k, m''.data? k = if k = l then some (bytes ++ more) else m'.data? k)
    (hdirs : ∀ k, m''.isDir k = m'.isDir k) : Puts l (bytes ++ more) m m'' where
  data k := by
    rw [hdata, h.data]
    split
    · rfl
    · rfl
  isDir k := by
    rw [hdirs]
    exact h.isDir k

theorem isDir_addDir {m : Memory ν} {p : Path ν} {k : Location ν} : (m.addDir p).isDir k = true ↔
    k = p.components ∨ m.isDir k = true ∨ k ∈ p.components.ancestors := by
  have habove := contains_foldl_insert p.components.ancestors m.dirs k
  unfold addDir isDir SortedMap.contains
  rw [SortedMap.get?_insert]
  by_cases hk : k = p.components
  · simp [hk]
  · rw [if_neg fun heq => hk (Std.LawfulEqOrd.eq_of_compare heq), or_iff_right hk]
    exact habove

/-- Writing a whole file puts it into the tree. -/
theorem run_putFile {m : Memory ν} {p : Path ν} (h : m.isDir p.components = false) (bytes : Bytes) :
    ∃ m', (fileSystem.putFile p bytes).run m = (.ok (), m') ∧ Puts p.components bytes m m' := by
  have hcreate : (fileSystem.create p).run m =
      (.ok ⟨0, fun _ bytes => append p bytes⟩, m.addFile p []) := by
    simp [Action.run, fileSystem, h]
  have hputs := puts_addFile m p []
  unfold FileSystem.putFile
  rw [Action.run_bind_of_ok hcreate]
  cases bytes with
  | nil => exact ⟨_, rfl, hputs⟩
  | cons b bs =>
    have hold : (m.addFile p []).data? p.components = some [] := by
      rw [hputs.data, if_pos rfl]
    obtain ⟨m', hrun, hdata, hdirs⟩ := run_append hold (b :: bs)
    have hwrite : (Writer.write ⟨0, fun _ bytes => append p bytes⟩ (b :: bs)).run
        (m.addFile p []) = (.ok ⟨0 + (b :: bs).length, fun _ bytes => append p bytes⟩, m') :=
      Action.run_bind_of_ok hrun
    refine ⟨m', ?_, hputs.append hdata hdirs⟩
    exact Action.run_bind_of_ok (Action.run_mapError_of_ok hwrite StorageError.io)

/-! ## What removing changes -/

/-- Nothing is removed, or a single file, or a directory with all that is below it. -/
theorem delete_cases (m : Memory ν) (p : Path ν) (recursive : Bool) :
    ((fileSystem.delete p recursive).run m).2 = m ∨
      ((fileSystem.delete p recursive).run m).2 =
        { m with files := m.files.erase p.components } ∨
      ((fileSystem.delete p recursive).run m).2 = m.without p.components := by
  simp only [Action.run, fileSystem]
  split
  · exact .inr (.inl rfl)
  · split
    · exact .inl rfl
    · split
      · exact .inl rfl
      · exact .inr (.inr rfl)

theorem file?_erase (m : Memory ν) (l k : Location ν) :
    file? { m with files := m.files.erase l } k = if k = l then none else m.file? k := by
  simp only [file?, SortedMap.get?_erase, Std.LawfulEqOrd.compare_eq_iff_eq, @eq_comm _ l]

theorem file?_without (m : Memory ν) (l k : Location ν) :
    (m.without l).file? k = if k.isWithin l then none else m.file? k := by
  simp only [file?, without, SortedMap.get?_filter]
  cases m.files.get? k with
  | none => rw [ite_self, Option.filter_none]
  | some _ => cases k.isWithin l <;> rfl

theorem isDir_without (m : Memory ν) (l k : Location ν) :
    (m.without l).isDir k = (m.isDir k && !k.isWithin l) := by
  simp only [isDir, SortedMap.contains, without, SortedMap.get?_filter]
  cases m.dirs.get? k with
  | none => rfl
  | some _ => cases k.isWithin l <;> rfl

/-- The tree `m'` has no file and no directory that `m` does not have. -/
structure Fewer (m m' : Memory ν) : Prop where
  file : ∀ l, (m'.data? l).isSome = true → (m.data? l).isSome = true
  isDir : ∀ l, m'.isDir l = true → m.isDir l = true

theorem fewer_append (m : Memory ν) (p : Path ν) (bytes : Bytes) :
    Fewer m ((append p bytes).run m).2 := by
  cases hold : m.data? p.components with
  | none =>
    have hfile : m.file? p.components = none := Option.map_eq_none_iff.1 hold
    have hrun : (append p bytes).run m =
        (.error (.deletedWhileOpen (PathText.shown p.text)), m) := by
      simp only [Action.run, append, hfile]
    rw [hrun]
    exact ⟨fun _ hl => hl, fun _ hl => hl⟩
  | some old =>
    obtain ⟨m', hrun, hdata, hdirs⟩ := run_append hold bytes
    rw [hrun]
    refine ⟨fun l hl => ?_, fun l hl => by rwa [hdirs] at hl⟩
    rw [hdata] at hl
    split at hl
    · next heq =>
      rw [heq, hold]
      rfl
    · exact hl

theorem fewer_delete (m : Memory ν) (p : Path ν) (recursive : Bool) :
    Fewer m ((fileSystem.delete p recursive).run m).2 := by
  rcases m.delete_cases p recursive with hrun | hrun | hrun
  · rw [hrun]
    exact ⟨fun _ hl => hl, fun _ hl => hl⟩
  · rw [hrun]
    refine ⟨fun l hl => ?_, fun _ hl => hl⟩
    rw [data?, file?_erase] at hl
    split at hl
    · cases hl
    · exact hl
  · rw [hrun]
    refine ⟨fun l hl => ?_, fun l hl => ?_⟩
    · rw [data?, file?_without] at hl
      split at hl
      · cases hl
      · exact hl
    · rw [isDir_without, Bool.and_eq_true] at hl
      exact hl.1

/-! ## Directories that are written -/

/-- Nothing is at or below a location. -/
def Vacant (m : Memory ν) (dir : Location ν) : Prop :=
  ∀ l, m.data? (dir ++ l) = none ∧ m.isDir (dir ++ l) = false

/-- The data at a location below a directory with the given files. -/
def dataBelow (files : SortedMap ν Bytes) : Location ν → Option Bytes
  | [.normal name] => files.get? name
  | _ => none

/-- The files that lie in a directory, which itself need not be there when there are none. -/
structure Fills (m : Memory ν) (dir : Location ν) (files : SortedMap ν Bytes) : Prop where
  data : ∀ l, m.data? (dir ++ l) = dataBelow files l
  below : ∀ l, l ≠ [] → m.isDir (dir ++ l) = false

/-- The directory is there and these files are all that lies below it. -/
structure Holds (m : Memory ν) (dir : Location ν) (files : SortedMap ν Bytes) : Prop
    extends Fills m dir files where
  isDir : m.isDir dir = true

/-- What changes at and below `dir` changes nothing apart from it, and nothing disappears. -/
structure Grows (dir : Location ν) (m m' : Memory ν) : Prop where
  data : ∀ d, Apart d dir → ∀ l, m'.data? (d ++ l) = m.data? (d ++ l)
  isDir : ∀ d, Apart d dir → ∀ l, m'.isDir (d ++ l) = m.isDir (d ++ l)
  stays : ∀ l, (m.data? l).isSome = true → (m'.data? l).isSome = true
  isDir_stays : ∀ l, m.isDir l = true → m'.isDir l = true

variable {m m' m'' : Memory ν} {dir d : Location ν} {files : SortedMap ν Bytes} {bytes : Bytes}

theorem Vacant.fills (h : Vacant m dir) : Fills m dir .empty where
  data l := by
    rw [(h l).1]
    unfold dataBelow
    split
    · rfl
    · rfl
  below l _ := (h l).2

theorem Grows.refl (dir : Location ν) (m : Memory ν) : Grows dir m m :=
  ⟨fun _ _ _ => rfl, fun _ _ _ => rfl, fun _ h => h, fun _ h => h⟩

theorem Grows.trans (h : Grows dir m m') (h' : Grows dir m' m'') : Grows dir m m'' where
  data d hd l := (h'.data d hd l).trans (h.data d hd l)
  isDir d hd l := (h'.isDir d hd l).trans (h.isDir d hd l)
  stays l hl := h'.stays l (h.stays l hl)
  isDir_stays l hl := h'.isDir_stays l (h.isDir_stays l hl)

theorem Vacant.grows (h : Vacant m d) (hg : Grows dir m m') (hd : Apart d dir) : Vacant m' d := by
  intro l
  rw [hg.data d hd, hg.isDir d hd]
  exact h l

theorem Holds.grows (h : Holds m d files) (hg : Grows dir m m') (hd : Apart d dir) :
    Holds m' d files := by
  constructor
  · constructor
    · intro l
      rw [hg.data d hd]
      exact h.data l
    · intro l hl
      rw [hg.isDir d hd]
      exact h.below l hl
  · exact hg.isDir_stays d h.isDir

/-- A file put directly into a directory replaces the one of its name. -/
theorem Fills.puts (h : Fills m dir files) (hdir : dir ≠ []) {name : ν}
    (hp : Puts (dir ++ [.normal name]) bytes m m') :
    Holds m' dir (files.insert name bytes) := by
  constructor
  · constructor
    · intro l
      rw [hp.data, h.data]
      by_cases hl : l = [.normal name]
      · rw [if_pos (by rw [hl]), hl, dataBelow, SortedMap.get?_insert,
          if_pos Std.ReflCmp.compare_self]
      · rw [if_neg fun heq => hl (List.append_cancel_left heq)]
        unfold dataBelow
        split
        · next other =>
          have hne : other ≠ name := fun heq => hl (by rw [heq])
          rw [SortedMap.get?_insert, if_neg fun heq => hne (Std.LawfulEqOrd.eq_of_compare heq)]
        · rfl
    · intro l hl
      refine Bool.eq_false_iff.2 fun htrue => ?_
      rcases (hp.isDir _).1 htrue with hold | hnew
      · rw [h.below l hl] at hold
        cases hold
      · -- A directory below `dir` would lie above the file, which lies directly in `dir`.
        obtain ⟨_, below, hbelow, heq⟩ := mem_ancestors_iff.1 hnew
        rw [List.append_assoc, List.append_cancel_left_eq] at heq
        have hlength := congrArg List.length heq
        have hpos := List.length_pos_iff.2 hl
        have hpos' := List.length_pos_iff.2 hbelow
        simp only [List.length_append, List.length_cons, List.length_nil] at hlength
        omega
  · exact (hp.isDir dir).2 (.inr (mem_ancestors_iff.2 ⟨hdir, _, by simp, rfl⟩))

theorem Puts.grows {below : Location ν} (h : Puts (dir ++ below) bytes m m') : Grows dir m m' where
  data d hd l := by
    rw [h.data, if_neg (hd.append_ne l below)]
  isDir d hd l := by
    refine Bool.eq_iff_iff.2 ?_
    rw [h.isDir]
    refine or_iff_left fun hmem => ?_
    obtain ⟨_, rest, _, heq⟩ := mem_ancestors_iff.1 hmem
    rw [List.append_assoc] at heq
    exact hd.symm.append_ne below (l ++ rest) heq
  stays l hl := by
    rw [h.data]
    split
    · rfl
    · exact hl
  isDir_stays l hl := (h.isDir l).2 (.inl hl)

end Memory
end OffloadCheck
