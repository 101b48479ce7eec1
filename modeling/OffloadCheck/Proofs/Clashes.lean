import Mathlib.Data.List.Induction
import Mathlib.Data.List.Nodup
import OffloadCheck.Proofs.Removal

/-! # Files in the place of directories

A memory tree keeps its files and its directories side by side. Creating a file looks whether there
is a directory in its place, copying does not, and neither looks for a file above. A call clashes
when it goes through although one of these is there. Trees in which nothing is both a file and a
directory come from calls without clashes and from no others, and where something is both, a
recursive removal leaves the directory and a listing shows the name twice. -/

-- What is assumed of names is assumed together, also where a lemma needs less.
set_option linter.unusedSectionVars false

namespace OffloadCheck.Memory

open OffloadCheck.Action Location

section

variable {ν : Type} [Ord ν] [Inhabited ν] [DecidableEq ν] [PathText ν] [Std.TransOrd ν]
  [Std.LawfulEqOrd ν] {m m' : Memory ν} {l : Location ν} {p : Path ν} {bytes : Bytes}

/-! ## Calls -/

/-- A call that changes a tree. -/
inductive Change (ν : Type := String)
  | create (p : Path ν)
  /-- A writer that was given out for the path writes. -/
  | write (p : Path ν) (bytes : Bytes)
  | copy (src dst : Path ν)
  | delete (p : Path ν) (recursive : Bool)

/-- The tree that a call leaves, whether it succeeds or fails. -/
def Change.apply (m : Memory ν) : Change ν → Memory ν
  | .create p => ((fileSystem.create p).run m).2
  | .write p bytes => ((append p bytes).run m).2
  | .copy src dst => ((fileSystem.copy src dst).run m).2
  | .delete p recursive => ((fileSystem.delete p recursive).run m).2

/-- The path that a call changes. -/
def Change.path : Change ν → Path ν
  | .create p | .write p _ | .copy _ p | .delete p _ => p

/-- A call puts a file at its path, or leaves no more than there was. -/
theorem Change.puts_or_fewer (change : Change ν) (m : Memory ν) :
    (∃ bytes, Puts change.path.components bytes m (change.apply m)) ∨
      Fewer m (change.apply m) := by
  have hsame : Fewer m m := ⟨fun _ hl => hl, fun _ hl => hl⟩
  cases change with
  | create p =>
    simp only [apply, Action.run, fileSystem]
    split
    · exact .inr hsame
    · exact .inl ⟨_, puts_addFile m p []⟩
  | write p bytes => exact .inr (m.fewer_append p bytes)
  | copy src dst =>
    simp only [apply, Action.run, fileSystem]
    split
    · exact .inl ⟨_, puts_addFile m dst _⟩
    · exact .inr hsame
  | delete p recursive => exact .inr (m.fewer_delete p recursive)

/-- The tree that comes from the empty one by some calls. -/
def after (changes : List (Change ν)) : Memory ν := changes.foldl Change.apply .empty

theorem after_concat (changes : List (Change ν)) (change : Change ν) :
    after (changes ++ [change]) = change.apply (after changes) := by
  rw [after, List.foldl_append]
  rfl

theorem Change.reachable (h : m.Reachable) (change : Change ν) : (change.apply m).Reachable := by
  cases change with
  | create p => exact .create p h
  | write p bytes => exact .append p bytes h
  | copy src dst => exact .copy src dst h
  | delete p recursive => exact .delete p recursive h

theorem reachable_after (changes : List (Change ν)) : (after changes).Reachable := by
  induction changes using List.reverseRecOn with
  | nil => exact .empty
  | append_singleton changes change ih =>
    rw [after_concat]
    exact change.reachable ih

/-- A file lies above the location. -/
def BelowFile (m : Memory ν) (l : Location ν) : Prop := ∃ a ∈ l.ancestors, (m.data? a).isSome = true

/-- The call goes through although it puts a file on a directory or below a file. -/
def Change.Clashes (m : Memory ν) : Change ν → Prop
  | .create p => m.isDir p.components = false ∧ m.BelowFile p.components
  | .copy src dst => (m.data? src.components).isSome = true ∧
      (m.isDir dst.components = true ∨ m.BelowFile dst.components)
  | .write .. | .delete .. => False

/-- The location is a file and a directory at once. -/
def Mixed (m : Memory ν) (l : Location ν) : Prop := m.isDir l = true ∧ (m.data? l).isSome = true

theorem Unmixed.not_mixed (h : m.Unmixed) (l : Location ν) : ¬ m.Mixed l := by
  intro hmixed
  have hfile := hmixed.2
  rw [h l hmixed.1] at hfile
  cases hfile

/-! ## What keeps a tree unmixed -/

theorem self_not_mem_ancestors (l : Location ν) : l ∉ l.ancestors := by
  intro h
  obtain ⟨_, below, hbelow, heq⟩ := mem_ancestors_iff.1 h
  exact hbelow (List.self_eq_append_right.1 heq)

theorem Puts.unmixed_iff (h : Puts l bytes m m') (hm : m.Unmixed) :
    m'.Unmixed ↔ m.isDir l = false ∧ ¬ m.BelowFile l := by
  constructor
  · intro h'
    constructor
    · refine Bool.eq_false_iff.2 fun hdir => ?_
      have hnone := h' l ((h.isDir l).2 (.inl hdir))
      rw [h.data, if_pos rfl] at hnone
      cases hnone
    · intro hbelow
      obtain ⟨a, ha, hfile⟩ := hbelow
      have hnone := h' a ((h.isDir a).2 (.inr ha))
      have hne : a ≠ l := fun heq => self_not_mem_ancestors l (heq ▸ ha)
      rw [h.data, if_neg hne] at hnone
      rw [hnone] at hfile
      cases hfile
  · rintro ⟨hdir, hbelow⟩ k hk
    have hne : k ≠ l := by
      rintro rfl
      rcases (h.isDir k).1 hk with hold | habove
      · rw [hold] at hdir
        cases hdir
      · exact self_not_mem_ancestors k habove
    rw [h.data, if_neg hne]
    rcases (h.isDir k).1 hk with hold | habove
    · exact hm k hold
    · exact Option.not_isSome_iff_eq_none.1 fun hfile => hbelow ⟨k, habove, hfile⟩

/-- A tree that has no more than an unmixed one is unmixed. -/
theorem Unmixed.of_fewer (h : m.Unmixed) (hfewer : Fewer m m') : m'.Unmixed := by
  intro l hl
  refine Option.not_isSome_iff_eq_none.1 fun hthere => ?_
  exact h.not_mixed l ⟨hfewer.isDir l hl, hfewer.file l hthere⟩

/-- One call leaves an unmixed tree unmixed unless it clashes. -/
theorem Change.unmixed_apply_iff (h : m.Unmixed) (change : Change ν) :
    (change.apply m).Unmixed ↔ ¬ change.Clashes m := by
  cases change with
  | create p =>
    cases hdir : m.isDir p.components with
    | true =>
      have hfail : (Change.create p).apply m = m := by
        simp [Change.apply, Action.run, fileSystem, hdir]
      rw [hfail]
      exact iff_of_true h fun hclash => by simp [Clashes, hdir] at hclash
    | false =>
      have hadd : (Change.create p).apply m = m.addFile p [] := by
        simp [Change.apply, Action.run, fileSystem, hdir]
      rw [hadd, (puts_addFile m p []).unmixed_iff h, Clashes, not_and]
      exact ⟨fun hfree _ => hfree.2, fun hfree => ⟨hdir, hfree hdir⟩⟩
  | write p bytes => exact iff_of_true (h.of_fewer (m.fewer_append p bytes)) not_false
  | copy src dst =>
    cases hsrc : m.file? src.components with
    | none =>
      have hfail : (Change.copy src dst).apply m = m := by
        simp [Change.apply, Action.run, fileSystem, hsrc]
      rw [hfail]
      exact iff_of_true h fun hclash => by simp [Clashes, data?, hsrc] at hclash
    | some f =>
      have hadd : (Change.copy src dst).apply m = m.addFile dst f.data := by
        simp [Change.apply, Action.run, fileSystem, hsrc]
      have hthere : (m.data? src.components).isSome = true := by
        rw [data?, hsrc]
        rfl
      rw [hadd, (puts_addFile m dst f.data).unmixed_iff h, Clashes, and_iff_right hthere, not_or,
        Bool.not_eq_true]
  | delete p recursive => exact iff_of_true (h.of_fewer (m.fewer_delete p recursive)) not_false

theorem unmixed_empty : Unmixed (.empty : Memory ν) := by
  intro l hl
  cases hl

/-- A tree has been unmixed all along if no call has clashed, and only then. -/
theorem unmixed_throughout_iff (changes : List (Change ν)) :
    (∀ early, early <+: changes → (after early).Unmixed) ↔
      ∀ early change, early ++ [change] <+: changes → ¬ change.Clashes (after early) := by
  constructor
  · intro h early change hprefix
    have hbefore := h early ((List.prefix_append early [change]).trans hprefix)
    have hnext := h _ hprefix
    rw [after_concat] at hnext
    exact (change.unmixed_apply_iff hbefore).1 hnext
  · intro h early hprefix
    induction early using List.reverseRecOn with
    | nil => exact unmixed_empty
    | append_singleton early change ih =>
      have hbefore := ih ((List.prefix_append early [change]).trans hprefix)
      rw [after_concat]
      exact (change.unmixed_apply_iff hbefore).2 (h early change hprefix)

/-! ## What a mixed location shows -/

theorem isPresent_eq_false_iff : fileSystem.isPresent p m = false ↔ ¬ m.Occupied p.components := by
  change ((m.file? p.components).isSome || m.isDir p.components) = false ↔ _
  rw [Occupied, data?, Option.isSome_map, Bool.or_eq_false_iff, not_or, Bool.not_eq_true,
    Bool.not_eq_true]

theorem isPresent_iff_occupied : fileSystem.isPresent p m = true ↔ m.Occupied p.components := by
  rw [← Bool.not_eq_false, isPresent_eq_false_iff, not_not]

theorem not_occupied_iff : ¬ m.Occupied l ↔ m.data? l = none ∧ m.isDir l = false := by
  rw [Occupied, not_or, Option.not_isSome_iff_eq_none, Bool.not_eq_true]

theorem nodup_dirsIn (m : Memory ν) (dir : Location ν) : (m.dirsIn dir).Nodup := by
  rw [dirsIn, List.Nodup, List.pairwise_filterMap]
  refine m.dirs.pairwise_ne_entries.imp ?_
  intro a b hne name hname name' hname' heq
  rw [childName_eq_some_iff] at hname hname'
  exact hne (by rw [hname, hname', heq])

theorem nodup_namesIn_iff :
    (m.namesIn l).Nodup ↔ ∀ name, ¬ m.Mixed (l ++ [.normal name]) := by
  have hfiles : ((m.filesIn l).map (·.1)).Nodup := List.pairwise_map.2 (m.pairwise_filesIn l)
  rw [namesIn, List.nodup_append]
  constructor
  · intro h name hmixed
    obtain ⟨bytes, hbytes⟩ := Option.isSome_iff_exists.1 hmixed.2
    exact h.2.2 name (List.mem_map.2 ⟨_, mem_filesIn.2 hbytes, rfl⟩) name
      (mem_dirsIn.2 hmixed.1) rfl
  · intro hmixed
    refine ⟨hfiles, nodup_dirsIn m _, fun name hfile other hdir heq => ?_⟩
    subst heq
    obtain ⟨⟨_, bytes⟩, hbytes, rfl⟩ := List.mem_map.1 hfile
    exact hmixed _ ⟨mem_dirsIn.1 hdir, Option.isSome_of_mem (mem_filesIn.1 hbytes)⟩

/-- A name is listed once, unless it is that of a file and of a directory. -/
theorem nodup_children_iff (hl : m.Legible l) :
    ((m.children l).map (·.name)).Nodup ↔ ∀ name, ¬ m.Mixed (l ++ [.normal name]) := by
  rw [map_name_children, ← nodup_namesIn_iff]
  refine ⟨List.Nodup.of_map _, fun h => h.map_on fun name hname other hother heq => ?_⟩
  exact (hl name (mem_namesIn.1 hname)).eq_of_shown (hl other (mem_namesIn.1 hother)) heq

end

variable {m m' : Memory} {l : Location} {p : Path} {bytes : Bytes}

/-- A recursive removal clears its path and tells whether something was there. -/
theorem run_delete_recursive (p : Path) (m : Memory) : (fileSystem.delete p true).run m =
    (.ok (fileSystem.isPresent p m), fileSystem.clear p m) := by
  cases hfile : m.file? p.components with
  | some f => simp [FileSystem.clear, Action.run, fileSystem, hfile]
  | none =>
    cases hdir : m.isDir p.components with
    | true => simp [FileSystem.clear, Action.run, fileSystem, hfile, hdir]
    | false => simp [FileSystem.clear, Action.run, fileSystem, hfile, hdir]

/-- Of what is a file and a directory only the file is cleared away. -/
theorem Mixed.clear (h : m.Mixed p.components) :
    (fileSystem.clear p m).isDir p.components = true := by
  obtain ⟨f, hfile, _⟩ := Option.map_eq_some_iff.1 (Option.some_get h.2).symm
  have hclear : fileSystem.clear p m = { m with files := m.files.erase p.components } := by
    simp [FileSystem.clear, fileSystem, Action.run, hfile]
  rw [hclear]
  exact h.1

theorem clear_of_not_mixed (hdir : m.isDir p.components = true) (h : ¬ m.Mixed p.components) :
    fileSystem.clear p m = m.without p.components := by
  have hnone : m.data? p.components = none :=
    Option.not_isSome_iff_eq_none.1 fun hfile => h ⟨hdir, hfile⟩
  exact clear_of_isDir (Option.map_eq_none_iff.1 hnone) hdir

theorem Grounded.vacant_clear (h : m.Grounded) (hp : p.components ≠ [])
    (hmixed : ¬ m.Mixed p.components) : Vacant (fileSystem.clear p m) p.components := by
  intro below
  have hwithin : isWithin (p.components ++ below) p.components = true :=
    isWithin_iff.2 ⟨below, rfl⟩
  cases hdir : m.isDir p.components with
  | true =>
    rw [clear_of_not_mixed hdir hmixed, data?, file?_without, isDir_without, hwithin]
    exact ⟨rfl, Bool.and_false _⟩
  | false =>
    obtain ⟨hfiles, hdirs⟩ := clear_of_not_isDir hdir
    obtain ⟨hnodir, hnofile⟩ := h.of_not_isDir hp hdir hwithin
    rw [data?, hfiles, hdirs]
    refine ⟨?_, hnodir⟩
    split
    · rfl
    · next hne =>
      rw [hnofile hne]
      rfl

/-- Clearing a path takes away all that lies at or below it, unless it is a file and a directory. -/
theorem Grounded.vacant_clear_iff (h : m.Grounded) (hp : p.components ≠ []) :
    Vacant (fileSystem.clear p m) p.components ↔ ¬ m.Mixed p.components := by
  refine ⟨fun hvacant hmixed => ?_, h.vacant_clear hp⟩
  have hgone := (hvacant []).2
  rw [List.append_nil, hmixed.clear] at hgone
  cases hgone

theorem isPresent_clear_iff (p : Path) (m : Memory) :
    fileSystem.isPresent p (fileSystem.clear p m) = false ↔ ¬ m.Mixed p.components := by
  rw [isPresent_eq_false_iff, not_occupied_iff]
  constructor
  · rintro ⟨_, hgone⟩ hmixed
    rw [hmixed.clear] at hgone
    cases hgone
  · intro hmixed
    cases hdir : m.isDir p.components with
    | true =>
      have hself : p.components.isWithin p.components = true :=
        isWithin_iff.2 ⟨[], (List.append_nil _).symm⟩
      rw [clear_of_not_mixed hdir hmixed, data?, file?_without, isDir_without, hself]
      exact ⟨rfl, Bool.and_false _⟩
    | false =>
      obtain ⟨hfiles, hdirs⟩ := clear_of_not_isDir hdir
      rw [data?, hfiles, if_pos rfl, hdirs, hdir]
      exact ⟨rfl, rfl⟩

theorem nodup_list_iff {dir : Path} {listing : List Entry} (h : m.list dir = .ok listing) :
    (listing.map (·.name)).Nodup ↔ ∀ name, ¬ m.Mixed (dir.components ++ [.normal name]) := by
  unfold list at h
  split at h
  · cases h
  · split at h
    · cases h
      exact nodup_children_iff (legible_of_text _ _)
    · cases h

/-! ## The empty path -/

/-- No call makes a directory of the empty path. -/
theorem isDir_nil_after (changes : List Change) : (after changes).isDir [] = false := by
  induction changes using List.reverseRecOn with
  | nil => rfl
  | append_singleton changes change ih =>
    rw [after_concat]
    refine Bool.eq_false_iff.2 fun hdir => ne_true_of_eq_false ih ?_
    rcases change.puts_or_fewer (after changes) with ⟨bytes, hputs⟩ | hfewer
    · refine ((hputs.isDir []).1 hdir).resolve_right fun habove => ?_
      exact (mem_ancestors_iff.1 habove).1 rfl
    · exact hfewer.isDir [] hdir

/-- Along some calls a tree stays unmixed exactly if none of them clashes. Whatever the calls were,
a recursive removal does not fail; it leaves nothing at or below its path exactly if the path is not
a file and a directory at once, and of the empty path it removes no more than a file at it. A
listing shows no name twice exactly if none of its names belongs to a file and to a directory. -/
theorem unmixed_iff_no_clash (changes : List Change) :
    ((∀ early, early <+: changes → (after early).Unmixed) ↔
      ∀ early change, early ++ [change] <+: changes → ¬ change.Clashes (after early)) ∧
    (∀ p, ∃ rest, (fileSystem.delete p true).run (after changes) =
        (.ok (fileSystem.isPresent p (after changes)), rest) ∧
      (p.text ≠ "" → (Vacant rest p.components ↔ ¬ (after changes).Mixed p.components)) ∧
      (fileSystem.isPresent p rest = false ↔ ¬ (after changes).Mixed p.components) ∧
      (p.text = "" → ∀ l, l ≠ [] →
        rest.file? l = (after changes).file? l ∧ rest.isDir l = (after changes).isDir l)) ∧
    ∀ dir listing, (fileSystem.list dir).run (after changes) = (.ok listing, after changes) →
      ((listing.map (·.name)).Nodup ↔
        ∀ name, ¬ (after changes).Mixed (dir.components ++ [.normal name])) := by
  refine ⟨unmixed_throughout_iff changes, fun p => ?_, fun dir listing hlist => ?_⟩
  · refine ⟨_, run_delete_recursive p _, fun htext => ?_, isPresent_clear_iff p _, fun htext => ?_⟩
    · exact (reachable_after changes).grounded.vacant_clear_iff
        (mt Path.components_eq_nil_iff.1 htext)
    · intro l hl
      have hp := Path.components_eq_nil_iff.2 htext
      obtain ⟨hfiles, hdirs⟩ := clear_of_not_isDir (hp ▸ isDir_nil_after changes)
      rw [hfiles, hp, if_neg hl]
      exact ⟨rfl, hdirs l⟩
  · exact nodup_list_iff (congrArg Prod.fst hlist)

/-- A file copied onto a directory: the removal of the path says that it has removed something, and
the directory with the file in it is still there. -/
theorem copied_onto_directory_survives_removal :
    let changes := [.create ⟨"/d/x"⟩, .create ⟨"/f"⟩, .copy ⟨"/f"⟩ ⟨"/d"⟩]
    let removed := (fileSystem.delete ⟨"/d"⟩ true).run (after changes)
    ¬ (after changes).Unmixed ∧ removed.1 = .ok true ∧
      fileSystem.isPresent ⟨"/d"⟩ removed.2 = true ∧
      fileSystem.isPresent ⟨"/d/x"⟩ removed.2 = true := by
  intro changes removed
  refine ⟨fun h => ?_, rfl, by decide, by decide⟩
  exact h.not_mixed (Path.mk "/d").components ⟨by decide, by decide⟩

end OffloadCheck.Memory
