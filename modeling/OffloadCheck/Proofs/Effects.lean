import OffloadCheck.Proofs.Simulation

/-! # What a call on a memory tree changes

A call that fails leaves the tree as it was. One that puts a file changes the file at its path and
adds the directories above it. One that deletes removes a single file, or a directory with all that
is below it; what lies below is told by components, so a name that only begins alike stays. -/
namespace OffloadCheck

open OffloadCheck.Action Location

/-- A step that fails leaves the state as it was. -/
def Action.Atomic {σ ε α : Type} (step : Action σ ε α) : Prop :=
  ∀ s e s', step.run s = (.error e, s') → s' = s

theorem Location.isWithin_sibling {above below : Location} {name other : String}
    (h : other ≠ name) :
    (above ++ .normal other :: below).isWithin (above ++ [.normal name]) = false := by
  rw [isWithin, ← Bool.not_eq_true, List.isPrefixOf_iff_prefix, List.prefix_append_right_inj]
  intro hfront
  exact h (Component.normal.inj (List.cons_prefix_cons.1 hfront).1).symm

namespace Memory

variable {m m' : Memory} {p src dst : Path} {bytes : Bytes} {recursive : Bool}

/-! ## Effects -/

/-- The file at a path is new or holds other data, the directories above it are there, and all the
rest is as it was. A file that was there keeps the path under which it was first put. -/
structure Replaces (p : Path) (bytes : Bytes) (m m' : Memory) : Prop where
  file : ∀ k, m'.file? k =
    if k = p.components then some ⟨((m.file? k).map (·.path)).getD p, bytes⟩ else m.file? k
  isDir : ∀ k, m'.isDir k = true ↔ m.isDir k = true ∨ k ∈ p.components.ancestors
  opens : m'.opens = m.opens

theorem replaces_addFile (m : Memory) (p : Path) (bytes : Bytes) :
    m.Replaces p bytes (m.addFile p bytes) :=
  ⟨m.file?_addFile p bytes, m.isDir_addFile p bytes, rfl⟩

/-- The files and the directories at some locations have gone, and all the rest is as it was. -/
structure Removes (files dirs : Location → Bool) (m m' : Memory) : Prop where
  file : ∀ k, m'.file? k = if files k then none else m.file? k
  isDir : ∀ k, m'.isDir k = (m.isDir k && !dirs k)
  opens : m'.opens = m.opens

theorem removes_erase (m : Memory) (l : Location) :
    Removes (· == l) (fun _ => false) m { m with files := m.files.erase l } where
  file k := by
    rw [file?_erase]
    simp only [beq_iff_eq]
  isDir k := (Bool.and_true _).symm
  opens := rfl

theorem removes_without (m : Memory) (l : Location) :
    Removes (·.isWithin l) (·.isWithin l) m (m.without l) :=
  ⟨m.file?_without l, m.isDir_without l, rfl⟩

/-- The deletion of a path removed the file at it, or the directory at it with all that is below it,
which had to be asked for unless nothing was. -/
inductive Deletes (p : Path) (recursive : Bool) (m m' : Memory) : Prop
  | file : (m.read? p).isSome = true →
      Removes (· == p.components) (fun _ => false) m m' → Deletes p recursive m m'
  | dir : m.read? p = none → m.isDir p.components = true →
      (recursive = true ∨
        ∀ k, k.isWithin p.components = true → k ≠ p.components → ¬ m.Occupied k) →
      Removes (·.isWithin p.components) (·.isWithin p.components) m m' → Deletes p recursive m m'

/-! ## Calls -/

theorem atomic_create (p : Path) : (fileSystem.create p).Atomic := by
  intro m e m' hrun
  simp only [Action.run, fileSystem] at hrun
  split at hrun
  · cases hrun
    rfl
  · cases hrun

theorem atomic_copy (src dst : Path) : (fileSystem.copy src dst).Atomic := by
  intro m e m' hrun
  simp only [Action.run, fileSystem] at hrun
  split at hrun
  · cases hrun
  · cases hrun
    rfl

theorem atomic_openFile (p : Path) : (fileSystem.openFile p).Atomic := by
  intro m e m' hrun
  simp only [Action.run, fileSystem] at hrun
  split at hrun
  · cases hrun
  · cases hrun
    rfl

theorem atomic_list (p : Path) : (fileSystem.list p).Atomic := by
  intro m e m' hrun
  exact (Prod.mk.inj hrun).2.symm

/-- What a deletion can do. -/
theorem delete_outcome {outcome : Except StorageError Bool}
    (hrun : (fileSystem.delete p recursive).run m = (outcome, m')) :
    (outcome = .ok true ∧ m.Deletes p recursive m') ∨
      (outcome = .ok false ∧ ¬ m.Occupied p.components ∧ m' = m) ∨
      (outcome = .error (.directoryNotEmpty p) ∧ recursive = false ∧ m' = m) := by
  simp only [Action.run, fileSystem] at hrun
  split at hrun
  · next hfile =>
    cases hrun
    refine .inl ⟨rfl, .file ?_ (m.removes_erase _)⟩
    rwa [read?, Option.isSome_map]
  · next hfile =>
    rw [Option.not_isSome_iff_eq_none] at hfile
    have hread : m.read? p = none := Option.map_eq_none_iff.2 hfile
    split at hrun
    · next hdir =>
      cases hrun
      rw [Bool.not_eq_true'] at hdir
      exact .inr (.inl ⟨rfl, not_occupied_iff.2 ⟨hread, hdir⟩, rfl⟩)
    · next hdir =>
      rw [Bool.not_eq_true', Bool.not_eq_false] at hdir
      split at hrun
      · next hrefused =>
        cases hrun
        rw [Bool.and_eq_true, Bool.not_eq_true'] at hrefused
        exact .inr (.inr ⟨rfl, hrefused.2, rfl⟩)
      · next hallowed =>
        cases hrun
        refine .inl ⟨rfl, .dir hread hdir ?_ (m.removes_without _)⟩
        cases recursive with
        | true => exact .inl rfl
        | false =>
          refine .inr fun k hwithin hne hthere => hallowed ?_
          rw [(isPopulated_iff hread).2 ⟨k, hwithin, hne, hthere⟩]
          rfl

theorem atomic_delete (p : Path) (recursive : Bool) :
    (fileSystem.delete p recursive).Atomic := by
  intro m e m' hrun
  rcases delete_outcome hrun with ⟨hok, _⟩ | ⟨hok, _⟩ | ⟨_, _, hsame⟩
  · cases hok
  · cases hok
  · exact hsame

theorem create_replaces {w : Writer Memory} (hrun : (fileSystem.create p).run m = (.ok w, m')) :
    m.Replaces p [] m' := by
  simp only [Action.run, fileSystem] at hrun
  split at hrun
  · cases hrun
  · cases hrun
    exact m.replaces_addFile p []

/-- A copy writes what the source has held before, also onto the source itself. -/
theorem copy_replaces (hrun : (fileSystem.copy src dst).run m = (.ok (), m')) :
    ∃ bytes, m.read? src = some bytes ∧ m.Replaces dst bytes m' := by
  simp only [Action.run, fileSystem] at hrun
  split at hrun
  · next f hfile =>
    cases hrun
    refine ⟨f.data, ?_, m.replaces_addFile dst f.data⟩
    rw [read?, hfile]
    rfl
  · cases hrun

/-- What lies at or below another name in the same place is as it was. -/
theorem Deletes.sibling (h : m.Deletes p recursive m') {above below : Location}
    {name other : String} (hp : p.components = above ++ [.normal name]) (hne : other ≠ name) :
    m'.file? (above ++ .normal other :: below) = m.file? (above ++ .normal other :: below) ∧
      m'.isDir (above ++ .normal other :: below) = m.isDir (above ++ .normal other :: below) := by
  have houtside : (above ++ .normal other :: below).isWithin p.components = false := by
    rw [hp]
    exact isWithin_sibling hne
  cases h with
  | file _ hremoves =>
    rw [hremoves.file, hremoves.isDir, if_neg, Bool.not_false, Bool.and_true]
    · exact ⟨rfl, rfl⟩
    · rw [beq_iff_eq]
      intro hself
      rw [hself, isWithin_iff.2 ⟨[], (List.append_nil _).symm⟩] at houtside
      cases houtside
  | dir _ _ _ hremoves =>
    rw [hremoves.file, hremoves.isDir, houtside, Bool.not_false, Bool.and_true]
    exact ⟨rfl, rfl⟩

/-- Calls that fail leave the tree as it was, with its count of opened files; those that succeed
change no more than what they are asked for. -/
theorem effects_exact :
    ((∀ p : Path, (fileSystem.create p).Atomic) ∧
      (∀ src dst : Path, (fileSystem.copy src dst).Atomic) ∧
      (∀ (p : Path) (recursive : Bool), (fileSystem.delete p recursive).Atomic) ∧
      (∀ p : Path, (fileSystem.openFile p).Atomic) ∧ ∀ p : Path, (fileSystem.list p).Atomic) ∧
    ∀ m : Memory,
      (∀ p w m', (fileSystem.create p).run m = (.ok w, m') → m.Replaces p [] m') ∧
      (∀ src dst m', (fileSystem.copy src dst).run m = (.ok (), m') →
        ∃ bytes, m.read? src = some bytes ∧ m.Replaces dst bytes m') ∧
      (∀ p recursive m', (fileSystem.delete p recursive).run m = (.ok true, m') →
        m.Deletes p recursive m' ∧
        ∀ above name other below, p.components = above ++ [.normal name] → other ≠ name →
          m'.file? (above ++ .normal other :: below) = m.file? (above ++ .normal other :: below) ∧
          m'.isDir (above ++ .normal other :: below) = m.isDir (above ++ .normal other :: below)) ∧
      ∀ p recursive m', (fileSystem.delete p recursive).run m = (.ok false, m') → m' = m := by
  refine ⟨⟨atomic_create, atomic_copy, atomic_delete, atomic_openFile, atomic_list⟩, fun m =>
    ⟨fun p w m' => create_replaces, fun src dst m' => copy_replaces, fun p recursive m' hrun => ?_,
      fun p recursive m' hrun => ?_⟩⟩
  · rcases delete_outcome hrun with ⟨_, hdeletes⟩ | ⟨hok, _⟩ | ⟨hok, _⟩
    · exact ⟨hdeletes, fun above name other below hp hne => hdeletes.sibling hp hne⟩
    · cases hok
    · cases hok
  · rcases delete_outcome hrun with ⟨hok, _⟩ | ⟨_, _, hsame⟩ | ⟨hok, _⟩
    · cases hok
    · exact hsame
    · cases hok

end Memory
end OffloadCheck
