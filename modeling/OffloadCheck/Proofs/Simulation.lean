import Mathlib.Data.List.Nodup
import OffloadCheck.Proofs.Clashes
import OffloadCheck.Proofs.Deletions

/-! # A memory tree in the place of a disk

A memory tree that starts with its root alone follows a disk whose root starts as an empty
directory: as long as what is done on the disk succeeds, the same succeeds on the tree with the same
answers. The two are alike at every place beneath the root, because what is written adds the same
directories to both and what is deleted takes the same places from both, the root itself among
them. -/

-- What is assumed of names is assumed together, also where a lemma needs less.
set_option linter.unusedSectionVars false

namespace OffloadCheck

open OffloadCheck.Action

variable {σ : Type}

/-! ## Operations and answers -/

namespace FileSystem

/-- What is done on a filesystem, files being written and read whole. -/
inductive Operation
  | put (p : Path) (bytes : Bytes)
  | read (p : Path)
  | list (p : Path)
  | copy (src dst : Path)
  | delete (p : Path) (recursive : Bool)
  | isPresent (p : Path)

inductive Answer
  | done
  | bytes (content : Bytes)
  | listing (entries : List Entry)
  | flag (value : Bool)
deriving DecidableEq

def perform (fs : FileSystem σ) : Operation → Action σ StorageError Answer
  | .put p bytes => do
    fs.putFile p bytes
    pure .done
  | .read p => return .bytes (← fs.contents p)
  | .list p => return .listing (← fs.list p)
  | .copy src dst => do
    fs.copy src dst
    pure .done
  | .delete p recursive => return .flag (← fs.delete p recursive)
  | .isPresent p => return .flag (fs.isPresent p (← Action.world))

/-- One operation after the other, up to the first that fails. -/
def performAll (fs : FileSystem σ) (operations : List Operation) :
    Action σ StorageError (List Answer) :=
  operations.mapM fs.perform

/-- Two answers say the same; a listing has no order of its own. -/
inductive Answer.Same : Answer → Answer → Prop
  | listing {a b : List Entry} : a.Perm b → Same (.listing a) (.listing b)
  | refl (a : Answer) : Same a a

end FileSystem

namespace Location

variable {ν : Type}

/-- The location that some names lead to from the root. -/
def fromRoot (names : List ν) : Location ν := .root :: names.map .normal

theorem fromRoot_injective {names ms : List ν} :
    fromRoot names = fromRoot ms ↔ names = ms := by
  rw [fromRoot, fromRoot, List.cons.injEq, List.map_inj_right fun _ _ => Component.normal.inj]
  exact and_iff_right rfl

theorem fromRoot_concat (names : List ν) (name : ν) :
    fromRoot names ++ [.normal name] = fromRoot (names ++ [name]) := by
  simp [fromRoot]

theorem names_fromRoot (ms : List ν) : (fromRoot ms).names = ms := by
  rw [names, fromRoot, List.filterMap_cons, List.filterMap_map]
  exact List.filterMap_some

theorem isWithin_fromRoot_iff [DecidableEq ν] {names ms : List ν} :
    (fromRoot ms).isWithin (fromRoot names) = true ↔ names <+: ms := by
  rw [isWithin, List.isPrefixOf_iff_prefix, fromRoot, fromRoot, List.prefix_cons_inj]
  exact List.prefix_map_iff_of_injective fun _ _ => Component.normal.inj

theorem mem_ancestors_fromRoot {names : List ν} {l : Location ν} :
    l ∈ (fromRoot names).ancestors ↔ ∃ ms, ms <+: names ∧ ms ≠ names ∧ l = fromRoot ms := by
  rw [mem_ancestors_iff]
  constructor
  · rintro ⟨hl, below, hbelow, heq⟩
    obtain ⟨c, above, rfl⟩ := List.exists_cons_of_ne_nil hl
    rw [fromRoot, List.cons_append, List.cons.injEq] at heq
    obtain ⟨rfl, heq⟩ := heq
    obtain ⟨ms, rest, rfl, rfl, rfl⟩ := List.map_eq_append_iff.1 heq
    refine ⟨ms, List.prefix_append _ _, fun hself => hbelow ?_, rfl⟩
    rw [List.self_eq_append_right.1 hself]
    rfl
  · rintro ⟨ms, ⟨rest, rfl⟩, hne, rfl⟩
    refine ⟨List.cons_ne_nil _ _, rest.map .normal, fun hnil => hne ?_, by simp [fromRoot]⟩
    rw [List.map_eq_nil_iff.1 hnil, List.append_nil]

end Location

/-- The path is absolute and has no other components than names. -/
def Path.FromRoot {ν : Type} [PathText ν] (p : Path ν) : Prop :=
  ∃ names, p.components = Location.fromRoot names

instance {ν : Type} [PathText ν] [DecidableEq ν] (p : Path ν) : Decidable p.FromRoot :=
  decidable_of_iff (p.components = Location.fromRoot p.components.names)
    ⟨fun h => ⟨_, h⟩, fun ⟨names, h⟩ => by rw [h, Location.names_fromRoot]⟩

theorem Path.fromRoot_iff {p : Path} :
    p.FromRoot ↔ p.components = Location.fromRoot p.place := by
  refine ⟨fun h => ?_, fun h => ⟨_, h⟩⟩
  obtain ⟨names, hnames⟩ := h
  have hplace : p.place = names := by
    rw [Path.place, hnames]
    exact Location.stack_map_normal names
  rw [hplace, hnames]

theorem Path.FromRoot.components {p : Path} (h : p.FromRoot) :
    p.components = Location.fromRoot p.place :=
  Path.fromRoot_iff.1 h

theorem Path.FromRoot.no_parent {p : Path} (h : p.FromRoot) : .parent ∉ p.components := by
  simp [h.components, Location.fromRoot]

/-- The paths of the operation are absolute and have names only, and a copy is not onto its
source. -/
def FileSystem.Operation.FromRoot : FileSystem.Operation → Prop
  | .put p _ | .read p | .list p | .delete p _ | .isPresent p => p.FromRoot
  | .copy src dst => src.FromRoot ∧ dst.FromRoot ∧ src.components ≠ dst.components

instance (operation : FileSystem.Operation) : Decidable operation.FromRoot :=
  match operation with
  | .put p _ | .read p | .list p | .delete p _ | .isPresent p =>
    inferInstanceAs (Decidable p.FromRoot)
  | .copy src dst =>
    inferInstanceAs (Decidable (src.FromRoot ∧ dst.FromRoot ∧ src.components ≠ dst.components))

/-! ## Listings and deletions -/

namespace LocalStore

variable {d : Disk} {place : List String} {entry : Entry}

theorem mem_entriesAt : entry ∈ (d.childrenAt place).map entryOf ↔
    (∃ name bytes, d.data? (place ++ [name]) = some bytes ∧ Entry.file name bytes.length = entry) ∨
      ∃ name, d.isDirAt (place ++ [name]) = true ∧ Entry.dir name = entry := by
  simp only [List.mem_map, Prod.exists, Disk.mem_childrenAt, Disk.isDirAt_iff,
    Disk.data?_eq_some_iff]
  constructor
  · rintro ⟨name, node, hnode, rfl⟩
    cases node with
    | dir => exact .inr ⟨name, hnode, rfl⟩
    | file id bytes => exact .inl ⟨name, bytes, ⟨id, hnode⟩, rfl⟩
  · rintro (⟨name, bytes, ⟨id, hnode⟩, rfl⟩ | ⟨name, hnode, rfl⟩)
    · exact ⟨name, _, hnode, rfl⟩
    · exact ⟨name, _, hnode, rfl⟩

/-- No name is listed twice. -/
theorem nodup_entriesAt (d : Disk) (place : List String) :
    ((d.childrenAt place).map entryOf).Nodup := by
  have hnames : (d.childrenAt place).Pairwise fun a b => a.1 ≠ b.1 := by
    rw [Disk.childrenAt, List.pairwise_filterMap]
    refine d.nodes.pairwise_ne_entries.imp ?_
    intro a b hne c hc c' hc' heq
    exact hne (by rw [(Disk.place_of_child hc).1, (Disk.place_of_child hc').1, heq])
  refine List.pairwise_map.2 (hnames.imp fun {a b} hne heq => hne ?_)
  rw [← name_entryOf a, heq, name_entryOf]

end LocalStore

namespace Memory

variable {ν : Type} [Ord ν] [Inhabited ν] [DecidableEq ν] [PathText ν] [Std.TransOrd ν]
  [Std.LawfulEqOrd ν] {m : Memory ν} {p : Path ν} {l : Location ν} {entry : Entry}

theorem mem_children : entry ∈ m.children l ↔
    (∃ name bytes, m.data? (l ++ [.normal name]) = some bytes ∧
      Entry.file (PathText.shown name) bytes.length = entry) ∨
    ∃ name, m.isDir (l ++ [.normal name]) = true ∧ Entry.dir (PathText.shown name) = entry := by
  simp only [children_eq, List.mem_append, List.mem_map, Prod.exists, mem_filesIn, mem_dirsIn]

/-- What is no file itself is populated by what lies strictly below it. -/
theorem isPopulated_iff (hself : m.data? l = none) : m.isPopulated l = true ↔
    ∃ k, k.isWithin l = true ∧ k ≠ l ∧ m.Occupied k := by
  have hfiles (k : Location ν) : k ∈ m.files.keys ↔ (m.data? k).isSome = true := by
    rw [SortedMap.mem_keys_iff, data?, Option.isSome_map, Option.isSome_iff_exists]
    rfl
  have hdirs (k : Location ν) : k ∈ m.dirs.keys ↔ m.isDir k = true := by
    rw [SortedMap.mem_keys_iff, isDir, SortedMap.contains, Option.isSome_iff_exists]
  simp only [isPopulated, Bool.or_eq_true, List.any_eq_true, Bool.and_eq_true, bne_iff_ne, hfiles,
    hdirs]
  constructor
  · rintro (⟨k, hfile, hwithin⟩ | ⟨k, hdir, hne, hwithin⟩)
    · refine ⟨k, hwithin, fun heq => ?_, .inl hfile⟩
      rw [heq, hself] at hfile
      cases hfile
    · exact ⟨k, hwithin, hne, .inr hdir⟩
  · rintro ⟨k, hwithin, hne, hfile | hdir⟩
    · exact .inl ⟨k, hfile, hwithin⟩
    · exact .inr ⟨k, hdir, hne, hwithin⟩

/-- Where nothing lies below the path a deletion does as much as a recursive one. -/
theorem run_delete_of_childless (h : m.Unmixed)
    (hbelow : ∀ k, k.isWithin p.components = true → k ≠ p.components → ¬ m.Occupied k) :
    (fileSystem.delete p false).run m = (fileSystem.delete p true).run m := by
  cases hdir : m.isDir p.components with
  | false => simp [Action.run, fileSystem, hdir]
  | true =>
    have hpopulated : m.isPopulated p.components = false := by
      refine Bool.eq_false_iff.2 fun hpopulated => ?_
      obtain ⟨k, hwithin, hne, hthere⟩ := (isPopulated_iff (h _ hdir)).1 hpopulated
      exact hbelow k hwithin hne hthere
    simp [Action.run, fileSystem, hpopulated]

end Memory

/-! ## One state mirrors the other -/

namespace Memory

open Location FileSystem

variable {origin d d' : Disk} {root p src dst : Path} {m m' : Memory} {names : List String}
  {bytes : Bytes} {id : Nat}

/-- Beneath the root the disk has the files and directories that the tree has, and the tree has
nothing else. -/
structure Mirrors (origin : Disk) (root : Path) (d : Disk) (m : Memory) : Prop where
  beneath : origin.Beneath root d
  data : ∀ names, m.data? (fromRoot names) = d.data? (root.place ++ names)
  isDir : ∀ names, m.isDir (fromRoot names) = d.isDirAt (root.place ++ names)
  rooted : ∀ l, m.Occupied l → ∃ names, l = fromRoot names

/-- The tree in which the root is the only directory. -/
def bare : Memory := empty.addDir ⟨"/"⟩

theorem isDir_bare {l : Location} : bare.isDir l = true ↔ l = fromRoot [] := by
  have hroot : (Path.mk "/").components = fromRoot [] := rfl
  rw [bare, isDir_addDir, hroot]
  refine or_iff_left fun h => ?_
  rcases h with hempty | habove
  · cases hempty
  · cases habove

theorem mirrors_bare (h : origin.EmptyAt root) : Mirrors origin root origin bare where
  beneath := h.beneath
  data names := by
    have hnone : origin.data? (root.place ++ names) = none := by
      by_cases hnil : names = []
      · rw [hnil, List.append_nil, Disk.data?, (Disk.find_eq_ok_iff.1 h.find).2.2.1]
      · rw [Disk.data?, h.below names hnil]
    rw [hnone]
    rfl
  isDir names := by
    rw [Bool.eq_iff_iff, isDir_bare, fromRoot_injective, Disk.isDirAt_iff]
    by_cases hnil : names = []
    · rw [hnil, List.append_nil, (Disk.find_eq_ok_iff.1 h.find).2.2.1]
      simp
    · rw [h.below names hnil]
      simp [hnil]
  rooted l hl := by
    rcases hl with hfile | hdir
    · cases hfile
    · exact ⟨[], isDir_bare.1 hdir⟩

namespace Mirrors

variable (h : Mirrors origin root d m)

include h

theorem occupied_iff : m.Occupied (fromRoot names) ↔
    (d.node? (root.place ++ names)).isSome = true := by
  rw [Occupied, h.data, h.isDir, Disk.isSome_node?_iff]

theorem unmixed : m.Unmixed := by
  intro l hl
  obtain ⟨names, rfl⟩ := h.rooted l (.inr hl)
  rw [h.isDir, Disk.isDirAt_iff] at hl
  rw [h.data, Disk.data?, hl]

theorem grounded : m.Grounded := by
  intro l hl a ha
  obtain ⟨names, rfl⟩ := h.rooted l hl
  obtain ⟨ms, hms, hne, rfl⟩ := mem_ancestors_fromRoot.1 ha
  rw [h.isDir]
  exact h.beneath.isDirAt_above (h.occupied_iff.1 hl) hms hne

/-- A file that is put under the same names on both sides leaves one state that mirrors the
other. -/
theorem files (hnames : ∀ name ∈ names, Path.IsPlain name)
    (hfiles : d.Files root names id bytes d') (hputs : Puts (fromRoot names) bytes m m') :
    Mirrors origin root d' m' where
  beneath := h.beneath.files hnames hfiles
  data ms := by
    rw [hputs.data, hfiles.data?, h.data]
    simp only [fromRoot_injective, List.append_cancel_left_eq]
  isDir ms := by
    rw [Bool.eq_iff_iff, hputs.isDir, hfiles.isDir, h.isDir, mem_ancestors_fromRoot]
    simp only [fromRoot_injective, List.append_cancel_left_eq]
  rooted l hl := by
    rcases hl with hfile | hdir
    · rw [hputs.data] at hfile
      split at hfile
      · next heq => exact ⟨names, heq⟩
      · exact h.rooted l (.inl hfile)
    · rcases (hputs.isDir l).1 hdir with hold | hnew
      · exact h.rooted l (.inr hold)
      · obtain ⟨ms, _, _, hl⟩ := mem_ancestors_fromRoot.1 hnew
        exact ⟨ms, hl⟩

/-- What goes under the same names on both sides leaves one state that mirrors the other. -/
theorem clears (hp : p.components = fromRoot names)
    (hclears : d.Clears (root.place ++ names) d') (hpruned : Pruned [p] m m') :
    Mirrors origin root d' m' := by
  have hwithin (l : Location) :
      [p].any (l.isWithin ·.components) = l.isWithin (fromRoot names) := by
    rw [List.any_cons, List.any_nil, Bool.or_false, hp]
  have hdata (l : Location) :
      m'.data? l = if l.isWithin (fromRoot names) = true then none else m.data? l := by
    rw [data?, hpruned.file, hwithin]
    split <;> rfl
  refine ⟨h.beneath.clears hclears, fun ms => ?_, fun ms => ?_, fun l hl => h.rooted l ?_⟩
  · rw [hdata, h.data, Disk.data?, Disk.data?, hclears.node?]
    simp only [isWithin_fromRoot_iff, List.prefix_append_right_inj]
    split <;> rfl
  · rw [Bool.eq_iff_iff, hpruned.isDir, hwithin, h.isDir, Disk.isDirAt_iff, hclears.node?]
    simp only [List.prefix_append_right_inj]
    simp only [← isWithin_fromRoot_iff, Bool.and_eq_true, Bool.not_eq_true', Disk.isDirAt_iff]
    cases (fromRoot ms).isWithin (fromRoot names) <;> simp
  · rcases hl with hfile | hdir
    · rw [hdata] at hfile
      split at hfile
      · cases hfile
      · exact .inl hfile
    · rw [hpruned.isDir, Bool.and_eq_true] at hdir
      exact .inr hdir.1

/-- How often files have been opened does not show. -/
theorem opened (opens : Nat) : Mirrors origin root d { m with opens := opens } :=
  ⟨h.beneath, h.data, h.isDir, h.rooted⟩

/-! ## One operation -/

theorem putFile (hp : p.FromRoot)
    (hrun : ((LocalStore.rooted root).putFile p bytes).run d = (.ok (), d')) :
    ∃ m', (fileSystem.putFile p bytes).run m = (.ok (), m') ∧ Mirrors origin root d' m' := by
  obtain ⟨id, hfiles⟩ := LocalStore.putFile_eq_ok h.beneath hp.no_parent hrun
  have hdir : m.isDir p.components = false := by
    rw [hp.components, h.isDir]
    refine Bool.eq_false_iff.2 fun hdir => ?_
    have hstays := hfiles.grows.isDir _ hdir
    rw [Disk.isDirAt_eq_false hfiles.node?] at hstays
    cases hstays
  obtain ⟨m', hput, hputs⟩ := run_putFile hdir bytes
  rw [hp.components] at hputs
  exact ⟨m', hput, h.files (fun _ => Path.isPlain_of_mem_stack) hfiles hputs⟩

theorem contents (hp : p.FromRoot)
    (hrun : ((LocalStore.rooted root).contents p).run d = (.ok bytes, d')) :
    ∃ m', (fileSystem.contents p).run m = (.ok bytes, m') ∧ Mirrors origin root d' m' := by
  obtain ⟨rfl, place, id, hfind⟩ := LocalStore.contents_eq_ok ⟨some root⟩ h.beneath.sound hrun
  rw [LocalStore.resolve_rooted hp.no_parent,
    h.beneath.find_iff fun _ => Path.isPlain_of_mem_stack] at hfind
  have hdata : m.data? p.components = some bytes := by
    rw [hp.components, h.data]
    exact Disk.data?_eq_some_iff.2 ⟨id, hfind.2⟩
  exact ⟨_, run_contents hdata, h.opened _⟩

theorem children_perm (names : List String) :
    ((d.childrenAt (root.place ++ names)).map LocalStore.entryOf).Perm
      (m.children (fromRoot names)) := by
  have hnames := (nodup_children_iff (m.legible_of_text (fromRoot names))).2 fun name =>
    h.unmixed.not_mixed _
  have hentries := LocalStore.nodup_entriesAt d (root.place ++ names)
  refine (List.perm_ext_iff_of_nodup hentries (List.Nodup.of_map _ hnames)).2 fun entry => ?_
  rw [LocalStore.mem_entriesAt, mem_children]
  simp only [fromRoot_concat, h.data, h.isDir, List.append_assoc, Path.shown_eq]

theorem list (hp : p.FromRoot) {listing : List Entry}
    (hrun : ((LocalStore.rooted root).list p).run d = (.ok listing, d')) :
    d' = d ∧ ∃ listing', (fileSystem.list p).run m = (.ok listing', m) ∧
      listing.Perm listing' := by
  rw [LocalStore.run_list] at hrun
  obtain ⟨hlist, rfl⟩ := Prod.mk.inj hrun
  unfold LocalStore.answers at hlist
  dsimp only at hlist
  split at hlist
  · cases hlist
  · cases hlist
  · next place hfind =>
    cases hlist
    rw [LocalStore.resolve_rooted hp.no_parent,
    h.beneath.find_iff fun _ => Path.isPlain_of_mem_stack] at hfind
    obtain ⟨rfl, hnode⟩ := hfind
    have hdir : m.isDir p.components = true := by
      rw [hp.components, h.isDir]
      exact Disk.isDirAt_iff.2 hnode
    have hfile : m.file? p.components = none := Option.map_eq_none_iff.1 (h.unmixed _ hdir)
    have hperm := h.children_perm p.place
    rw [← hp.components] at hperm
    refine ⟨rfl, _, ?_, hperm⟩
    simp [Action.run, fileSystem, Memory.list, hfile, hdir]

theorem copy (hsrc : src.FromRoot) (hdst : dst.FromRoot) (hne : src.components ≠ dst.components)
    (hrun : ((LocalStore.rooted root).copy src dst).run d = (.ok (), d')) :
    ∃ m', (fileSystem.copy src dst).run m = (.ok (), m') ∧ Mirrors origin root d' m' := by
  rw [hsrc.components, hdst.components, ne_eq, fromRoot_injective] at hne
  obtain ⟨id, bytes, hdata, hfiles⟩ :=
    LocalStore.copy_eq_ok h.beneath hsrc.no_parent hdst.no_parent hne hrun
  rw [← h.data, ← hsrc.components] at hdata
  obtain ⟨f, hfile, rfl⟩ := Option.map_eq_some_iff.1 hdata
  have hcopy : (fileSystem.copy src dst).run m = (.ok (), m.addFile dst f.data) := by
    simp [Action.run, fileSystem, hfile]
  have hputs := puts_addFile m dst f.data
  rw [hdst.components] at hputs
  exact ⟨_, hcopy, h.files (fun _ => Path.isPlain_of_mem_stack) hfiles hputs⟩

theorem isPresent (hp : p.FromRoot) :
    fileSystem.isPresent p m = (LocalStore.rooted root).isPresent p d := by
  rw [LocalStore.isPresent_rooted h.beneath hp.no_parent, Bool.eq_iff_iff, ← h.occupied_iff,
    ← hp.components, isPresent_iff_occupied]

theorem delete (hp : p.FromRoot) {recursive answer : Bool}
    (hrun : ((LocalStore.rooted root).delete p recursive).run d = (.ok answer, d')) :
    ∃ m', (fileSystem.delete p recursive).run m = (.ok answer, m') ∧
      Mirrors origin root d' m' := by
  obtain ⟨hanswer, hbelow, hclears⟩ := LocalStore.delete_eq_ok h.beneath hp.no_parent hrun
  have hne : p.components ≠ [] := by
    rw [hp.components]
    exact List.cons_ne_nil _ _
  have hpresent : fileSystem.isPresent p m = answer := by
    rw [h.isPresent hp, LocalStore.isPresent_rooted h.beneath hp.no_parent, hanswer]
  have hrecursive : (fileSystem.delete p recursive).run m = (fileSystem.delete p true).run m := by
    cases recursive with
    | true => rfl
    | false =>
      refine run_delete_of_childless h.unmixed fun l hwithin hself hthere => ?_
      obtain ⟨ms, rfl⟩ := h.rooted l hthere
      rw [hp.components, isWithin_fromRoot_iff] at hwithin
      rw [hp.components, ne_eq, fromRoot_injective] at hself
      rw [h.occupied_iff, hbelow rfl ms hwithin hself] at hthere
      cases hthere
  refine ⟨_, ?_, h.clears hp.components hclears (pruned_clear h.grounded h.unmixed hne)⟩
  rw [hrecursive, run_delete_recursive, hpresent]

/-- What one operation gives on the disk it gives on the tree too. -/
theorem perform {operation : Operation} (hop : operation.FromRoot) {answer : Answer}
    (hrun : ((LocalStore.rooted root).perform operation).run d = (.ok answer, d')) :
    ∃ answer' m', (fileSystem.perform operation).run m = (.ok answer', m') ∧ answer.Same answer' ∧
      Mirrors origin root d' m' := by
  unfold FileSystem.perform at hrun ⊢
  cases operation with
  | put p bytes =>
    obtain ⟨_, _, hput, hend⟩ := run_bind_eq_ok_iff.1 hrun
    cases hend
    obtain ⟨m', hput', h'⟩ := h.putFile hop hput
    exact ⟨_, m', run_bind_of_ok hput', .refl _, h'⟩
  | read p =>
    obtain ⟨bytes, _, hread, hend⟩ := run_bind_eq_ok_iff.1 hrun
    cases hend
    obtain ⟨m', hread', h'⟩ := h.contents hop hread
    exact ⟨_, m', run_bind_of_ok hread', .refl _, h'⟩
  | list p =>
    obtain ⟨listing, _, hlist, hend⟩ := run_bind_eq_ok_iff.1 hrun
    cases hend
    obtain ⟨rfl, listing', hlist', hperm⟩ := h.list hop hlist
    exact ⟨_, m, run_bind_of_ok hlist', .listing hperm, h⟩
  | copy src dst =>
    obtain ⟨_, _, hcopy, hend⟩ := run_bind_eq_ok_iff.1 hrun
    cases hend
    obtain ⟨m', hcopy', h'⟩ := h.copy hop.1 hop.2.1 hop.2.2 hcopy
    exact ⟨_, m', run_bind_of_ok hcopy', .refl _, h'⟩
  | delete p recursive =>
    obtain ⟨flag, _, hdelete, hend⟩ := run_bind_eq_ok_iff.1 hrun
    cases hend
    obtain ⟨m', hdelete', h'⟩ := h.delete hop hdelete
    exact ⟨_, m', run_bind_of_ok hdelete', .refl _, h'⟩
  | isPresent p =>
    cases hrun
    rw [← h.isPresent hop]
    exact ⟨_, m, rfl, .refl _, h⟩

omit h in
/-- What some operations give on the disk one after the other they give on the tree too. -/
theorem performAll (h : Mirrors origin root d m) {operations : List Operation}
    (hops : ∀ operation ∈ operations, operation.FromRoot) {answers : List Answer}
    (hrun : ((LocalStore.rooted root).performAll operations).run d = (.ok answers, d')) :
    ∃ answers' m', (fileSystem.performAll operations).run m = (.ok answers', m') ∧
      List.Forall₂ Answer.Same answers answers' ∧ Mirrors origin root d' m' := by
  induction operations generalizing d m answers with
  | nil =>
    cases hrun
    exact ⟨[], m, rfl, .nil, h⟩
  | cons operation operations ih =>
    rw [List.forall_mem_cons] at hops
    unfold FileSystem.performAll at hrun ⊢
    rw [List.mapM_cons] at hrun ⊢
    obtain ⟨answer, u, hfirst, hrest⟩ := run_bind_eq_ok_iff.1 hrun
    obtain ⟨answers, _, hrest, hend⟩ := run_bind_eq_ok_iff.1 hrest
    cases hend
    obtain ⟨answer', n, hfirst', hsame, hn⟩ := h.perform hops.1 hfirst
    obtain ⟨answers', n', hrest', hsames, hn'⟩ := ih hn hops.2 hrest
    refine ⟨answer' :: answers', n', ?_, .cons hsame hsames, hn'⟩
    rw [run_bind_of_ok hfirst']
    exact run_bind_of_ok hrest'

end Mirrors

/-! ## Whole runs -/

/-- Operations that succeed one after the other on a disk whose root is an empty directory succeed
with the same answers on a tree that starts with its root alone. -/
theorem follows_rooted_disk (h : origin.EmptyAt root) {operations : List Operation}
    (hops : ∀ operation ∈ operations, operation.FromRoot) {answers : List Answer}
    (hrun : ((LocalStore.rooted root).performAll operations).run origin = (.ok answers, d)) :
    ∃ answers' m, (fileSystem.performAll operations).run bare = (.ok answers', m) ∧
      List.Forall₂ Answer.Same answers answers' := by
  obtain ⟨answers', m, hrun', hsame, _⟩ := (mirrors_bare h).performAll hops hrun
  exact ⟨answers', m, hrun', hsame⟩

/-- A file is put below a directory and copied, then the root is deleted and comes back with another
file. -/
def yardOperations : List Operation :=
  [.put ⟨"/a/x"⟩ [1], .copy ⟨"/a/x"⟩ ⟨"/b/y"⟩, .read ⟨"/b/y"⟩, .delete ⟨"/"⟩ true,
    .isPresent ⟨"/"⟩, .put ⟨"/z"⟩ [2, 3], .list ⟨"/"⟩]

def yardAnswers : List Answer :=
  [.done, .done, .bytes [1], .flag true, .flag false, .done, .listing [Entry.file "z" 2]]

theorem emptyAt_yardDisk : LocalStore.yardDisk.EmptyAt ⟨"/data"⟩ where
  sound := Disk.sound_empty.put_dir (List.cons_ne_nil _ _)
  find := rfl
  below names hnames := by
    have hplace : (Path.mk "/data").place = ["data"] := rfl
    rw [hplace, LocalStore.yardDisk, Disk.put, Disk.node?_insert (List.cons_ne_nil _ _), if_neg]
    · rfl
    · exact fun heq => hnames (List.append_right_eq_self.1 heq)

theorem root_comes_back_on_both :
    LocalStore.yardDisk.EmptyAt ⟨"/data"⟩ ∧ (∀ operation ∈ yardOperations, operation.FromRoot) ∧
      (((LocalStore.rooted ⟨"/data"⟩).performAll yardOperations).run LocalStore.yardDisk).1 =
        .ok yardAnswers ∧
      ∃ answers m, (fileSystem.performAll yardOperations).run bare = (.ok answers, m) ∧
        List.Forall₂ Answer.Same yardAnswers answers := by
  have hops : ∀ operation ∈ yardOperations, operation.FromRoot := by decide
  have hrun :
      (((LocalStore.rooted ⟨"/data"⟩).performAll yardOperations).run LocalStore.yardDisk).1 =
        .ok yardAnswers := by decide +kernel
  refine ⟨emptyAt_yardDisk, hops, hrun, ?_⟩
  rcases hend :
    ((LocalStore.rooted ⟨"/data"⟩).performAll yardOperations).run LocalStore.yardDisk with
    ⟨outcome, d⟩
  rw [hend] at hrun
  subst hrun
  exact follows_rooted_disk emptyAt_yardDisk hops hend

end Memory
end OffloadCheck
