import OffloadCheck.Proofs.Descents
import OffloadCheck.Proofs.Operations
import OffloadCheck.Proofs.Removal

/-! # What a teardown may delete

A session that is closed, and one that fails to open, remove directories with all that is below
them. Beneath a root a directory leads strictly below it as soon as one of its components is a name,
and then its removal leaves the root alone; the root itself is what a path without a name leads to.
Settings that are accepted give the directory of the artifact a name, but not that of resources. -/
namespace OffloadCheck

open OffloadCheck.Action

variable {σ : Type}

/-! ## Names among components -/

namespace Location

/-- The names among the components, from left to right. -/
def names {ν : Type} (l : Location ν) : List ν :=
  l.filterMap fun
    | .normal name => some name
    | _ => none

theorem mem_names {l : Location} {name : String} : name ∈ l.names ↔ .normal name ∈ l := by
  rw [names, List.mem_filterMap]
  constructor
  · intro h
    obtain ⟨c, hc, hname⟩ := h
    split at hname
    · cases hname
      exact hc
    · cases hname
  · intro h
    exact ⟨_, h, rfl⟩

/-- Without `..` the stack is made of the names. -/
theorem stackFrom_eq_names {l : Location} (h : .parent ∉ l) (s : List String) :
    stackFrom s l = s ++ l.names := by
  induction l generalizing s with
  | nil => exact (List.append_nil s).symm
  | cons c l ih =>
    rw [List.mem_cons, not_or] at h
    have hrest := ih h.2
    cases c with
    | root => exact hrest s
    | current => exact hrest s
    | parent => exact absurd rfl h.1
    | normal name =>
      change stackFrom (s ++ [name]) l = s ++ name :: names l
      rw [hrest, List.append_assoc]
      rfl

end Location

namespace Path

/-- One of the components is a name. -/
def Named (p : Path) : Prop := ∃ name, .normal name ∈ p.components

theorem named_iff {p : Path} : p.Named ↔ p.components.names ≠ [] := by
  constructor
  · intro h
    obtain ⟨name, hname⟩ := h
    exact List.ne_nil_of_mem (Location.mem_names.2 hname)
  · intro h
    obtain ⟨name, hname⟩ := List.exists_mem_of_ne_nil _ h
    exact ⟨name, Location.mem_names.1 hname⟩

instance (p : Path) : Decidable p.Named := decidable_of_iff _ named_iff.symm

theorem stack_eq_names {p : Path} (h : p.mentionsParent = false) :
    p.components.stack = p.components.names := by
  refine (Location.stackFrom_eq_names (fun hparent => ?_) []).trans (List.nil_append _)
  rw [mentionsParent, List.contains_iff_mem.2 hparent] at h
  cases h

end Path

/-! ## Places on a disk -/

namespace LocalStore

/-- The place of the root on the disk; a store without a root has all of the disk. -/
def rootPlace (store : LocalStore) : List String :=
  match store.root with
  | none => []
  | some root => root.components.stack

theorem stack_resolve (store : LocalStore) (p : Path) :
    (store.resolve p).components.stack = store.rootPlace ++ p.components.stack := by
  unfold resolve rootPlace
  cases store.root with
  | none => rfl
  | some root =>
    change (p.resolveUnder root).components.stack = _
    rw [p.components_resolveUnder root]
    change Location.stackFrom [] _ = _
    rw [Location.stackFrom_append, Location.stackFrom_map_normal]
    rfl

end LocalStore

namespace Disk

variable {d : Disk} {p : Path} {place q : List String}

theorem step_eq_ok {piece : List Char} (hpiece : piece ≠ []) (h : d.step place piece = .ok q) :
    q = Location.stackFrom place ([piece].filterMap Path.component?) := by
  unfold Disk.step at h
  split at h
  · cases h
  · split at h
    · next hdot =>
      subst hdot
      cases h
      rfl
    · next hdot =>
      split at h
      · next hdots =>
        subst hdots
        cases h
        rfl
      · next hdots =>
        rw [List.filterMap_cons, Path.component?_of_ne hpiece hdot hdots]
        dsimp only at h
        split at h
        · cases h
        · split at h
          · cases h
          · cases h
            rfl

/-- Where a walk ends is told by the pieces that it goes through. -/
theorem walk_eq_ok {path : List (List Char)} (hpath : [] ∉ path) (h : d.walk place path = .ok q) :
    q = Location.stackFrom place (path.filterMap Path.component?) := by
  induction path generalizing place with
  | nil =>
    cases h
    rfl
  | cons piece path ih =>
    rw [List.mem_cons, not_or] at hpath
    obtain ⟨next, hstep, hrest⟩ := walk_cons_eq_ok_iff.1 h
    rw [ih hpath.2 hrest, step_eq_ok (Ne.symm hpath.1) hstep, ← Location.stackFrom_append,
      ← List.filterMap_append]
    rfl

theorem nil_not_mem_pieces (p : Path) : [] ∉ pieces p := by
  intro h
  exact of_decide_eq_true (List.mem_filter.1 h).2 rfl

/-- The root and a leading dot leave no trace on the stack, and neither do empty pieces. -/
theorem stack_eq (p : Path) :
    p.components.stack = Location.stackFrom [] ((pieces p).filterMap Path.component?) :=
  Path.foldl_components (fun _ => rfl) (fun _ => rfl) p []

/-- A path leads nowhere but to the place that its components tell. -/
theorem place_of_find {node : DiskNode} (h : d.find p = .ok (place, node)) :
    place = p.components.stack := by
  rw [stack_eq]
  exact walk_eq_ok (nil_not_mem_pieces p) (find_eq_ok_iff.1 h).2.1

theorem LeadsTo.eq_stack {name : String} (h : d.LeadsTo p place name) :
    place ++ [name] = p.components.stack := by
  obtain ⟨front, last, hpieces, hwalk, hdot, hdots, rfl⟩ := h.pieces
  have hempty := nil_not_mem_pieces p
  rw [hpieces, List.mem_append, List.mem_singleton, not_or] at hempty
  rw [stack_eq, hpieces, List.filterMap_append, Location.stackFrom_append,
    ← walk_eq_ok hempty.1 hwalk, List.filterMap_cons,
    Path.component?_of_ne (Ne.symm hempty.2) hdot hdots]
  rfl

/-! ## Removals on a disk -/

/-- A directory stays as long as its node does. -/
theorem isDirAt_of_get? {d' : Disk} (h : d.isDirAt q = true)
    (hkept : d.nodes.get? q = some .dir → d'.nodes.get? q = some .dir) : d'.isDirAt q = true := by
  rw [isDirAt_iff] at h ⊢
  unfold node? at h ⊢
  split at h
  · next htop => rw [if_pos htop]
  · next htop => rw [if_neg htop, hkept h]

theorem isDirAt_removeAt (h : d.isDirAt q = true) (hq : q ≠ place) :
    (d.removeAt place).isDirAt q = true := by
  refine isDirAt_of_get? h fun hdir => ?_
  rw [removeAt, SortedMap.get?_erase,
    if_neg fun heq => hq (Std.LawfulEqOrd.eq_of_compare heq).symm, hdir]

theorem isDirAt_removeBelow (h : d.isDirAt q = true) (hq : ¬ place <+: q) :
    (d.removeBelow place).isDirAt q = true := by
  refine isDirAt_of_get? h fun hdir => ?_
  have hkept : place.isPrefixOf q = false :=
    Bool.eq_false_iff.2 fun hprefix => hq (List.isPrefixOf_iff_prefix.1 hprefix)
  rw [removeBelow, SortedMap.get?_filter, hdir]
  simp [hkept]

/-- Removing a directory leaves those in other places. -/
theorem sustains_isDirAt_removeDir (hq : q ≠ p.components.stack) :
    Sustains (fun d => d.isDirAt q = true) (removeDir p) := by
  refine sustains_of_state fun d hd => ?_
  simp only [Action.run, removeDir]
  split
  · exact hd
  · exact hd
  · exact hd
  · exact hd
  · next place name hparent =>
    split
    · exact hd
    · exact hd
    · split
      · refine isDirAt_removeAt hd ?_
        rwa [(findParent_eq_ok hparent).eq_stack]
      · exact hd

/-- Removing a tree leaves the directories that are not at or below the place of its path. -/
theorem sustains_isDirAt_removeTree (hq : ¬ p.components.stack <+: q) :
    Sustains (fun d => d.isDirAt q = true) (removeTree p) := by
  refine Preserves.bind_of_run preserves_world fun {d u _} _ hworld => ?_
  cases hworld
  refine (sustains_ofExcept _).bind_of_run fun {_ found _} _ hfound => ?_
  have hplace : found.1 = p.components.stack := place_of_find (congrArg Prod.fst hfound)
  have hbelow (d : Disk) (hd : d.isDirAt q = true) : (d.removeBelow found.1).isDirAt q = true :=
    isDirAt_removeBelow hd (hplace ▸ hq)
  refine (preserves_change hbelow).bind fun _ => ?_
  have hdir : q ≠ p.components.stack := fun heq => hq (heq ▸ List.prefix_refl q)
  refine (sustains_isDirAt_removeDir hdir).attempt.bind fun outcome => ?_
  split
  · exact preserves_pure ()
  · exact sustains_ofExcept _

end Disk

namespace LocalStore

variable {store : LocalStore} {p : Path} {q : List String}

theorem isPresent_fileSystem (store : LocalStore) (p : Path) (d : Disk) :
    store.fileSystem.isPresent p d = d.isPresent (store.resolve p) :=
  rfl

theorem sustains_isDirAt_delete (hq : ¬ (store.resolve p).components.stack <+: q)
    (recursive : Bool) :
    Sustains (fun d => d.isDirAt q = true) (store.fileSystem.delete p recursive) := by
  have hself : q ≠ (store.resolve p).components.stack := fun heq => hq (heq ▸ List.prefix_refl q)
  refine Preserves.bind_of_run preserves_world fun {d u _} _ hworld => ?_
  cases hworld
  split
  · exact preserves_pure _
  · exact preserves_fail trivial
  · next place id data hfind =>
    have hat (d : Disk) (hd : d.isDirAt q = true) : (d.removeAt place).isDirAt q = true :=
      Disk.isDirAt_removeAt hd (Disk.place_of_find hfind ▸ hself)
    exact (preserves_change hat).bind fun _ => preserves_pure _
  · split
    · have htree := Disk.sustains_isDirAt_removeTree hq
      exact (sustains_mapError htree _).bind fun _ => preserves_pure _
    · refine preserves_world.bind fun u => ?_
      split
      · exact preserves_fail trivial
      · have hdir := Disk.sustains_isDirAt_removeDir hself
        exact (sustains_mapError hdir _).bind fun _ => preserves_pure _

/-- Clearing a path leaves the directories that are not at or below the place it denotes. -/
theorem isDirAt_clear {d : Disk} (h : d.isDirAt q = true)
    (hq : ¬ store.rootPlace ++ p.components.stack <+: q) :
    (store.fileSystem.clear p d).isDirAt q = true := by
  rw [← store.stack_resolve] at hq
  unfold FileSystem.clear
  split
  · exact (sustains_isDirAt_delete hq true d h).1
  · exact h

/-- A disk on which the root of a store is a directory below the top. -/
def yardStore : LocalStore := ⟨some ⟨"/data"⟩⟩

def yardDisk : Disk := Disk.empty.put ["data"] .dir

/-- A path without a name leads to the root, so clearing it removes the root. -/
theorem not_isDirAt_clear (hparent : p.mentionsParent = false) (h : ¬ p.Named) :
    (yardStore.fileSystem.clear p yardDisk).isDirAt yardStore.rootPlace = false := by
  have hstack : p.components.stack = [] := by
    rw [Path.stack_eq_names hparent]
    exact Decidable.not_not.1 (mt Path.named_iff.2 h)
  have hresolve : yardStore.resolve p = ⟨"/data"⟩ := by
    refine (Path.resolveUnder_eq_foldl_join (fun hmem => ?_) ⟨"/data"⟩).trans ?_
    · rw [Path.mentionsParent, List.contains_iff_mem.2 hmem] at hparent
      cases hparent
    · rw [hstack]
      rfl
  have hpresent : yardStore.fileSystem.isPresent p yardDisk = true := by
    rw [isPresent_fileSystem, hresolve]
    decide
  rw [FileSystem.clear, if_pos hpresent]
  unfold fileSystem
  dsimp only
  rw [hresolve]
  rfl

end LocalStore

namespace Memory

variable {m : Memory} {p : Path}

/-- Only a path that is the root or nothing at all denotes something at or above the root. -/
theorem isDir_root_clear (h : m.isDir [.root] = true) (hnil : p.components ≠ [])
    (hroot : p.components ≠ [.root]) : (fileSystem.clear p m).isDir [.root] = true := by
  -- The root lies within itself and within the empty location, and nowhere else.
  have houtside : Location.isWithin [.root] p.components = false := by
    refine Bool.eq_false_iff.2 fun hwithin => ?_
    obtain ⟨below, hbelow⟩ := Location.isWithin_iff.1 hwithin
    rcases List.append_eq_singleton_iff.1 hbelow.symm with ⟨hp, _⟩ | ⟨hp, _⟩
    · exact hnil hp
    · exact hroot hp
  unfold FileSystem.clear
  split
  · rcases m.delete_cases p true with hrun | hrun | hrun
    · rwa [hrun]
    · rw [hrun]
      exact h
    · rw [hrun, isDir_without, h, houtside]
      rfl
  · exact h

/-- A tree in which the root and the empty path are directories. -/
def yard : Memory := (empty.addDir ⟨"/"⟩).addDir ⟨""⟩

theorem not_isDir_root_clear (h : p.components = [] ∨ p.components = [.root]) :
    (fileSystem.clear p yard).isDir [.root] = false := by
  have hdir : yard.isDir p.components = true := by
    rcases h with h | h
    · rw [h]
      decide
    · rw [h]
      decide
  have hwithin : Location.isWithin [.root] p.components = true := by
    rcases h with h | h
    · rw [h]
      rfl
    · rw [h]
      rfl
  rw [clear_of_isDir rfl hdir, isDir_without, hwithin, Bool.not_true, Bool.and_false]

end Memory

/-! ## Paths that spare roots -/

namespace Path

variable {p : Path}

/-- Beneath every root the path leads strictly below it. -/
def LeadsBelow (p : Path) : Prop :=
  ∀ root, ∃ names, names ≠ [] ∧
    (p.resolveUnder root).components = root.components ++ names.map .normal

/-- Clearing the path on a disk leaves the root of the store. -/
def SparesDiskRoots (p : Path) : Prop :=
  ∀ (store : LocalStore) (d : Disk), d.isDirAt store.rootPlace = true →
    (store.fileSystem.clear p d).isDirAt store.rootPlace = true

/-- Clearing the path in a memory tree leaves the root. -/
def SparesMemoryRoots (p : Path) : Prop :=
  ∀ m : Memory, m.isDir [.root] = true → (Memory.fileSystem.clear p m).isDir [.root] = true

theorem leadsBelow_iff (hparent : p.mentionsParent = false) : p.LeadsBelow ↔ p.Named := by
  rw [named_iff, ← stack_eq_names hparent]
  constructor
  · intro h
    obtain ⟨names, hnames, hroot⟩ := h ⟨"/"⟩
    rw [components_resolveUnder, List.append_cancel_left_eq,
      List.map_inj_right fun _ _ => Component.normal.inj] at hroot
    rwa [hroot]
  · intro h root
    exact ⟨_, h, p.components_resolveUnder root⟩

theorem Named.not_prefix (hparent : p.mentionsParent = false) (h : p.Named) (q : List String) :
    ¬ q ++ p.components.stack <+: q := by
  intro hprefix
  have hlength := hprefix.length_le
  rw [named_iff, ← stack_eq_names hparent] at h
  have hpos := List.length_pos_iff.2 h
  rw [List.length_append] at hlength
  omega

theorem sparesDiskRoots_iff (hparent : p.mentionsParent = false) :
    p.SparesDiskRoots ↔ p.Named := by
  constructor
  · intro h
    refine Decidable.not_not.1 fun hnamed => ?_
    have hstands := h LocalStore.yardStore LocalStore.yardDisk (by decide)
    rw [LocalStore.not_isDirAt_clear hparent hnamed] at hstands
    cases hstands
  · intro h store d hd
    exact LocalStore.isDirAt_clear hd (h.not_prefix hparent store.rootPlace)

theorem Named.sparesMemoryRoots (h : p.Named) : p.SparesMemoryRoots := by
  obtain ⟨name, hname⟩ := h
  intro m hm
  refine Memory.isDir_root_clear hm (List.ne_nil_of_mem hname) fun hroot => ?_
  rw [hroot, List.mem_singleton] at hname
  cases hname

theorem sparesMemoryRoots_iff :
    p.SparesMemoryRoots ↔ p.components ≠ [] ∧ p.components ≠ [.root] := by
  constructor
  · intro h
    rw [← not_or]
    intro hroot
    have hstands := h Memory.yard (by decide)
    rw [Memory.not_isDir_root_clear hroot] at hstands
    cases hstands
  · intro h m hm
    exact Memory.isDir_root_clear hm h.1 h.2

end Path

/-! ## Roots of a layout -/

variable {p : Path}

/-- A root that is not strictly below that of the store is left alone. -/
theorem LocalStore.isDirAt_clear_of_level {store : LocalStore} {d : Disk} {root : List String}
    (hparent : p.mentionsParent = false) (hnamed : p.Named)
    (hlevel : store.rootPlace <+: root → root = store.rootPlace) (h : d.isDirAt root = true) :
    (store.fileSystem.clear p d).isDirAt root = true := by
  refine isDirAt_clear h fun hprefix => ?_
  rw [hlevel ((List.prefix_append _ _).trans hprefix)] at hprefix
  exact hnamed.not_prefix hparent _ hprefix

namespace Store

variable {store other : Store σ} {w t : σ}

/-- The root of the store is a directory. -/
def RootStands : Store σ → σ → Prop
  | .memory part, w => (part.get w).isDir [.root] = true
  | .disk part store, w => (part.get w).isDirAt store.rootPlace = true

theorem RootStands.of_untouched (h : store.Untouched w t) (hw : store.RootStands w) :
    store.RootStands t := by
  cases store with
  | memory part =>
    have hget : part.get t = part.get w := h
    rwa [RootStands, hget]
  | disk part store =>
    have hget : part.get t = part.get w := h
    rwa [RootStands, hget]

theorem untouched_clear (h : store.Spares other) (p : Path) (w : σ) :
    other.Untouched w (store.fileSystem.clear p w) := by
  cases store with
  | memory part =>
    rw [fileSystem, part.clear_fileSystem]
    exact h _ _
  | disk part store =>
    rw [fileSystem, part.clear_fileSystem]
    exact h _ _

theorem RootStands.clear (hdisk : p.SparesDiskRoots) (hmemory : p.SparesMemoryRoots)
    (hw : store.RootStands w) : store.RootStands (store.fileSystem.clear p w) := by
  cases store with
  | memory part =>
    rw [fileSystem, part.clear_fileSystem, RootStands, part.get_put]
    exact hmemory _ hw
  | disk part store =>
    rw [fileSystem, part.clear_fileSystem, RootStands, part.get_put]
    exact hdisk store _ hw

end Store

namespace Layout

variable {source target : FileSystem σ} {w : σ}

/-- The roots of both filesystems are directories. -/
def RootsStand : Layout source target → σ → Prop
  | .apart build cluster _ _, w => build.RootStands w ∧ cluster.RootStands w
  | .inMemory tree, w => (tree.get w).isDir [.root] = true
  | .onDisk disk build cluster, w =>
    (disk.get w).isDirAt build.rootPlace = true ∧ (disk.get w).isDirAt cluster.rootPlace = true

theorem rootsStand_whole {build cluster : LocalStore} {d : Disk} :
    (onDisk Part.whole build cluster).RootsStand d ↔
      d.isDirAt build.rootPlace = true ∧ d.isDirAt cluster.rootPlace = true :=
  Iff.rfl

/-- On one disk neither root lies strictly below the other. -/
def RootsLevel : Layout source target → Prop
  | .onDisk _ build cluster =>
    (build.rootPlace <+: cluster.rootPlace → cluster.rootPlace = build.rootPlace) ∧
      (cluster.rootPlace <+: build.rootPlace → build.rootPlace = cluster.rootPlace)
  | _ => True

def symm : Layout source target → Layout target source
  | .apart build cluster hcluster hbuild => .apart cluster build hbuild hcluster
  | .inMemory tree => .inMemory tree
  | .onDisk disk build cluster => .onDisk disk cluster build

variable {layout : Layout source target}

theorem rootsStand_symm : layout.symm.RootsStand w ↔ layout.RootsStand w := by
  cases layout with
  | apart build cluster => exact and_comm
  | inMemory tree => exact Iff.rfl
  | onDisk disk build cluster => exact and_comm

theorem RootsLevel.symm (h : layout.RootsLevel) : layout.symm.RootsLevel := by
  cases layout with
  | apart build cluster => trivial
  | inMemory tree => trivial
  | onDisk disk build cluster => exact ⟨h.2, h.1⟩

section

variable (hparent : p.mentionsParent = false) (hnamed : p.Named) (hlevel : layout.RootsLevel)

include hparent hnamed hlevel

/-- Clearing a path with a name on one of the filesystems leaves the roots of both. -/
theorem RootsStand.clear_source (h : layout.RootsStand w) :
    layout.RootsStand (source.clear p w) := by
  have hdisk := (Path.sparesDiskRoots_iff hparent).2 hnamed
  have hmemory := hnamed.sparesMemoryRoots
  cases layout with
  | apart build cluster hcluster hbuild =>
    exact ⟨h.1.clear hdisk hmemory, h.2.of_untouched (Store.untouched_clear hcluster p w)⟩
  | inMemory tree =>
    have htree : (Store.memory tree).RootStands w := h
    exact htree.clear hdisk hmemory
  | onDisk disk build cluster =>
    -- Here clearing for one store changes the disk that holds the root of the other.
    have hbuild := (build.isDirAt_clear_of_level hparent hnamed fun _ => rfl) h.1
    have hcluster := (build.isDirAt_clear_of_level hparent hnamed hlevel.1) h.2
    have hget : disk.get ((disk.fileSystem build.fileSystem).clear p w) =
        build.fileSystem.clear p (disk.get w) := by
      rw [disk.clear_fileSystem, disk.get_put]
    rw [← hget] at hbuild hcluster
    exact ⟨hbuild, hcluster⟩

theorem RootsStand.clear_target (h : layout.RootsStand w) :
    layout.RootsStand (target.clear p w) :=
  rootsStand_symm.1 (RootsStand.clear_source hparent hnamed hlevel.symm (rootsStand_symm.2 h))

end

end Layout

/-! ## Sessions -/

/-- What is started and stopped in a launch keeps a property of the world. -/
structure Session.Parts.Sustains (parts : Session.Parts σ) (P : σ → Prop) : Prop where
  clusterStart : ∀ cluster, parts.cluster = some cluster →
    ∀ properties, Action.Sustains P (cluster.start properties)
  clusterStop : ∀ cluster, parts.cluster = some cluster → Action.Sustains P cluster.stop
  store : ∀ servers, parts.servers = some servers →
    ∀ config, Action.Sustains P (servers.store config)
  serversStart : ∀ servers, parts.servers = some servers →
    ∀ randomizedPorts, Action.Sustains P (servers.start randomizedPorts)

namespace Session

variable {session : Session σ} {settings : Settings}

/-- The directories that are deleted go without `..` in settings that are accepted. -/
theorem mentionsParent_of_validate (hvalid : settings.validate = .ok ()) :
    settings.sharedArtifactDir.mentionsParent = false ∧
      settings.resourcesDir.mentionsParent = false := by
  obtain ⟨_, _, _, hguarded⟩ := settings.fault?_eq_none_iff.1 (settings.validate_eq_ok_iff.1 hvalid)
  simp only [Settings.guardedDirs, List.forall_mem_cons] at hguarded
  exact ⟨hguarded.1, hguarded.2.2.1⟩

theorem named_shared_of_validate (hvalid : settings.validate = .ok ()) :
    settings.sharedArtifactDir.Named := by
  obtain ⟨above, name, hshared⟩ := Settings.shared_named hvalid
  exact ⟨name, by simp [hshared]⟩

theorem required_eq_ok {α : Type} {what : String} {part : Option α} {found : α}
    (h : required what part = .ok found) : part = some found := by
  cases part with
  | none => cases h
  | some a =>
    cases h
    rfl

theorem sustains_setUp {P : σ → Prop} {servers : Servers σ}
    (hstore : ∀ config, Action.Sustains P (servers.store config))
    (hstart : ∀ randomizedPorts, Action.Sustains P (servers.start randomizedPorts))
    (coordinator : Properties) (overrides : Option Properties) :
    Action.Sustains P (servers.setUp coordinator overrides) := by
  have hall (configs : List ServerConfig) : Action.Sustains P (servers.storeAll configs) := by
    induction configs with
    | nil => exact preserves_pure ()
    | cons config configs ih => exact (hstore config).bind fun _ => ih
  refine (hall _).bind fun _ => (hstart true).bind fun _ => preserves_world.bind fun w => ?_
  exact preserves_pure _

section

variable (hvalid : settings.validate = .ok ()) (hnamed : settings.resourcesDir.Named)

include hvalid hnamed

/-- Shutting a cluster down leaves the roots if stopping it does. -/
theorem rootsStand_clusterShutDown {clusterFs buildFs : FileSystem σ} {cluster : Cluster σ}
    {layout : Layout buildFs clusterFs} (hlevel : layout.RootsLevel)
    (hstop : Action.Sustains layout.RootsStand cluster.stop) {w : σ} (hw : layout.RootsStand w) :
    layout.RootsStand (cluster.shutDown buildFs settings.resourcesDir w) := by
  exact Layout.RootsStand.clear_source (mentionsParent_of_validate hvalid).2 hnamed hlevel
    (hstop w hw).1

/-- Closing a session leaves the roots if stopping its cluster and its servers does. -/
theorem rootsStand_close {layout : Layout session.buildFs session.clusterFs}
    (hsettings : session.settings = settings) (hlevel : layout.RootsLevel)
    (hservers : Action.Sustains layout.RootsStand session.servers.stop)
    (hcluster : Action.Sustains layout.RootsStand session.cluster.stop) {s : State σ}
    (hs : layout.RootsStand s.world) : layout.RootsStand (session.close s).world := by
  cases hopen : s.closed with
  | true =>
    rwa [close, if_pos hopen]
  | false =>
    rw [session.close_of_open hopen]
    subst hsettings
    have hstopped := rootsStand_clusterShutDown hvalid hnamed hlevel hcluster (hservers _ hs).1
    exact Layout.RootsStand.clear_target (mentionsParent_of_validate hvalid).1
      (named_shared_of_validate hvalid) hlevel hstopped

/-- A launch, whether or not it succeeds, leaves the roots if what it starts and stops does. -/
theorem sustains_rootsStand_launch {parts : Parts σ} {clusterFs : FileSystem σ}
    {layout : Layout (parts.buildFs.getD clusterFs) clusterFs}
    (hsettings : parts.settings.getD .default = settings)
    (hclusterFs : parts.clusterFs = some clusterFs) (hlevel : layout.RootsLevel)
    (hparts : parts.Sustains layout.RootsStand) (host : Host σ) (id : String) :
    Action.Sustains layout.RootsStand (launch parts host id) := by
  -- The settings and the parts are checked first, and the world is not touched by that.
  refine (sustains_ofExcept _).bind fun _ => ?_
  refine (sustains_ofExcept _).bind_of_run fun {_ cluster _} _ hcluster => ?_
  refine (sustains_ofExcept _).bind_of_run fun {_ servers _} _ hservers => ?_
  refine (sustains_ofExcept _).bind_of_run fun {_ found _} _ hfound => ?_
  have hcluster := required_eq_ok (congrArg Prod.fst hcluster)
  have hservers := required_eq_ok (congrArg Prod.fst hservers)
  obtain rfl : clusterFs = found :=
    Option.some.inj (hclusterFs.symm.trans (required_eq_ok (congrArg Prod.fst hfound)))
  have hstart : Action.Sustains layout.RootsStand
      (ClusterFixture.start cluster (parts.settings.getD .default)) :=
    (hparts.clusterStart cluster hcluster _).bind fun _ => preserves_pure _
  refine hstart.bind_of_run fun {_ running _} _ hrunning => ?_
  obtain rfl := ClusterFixture.eq_of_run_start hrunning
  have hsetUp := sustains_setUp (hparts.store servers hservers)
    (hparts.serversStart servers hservers)
  refine ((hsetUp _ _).bind fun _ => preserves_pure _).attempt.bind fun outcome => ?_
  split
  · exact preserves_pure _
  · have hshutDown (w : σ) := rootsStand_clusterShutDown (w := w) hvalid hnamed hlevel
      (hparts.clusterStop cluster hcluster)
    rw [hsettings]
    exact (preserves_change hshutDown).bind fun _ => preserves_fail trivial

end

/-- No teardown under the settings deletes a root, as long as what is stopped and started does not:
neither that of a session that is closed nor that of a launch. -/
structure TearsDownBelowRoots (settings : Settings) : Prop where
  close : ∀ {σ : Type} (session : Session σ) (layout : Layout session.buildFs session.clusterFs),
    session.settings = settings → layout.RootsLevel →
    Action.Sustains layout.RootsStand session.servers.stop →
    Action.Sustains layout.RootsStand session.cluster.stop →
    ∀ s, layout.RootsStand s.world → layout.RootsStand (session.close s).world
  launch : ∀ {σ : Type} (parts : Parts σ) (clusterFs : FileSystem σ)
    (layout : Layout (parts.buildFs.getD clusterFs) clusterFs),
    parts.settings.getD .default = settings → parts.clusterFs = some clusterFs →
    layout.RootsLevel → parts.Sustains layout.RootsStand →
    ∀ host id, Action.Sustains layout.RootsStand (launch parts host id)

/-- The disk with a root below the top as a filesystem. -/
def yardFs : FileSystem Disk := Part.whole.fileSystem LocalStore.yardStore.fileSystem

/-- Parts on that disk, whose servers do not start. -/
def yardParts (settings : Settings) : Parts Disk where
  settings := some settings
  cluster := some ⟨fun _ => pure (), pure (), fun _ => .empty, fun ps _ => pure ⟨0, ps⟩⟩
  servers := some
    ⟨fun _ => pure (), fun _ => Action.fail (.fixture "no port"), fun _ => "", pure ()⟩
  clusterFs := some yardFs
  buildFs := none
  coordinator := none
  serverOverrides := none

theorem named_of_tearsDownBelowRoots (hvalid : settings.validate = .ok ())
    (h : TearsDownBelowRoots settings) : settings.resourcesDir.Named := by
  refine Decidable.not_not.1 fun hnamed => ?_
  let layout : Layout yardFs yardFs := .onDisk Part.whole LocalStore.yardStore LocalStore.yardStore
  have hparts : (yardParts settings).Sustains layout.RootsStand := by
    constructor
    · rintro _ ⟨⟩ _
      exact preserves_pure ()
    · rintro _ ⟨⟩
      exact preserves_pure ()
    · rintro _ ⟨⟩ _
      exact preserves_pure ()
    · rintro _ ⟨⟩ _
      exact preserves_fail trivial
  let host : Host Disk := ⟨fun _ _ => true, fun _ => default, Text.ofNat⟩
  have hstands := (h.launch (yardParts settings) yardFs layout rfl rfl ⟨fun _ => rfl, fun _ => rfl⟩
    hparts host "yard" LocalStore.yardDisk ⟨by decide, by decide⟩).1
  have hrun : (launch (yardParts settings) host "yard").run LocalStore.yardDisk =
      (.error (.fixture "no port"),
        yardFs.clear settings.resourcesDir LocalStore.yardDisk) :=
    run_bind_of_ok (congrArg (·, LocalStore.yardDisk) hvalid)
  -- The launch has left the disk as clearing the directory of resources leaves it.
  have hcleared := LocalStore.not_isDirAt_clear (mentionsParent_of_validate hvalid).2 hnamed
  rw [hrun] at hstands
  have hroot := (Layout.rootsStand_whole.1 hstands).1
  dsimp only at hroot
  rw [yardFs, Part.clear_whole, hcleared] at hroot
  cases hroot

/-- Settings that are accepted always give the directory of the artifact a name, so it leads below
every root, and clearing it spares them. The directory of resources does so exactly if it has a name
too; in a memory tree it is enough that it is neither the root nor empty. No teardown deletes a root
exactly if the directory of resources has a name. -/
theorem tearsDownBelowRoots_iff (hvalid : settings.validate = .ok ()) :
    let shared := settings.sharedArtifactDir
    let resources := settings.resourcesDir
    (shared.LeadsBelow ∧ shared.SparesDiskRoots ∧ shared.SparesMemoryRoots) ∧
      (resources.LeadsBelow ↔ resources.Named) ∧
      (resources.SparesDiskRoots ↔ resources.Named) ∧
      (resources.SparesMemoryRoots ↔
        resources.components ≠ [] ∧ resources.components ≠ [.root]) ∧
      (TearsDownBelowRoots settings ↔ resources.Named) := by
  intro shared resources
  obtain ⟨hshared, hresources⟩ := mentionsParent_of_validate hvalid
  have hname : shared.Named := named_shared_of_validate hvalid
  have hspares : shared.LeadsBelow ∧ shared.SparesDiskRoots ∧ shared.SparesMemoryRoots :=
    ⟨(Path.leadsBelow_iff hshared).2 hname, (Path.sparesDiskRoots_iff hshared).2 hname,
      hname.sparesMemoryRoots⟩
  refine ⟨hspares, Path.leadsBelow_iff hresources, Path.sparesDiskRoots_iff hresources,
    Path.sparesMemoryRoots_iff, named_of_tearsDownBelowRoots hvalid, fun hnamed => ⟨?_, ?_⟩⟩
  · intro σ session layout hsettings hlevel hservers hcluster s hs
    exact rootsStand_close hvalid hnamed hsettings hlevel hservers hcluster hs
  · intro σ parts clusterFs layout hsettings hclusterFs hlevel hparts host id
    exact sustains_rootsStand_launch hvalid hnamed hsettings hclusterFs hlevel hparts host id

/-- A session on a disk with a root, with its resources in a directory. -/
def yard (resourcesDir : Path) : Session Disk :=
  { shelf ⟨"/build"⟩ with
    settings := { Settings.default with resourcesDir := resourcesDir }
    clusterFs := yardFs
    buildFs := yardFs }

/-- With resources in a directory below the root, closing the session leaves the root. -/
theorem close_yard_leaves_root :
    (yard ⟨"/res"⟩).settings.validate = .ok () ∧
      ((yard ⟨"/res"⟩).close (.initial LocalStore.yardDisk)).world.isDirAt ["data"] = true := by
  have hvalid : (yard ⟨"/res"⟩).settings.validate = .ok () := rfl
  obtain ⟨_, _, _, _, hteardown⟩ := tearsDownBelowRoots_iff hvalid
  let layout : Layout (yard ⟨"/res"⟩).buildFs (yard ⟨"/res"⟩).clusterFs :=
    .onDisk Part.whole LocalStore.yardStore LocalStore.yardStore
  have hclose := (hteardown.2 (by decide)).close (yard ⟨"/res"⟩) layout rfl
    ⟨fun _ => rfl, fun _ => rfl⟩ (preserves_pure ()) (preserves_pure ())
    (.initial LocalStore.yardDisk) ⟨by decide, by decide⟩
  have hroot : LocalStore.yardStore.rootPlace = ["data"] := by decide
  have hstands := (Layout.rootsStand_whole.1 hclose).1
  rw [hroot] at hstands
  exact ⟨hvalid, hstands⟩

/-- The trial with its resources in a directory. -/
def trialWith (resourcesDir : Path) : Session (Memory × ClusterLog) :=
  { trial with settings := { Settings.default with resourcesDir := resourcesDir } }

/-- The root itself is accepted as the directory of resources, and then closing the session deletes
it, on a disk and in memory. -/
theorem root_as_resources_is_deleted :
    (yard ⟨"/"⟩).settings.validate = .ok () ∧ (trialWith ⟨"/"⟩).settings.validate = .ok () ∧
      LocalStore.yardStore.resolve ⟨"/"⟩ = ⟨"/data"⟩ ∧
      LocalStore.yardDisk.isDirAt ["data"] = true ∧
      ((yard ⟨"/"⟩).close (.initial LocalStore.yardDisk)).world.isDirAt ["data"] = false ∧
      litteredMemory.isDir [.root] = true ∧
      ((trialWith ⟨"/"⟩).close (.initial (litteredMemory, .empty))).world.1.isDir [.root] =
        false := by
  refine ⟨rfl, rfl, rfl, by decide, ?_, by decide, ?_⟩
  · rw [close_of_open _ rfl]
    decide
  · rw [close_of_open _ rfl]
    decide

end Session
end OffloadCheck
