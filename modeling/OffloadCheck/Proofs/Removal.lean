import OffloadCheck.Proofs.Layouts
import OffloadCheck.Proofs.Names
import OffloadCheck.Proofs.Outputs
import OffloadCheck.Proofs.Rehearsal
import OffloadCheck.Session.Lifecycle

/-! # What a closed session leaves behind

In a tree that comes from the empty one there are directories above everything that is there. So
clearing a path removes exactly what lies at or below it: below a file there is nothing, and below
what is not there neither. A session that is closed has the directory of resources cleared on the
filesystem of the build and that of the artifact on the filesystem of the cluster, one after the
other and whatever becomes of the stops before them, and both may be one tree. -/

-- What is assumed of names is assumed together, also where a lemma needs less.
set_option linter.unusedSectionVars false

namespace OffloadCheck

open OffloadCheck.Action

variable {σ τ : Type}

/-! ## Locations -/

namespace Location

variable {ν : Type} [DecidableEq ν]

theorem isWithin_iff {l above : Location ν} :
    l.isWithin above = true ↔ ∃ below, l = above ++ below := by
  rw [isWithin, List.isPrefixOf_iff_prefix]
  exact ⟨fun ⟨below, h⟩ => ⟨below, h.symm⟩, fun ⟨below, h⟩ => ⟨below, h.symm⟩⟩

/-- What lies at or below a location is the location itself or has it as an ancestor. -/
theorem eq_or_mem_ancestors {l above : Location ν} (habove : above ≠ [])
    (h : l.isWithin above = true) : l = above ∨ above ∈ l.ancestors := by
  obtain ⟨below, rfl⟩ := isWithin_iff.1 h
  by_cases hbelow : below = []
  · exact .inl (by rw [hbelow, List.append_nil])
  · exact .inr (mem_ancestors_iff.2 ⟨habove, below, hbelow, rfl⟩)

theorem isWithin_of_mem_ancestors {a l : Location ν} (h : a ∈ l.ancestors) :
    l.isWithin a = true := by
  obtain ⟨_, below, _, rfl⟩ := mem_ancestors_iff.1 h
  exact isWithin_iff.2 ⟨below, rfl⟩

theorem isWithin_trans {l k above : Location ν} (h : l.isWithin k = true)
    (h' : k.isWithin above = true) : l.isWithin above = true := by
  obtain ⟨below, rfl⟩ := isWithin_iff.1 h
  obtain ⟨between, rfl⟩ := isWithin_iff.1 h'
  exact isWithin_iff.2 ⟨between ++ below, List.append_assoc ..⟩

theorem mem_ancestors_trans {a b l : Location ν} (h : a ∈ b.ancestors) (h' : b ∈ l.ancestors) :
    a ∈ l.ancestors := by
  obtain ⟨ha, below, hbelow, rfl⟩ := mem_ancestors_iff.1 h
  obtain ⟨_, below', _, rfl⟩ := mem_ancestors_iff.1 h'
  exact mem_ancestors_iff.2 ⟨ha, below ++ below', by simp [hbelow], List.append_assoc ..⟩

theorem fileName?_eq_some_iff {l : Location ν} {name : ν} :
    l.fileName? = some name ↔ ∃ above, l = above ++ [.normal name] := by
  rw [← List.getLast?_eq_some_iff, fileName?]
  constructor
  · intro h
    split at h
    · next hlast =>
      cases h
      exact hlast
    · cases h
  · intro h
    rw [h]

end Location

namespace Path

/-- Only an empty piece and a dot leave no component. -/
theorem component?_eq_none {piece : List Char} (h : component? piece = none) :
    piece = [] ∨ piece = ['.'] := by
  unfold component? at h
  split at h
  · exact .inl rfl
  · exact .inr rfl
  · cases h
  · cases h

theorem componentsOf_ne_nil (c : Char) (cs : List Char) : componentsOf (c :: cs) ≠ [] := by
  by_cases hslash : c = '/'
  · subst hslash
    rw [componentsOf, List.head?_cons, if_pos rfl]
    exact List.cons_ne_nil _ _
  · obtain ⟨word, words, hpieces⟩ := Text.splitOn_of_not_mem
      (fun h => hslash (List.mem_singleton.1 h).symm : '/' ∉ [c]) cs
    rw [List.singleton_append, List.singleton_append] at hpieces
    rw [componentsOf, List.head?_cons, if_neg fun h => hslash (Option.some.inj h), hpieces,
      List.head?_cons]
    split
    · exact List.cons_ne_nil _ _
    · next hdot =>
      -- Only a dot would leave no component here, and a leading dot is kept.
      cases hfirst : component? (c :: word) with
      | none =>
        rcases component?_eq_none hfirst with hnil | hcurrent
        · cases hnil
        · exact absurd (congrArg some hcurrent) hdot
      | some first =>
        rw [List.filterMap_cons, hfirst]
        exact List.cons_ne_nil _ _

/-- Only the empty path denotes nothing. -/
theorem components_eq_nil_iff {p : Path} : p.components = [] ↔ p.text = "" := by
  rw [← String.toList_eq_nil_iff, components_eq]
  cases p.text.toList with
  | nil => exact iff_of_true rfl rfl
  | cons c cs => exact iff_of_false (componentsOf_ne_nil c cs) (List.cons_ne_nil c cs)

end Path

/-- The directory of the artifact has a name in settings that are accepted. -/
theorem Settings.shared_named {settings : Settings} (h : settings.validate = .ok ()) :
    ∃ above name, settings.sharedArtifactDir.components = above ++ [.normal name] := by
  obtain ⟨_, _, hnamed, _⟩ :=
    (settings.fault?_eq_none_iff).1 ((settings.validate_eq_ok_iff).1 h)
  obtain ⟨name, hname⟩ := Option.isSome_iff_exists.1 hnamed
  obtain ⟨above, habove⟩ := Location.fileName?_eq_some_iff.1 hname
  exact ⟨above, name, habove⟩

namespace Memory

open Location

section

variable {ν : Type} [Ord ν] [Inhabited ν] [DecidableEq ν] [PathText ν] [Std.TransOrd ν]
  [Std.LawfulEqOrd ν] {m : Memory ν} {p : Path ν} {l : Location ν}

/-! ## Directories above everything -/

/-- Above all that is there, there are directories. -/
def Grounded (m : Memory ν) : Prop := ∀ l, m.Occupied l → ∀ a ∈ l.ancestors, m.isDir a = true

theorem occupied_without {l k : Location ν} :
    (m.without l).Occupied k ↔ m.Occupied k ∧ k.isWithin l = false := by
  unfold Occupied data?
  rw [file?_without, isDir_without]
  cases k.isWithin l <;> simp

namespace Grounded

theorem empty : Grounded (.empty : Memory ν) := by
  intro l hl
  rcases hl with hl | hl <;> cases hl

theorem addFile (h : m.Grounded) (p : Path ν) (bytes : Bytes) : (m.addFile p bytes).Grounded := by
  have hputs := puts_addFile m p bytes
  intro l hl a ha
  rw [hputs.isDir]
  rcases hl with hfile | hdir
  · rw [hputs.data] at hfile
    split at hfile
    · next heq => exact .inr (heq ▸ ha)
    · exact .inl (h l (.inl hfile) a ha)
  · rcases (hputs.isDir l).1 hdir with hold | hnew
    · exact .inl (h l (.inr hold) a ha)
    · exact .inr (mem_ancestors_trans ha hnew)

theorem addDir (h : m.Grounded) (p : Path ν) : (m.addDir p).Grounded := by
  intro l hl a ha
  rw [isDir_addDir]
  rcases hl with hfile | hdir
  · exact .inr (.inl (h l (.inl hfile) a ha))
  · rcases isDir_addDir.1 hdir with rfl | hold | hnew
    · exact .inr (.inr ha)
    · exact .inr (.inl (h l (.inr hold) a ha))
    · exact .inr (.inr (mem_ancestors_trans ha hnew))

theorem append (h : m.Grounded) (p : Path ν) (bytes : Bytes) :
    ((append p bytes).run m).2.Grounded := by
  cases hold : m.data? p.components with
  | none =>
    have hfile : m.file? p.components = none := Option.map_eq_none_iff.1 hold
    simpa [Action.run, Memory.append, hfile] using h
  | some old =>
    obtain ⟨m', hrun, hdata, hdirs⟩ := run_append hold bytes
    rw [hrun]
    intro l hl a ha
    rw [hdirs]
    refine h l ?_ a ha
    unfold Occupied at hl
    rw [hdata, hdirs] at hl
    split at hl
    · next heq => exact .inl (by rw [heq, hold]; rfl)
    · exact hl

theorem without (h : m.Grounded) (l : Location ν) : (m.without l).Grounded := by
  intro k hk a ha
  obtain ⟨hthere, houtside⟩ := occupied_without.1 hk
  have habove : a.isWithin l = false := by
    refine Bool.eq_false_iff.2 fun hwithin => ?_
    rw [isWithin_trans (isWithin_of_mem_ancestors ha) hwithin] at houtside
    cases houtside
  rw [isDir_without, h k hthere a ha, habove]
  rfl

theorem delete (h : m.Grounded) (p : Path ν) (recursive : Bool) :
    ((fileSystem.delete p recursive).run m).2.Grounded := by
  rcases m.delete_cases p recursive with hrun | hrun | hrun
  · rwa [hrun]
  · rw [hrun]
    intro k hk a ha
    refine h k ?_ a ha
    refine hk.imp_left fun hfile => ?_
    rw [data?, file?_erase] at hfile
    split at hfile
    · cases hfile
    · exact hfile
  · rw [hrun]
    exact h.without _

end Grounded

theorem Reachable.grounded (h : m.Reachable) : m.Grounded :=
  h.of_invariant ⟨fun p bytes hm => hm.addFile p bytes, fun p hm => hm.addDir p, fun _ hm => hm,
    fun p bytes hm => hm.append p bytes, fun p recursive hm => hm.delete p recursive⟩ .empty

end

variable {m : Memory} {p : Path} {l : Location}

/-! ## Clearing a path -/

/-- What lies at or below some directories has gone, and all the rest is as it was. -/
structure Pruned (dirs : List Path) (m m' : Memory) : Prop where
  file : ∀ l, m'.file? l = if dirs.any (l.isWithin ·.components) then none else m.file? l
  isDir : ∀ l, m'.isDir l = (m.isDir l && !dirs.any (l.isWithin ·.components))

theorem Pruned.trans {m m' m'' : Memory} {dirs dirs' : List Path} (h : Pruned dirs m m')
    (h' : Pruned dirs' m' m'') : Pruned (dirs ++ dirs') m m'' where
  file l := by
    rw [h'.file, h.file, List.any_append]
    cases dirs.any (l.isWithin ·.components) <;> cases dirs'.any (l.isWithin ·.components) <;> rfl
  isDir l := by
    rw [h'.isDir, h.isDir, List.any_append, Bool.not_or, Bool.and_assoc]

theorem Pruned.unmixed {m' : Memory} {dirs : List Path} (h : Pruned dirs m m')
    (hunmixed : m.Unmixed) : m'.Unmixed := by
  intro l hl
  rw [h.isDir, Bool.and_eq_true] at hl
  rw [data?, h.file]
  split
  · rfl
  · exact hunmixed l hl.1

/-- At or below a location that is no directory there is at most a file at that very location. -/
theorem Grounded.of_not_isDir (h : m.Grounded) (hl : l ≠ []) (hdir : m.isDir l = false)
    {k : Location} (hk : k.isWithin l = true) :
    m.isDir k = false ∧ (k ≠ l → m.file? k = none) := by
  rcases eq_or_mem_ancestors hl hk with rfl | habove
  · exact ⟨hdir, fun hne => absurd rfl hne⟩
  · have hvacant : ¬ m.Occupied k := by
      intro hthere
      rw [h k hthere l habove] at hdir
      cases hdir
    refine ⟨Bool.eq_false_iff.2 fun hk => hvacant (.inr hk), fun _ => ?_⟩
    refine Option.eq_none_iff_forall_ne_some.2 fun f hf => hvacant (.inl ?_)
    rw [data?, hf]
    rfl

theorem clear_of_isDir (hfile : m.file? p.components = none) (hdir : m.isDir p.components = true) :
    fileSystem.clear p m = m.without p.components := by
  simp [FileSystem.clear, fileSystem, Action.run, hfile, hdir]

/-- Clearing a path under which there is no directory takes the file at it away, if there is one. -/
theorem clear_of_not_isDir (hdir : m.isDir p.components = false) :
    (∀ l, (fileSystem.clear p m).file? l = if l = p.components then none else m.file? l) ∧
      ∀ l, (fileSystem.clear p m).isDir l = m.isDir l := by
  cases hfile : m.file? p.components with
  | none =>
    have hclear : fileSystem.clear p m = m := by simp [FileSystem.clear, fileSystem, hfile, hdir]
    rw [hclear]
    refine ⟨fun l => ?_, fun _ => rfl⟩
    split
    · next heq => rw [heq, hfile]
    · rfl
  | some _ =>
    have hclear : fileSystem.clear p m = { m with files := m.files.erase p.components } := by
      simp [FileSystem.clear, fileSystem, Action.run, hfile]
    rw [hclear]
    exact ⟨m.file?_erase p.components, fun _ => rfl⟩

/-- Clearing a path removes what lies at or below it, and nothing else. -/
theorem pruned_clear (h : m.Grounded) (hunmixed : m.Unmixed) (hp : p.components ≠ []) :
    Pruned [p] m (fileSystem.clear p m) := by
  -- With a directory at the path all below it goes. Without one there is nothing below to keep or
  -- to take, as what lies below would need the path as a directory.
  cases hdir : m.isDir p.components with
  | true =>
    have hfile : m.file? p.components = none := Option.map_eq_none_iff.1 (hunmixed _ hdir)
    rw [clear_of_isDir hfile hdir]
    exact ⟨fun l => by simp [file?_without], fun l => by simp [isDir_without]⟩
  | false =>
    obtain ⟨hfiles, hdirs⟩ := clear_of_not_isDir hdir
    constructor
    · intro l
      rw [hfiles, List.any_cons, List.any_nil, Bool.or_false]
      by_cases hl : l.isWithin p.components = true
      · rw [if_pos hl]
        split
        · rfl
        · next hne => exact (h.of_not_isDir hp hdir hl).2 hne
      · rw [if_neg hl, if_neg]
        rintro rfl
        exact hl (isWithin_iff.2 ⟨[], (List.append_nil _).symm⟩)
    · intro l
      rw [hdirs, List.any_cons, List.any_nil, Bool.or_false]
      by_cases hl : l.isWithin p.components = true
      · rw [hl, (h.of_not_isDir hp hdir hl).1]
        rfl
      · rw [Bool.eq_false_iff.2 hl, Bool.not_false, Bool.and_true]

theorem Reachable.clear (h : m.Reachable) (p : Path) : (fileSystem.clear p m).Reachable := by
  unfold FileSystem.clear
  split
  · exact h.delete p true
  · exact h

theorem Pruned.read? {m' : Memory} {dirs : List Path} (h : Pruned dirs m m') (p : Path) :
    m'.read? p = if dirs.any (p.components.isWithin ·.components) then none else m.read? p := by
  unfold Memory.read?
  rw [h.file]
  split
  · rfl
  · rfl

/-- What lies at or below one of the directories is not there any more. -/
theorem Pruned.not_isPresent {m' : Memory} {dirs : List Path} (h : Pruned dirs m m') {d : Path}
    (hd : d ∈ dirs) (hp : p.components.isWithin d.components = true) :
    fileSystem.isPresent p m' = false := by
  have hany : dirs.any (p.components.isWithin ·.components) = true :=
    List.any_eq_true.2 ⟨d, hd, hp⟩
  change ((m'.file? p.components).isSome || m'.isDir p.components) = false
  rw [h.file, h.isDir, if_pos hany, hany, Bool.not_true, Bool.and_false]
  rfl

/-- A listing shows plain names. -/
theorem Plain.of_list (h : m.Plain) {listing : List Entry} (hlist : m.list p = .ok listing)
    {entry : Entry} (hentry : entry ∈ listing) : Path.IsPlain entry.name := by
  unfold list at hlist
  split at hlist
  · cases hlist
  · split at hlist
    · cases hlist
      rw [children_eq, List.mem_append, List.mem_map, List.mem_map] at hentry
      rcases hentry with ⟨⟨name, bytes⟩, hfile, rfl⟩ | ⟨name, hdir, rfl⟩
      · exact h.file _ (Option.isSome_of_mem (mem_filesIn.1 hfile)) name (by simp)
      · exact h.dir _ (mem_dirsIn.1 hdir) name (by simp)
    · cases hlist

end Memory

/-! ## Two directories on two trees or one -/

theorem Part.clear_fileSystem (part : Part σ τ) (fs : FileSystem τ) (p : Path) (s : σ) :
    (part.fileSystem fs).clear p s = part.put (fs.clear p (part.get s)) s := by
  by_cases hpresent : fs.isPresent p (part.get s) = true
  · rw [FileSystem.clear, FileSystem.clear, if_pos hpresent]
    exact if_pos hpresent
  · rw [FileSystem.clear, FileSystem.clear, if_neg hpresent, part.put_get]
    exact if_neg hpresent

theorem Part.clear_whole (fs : FileSystem σ) (p : Path) (s : σ) :
    ((Part.whole : Part σ σ).fileSystem fs).clear p s = fs.clear p s :=
  Part.whole.clear_fileSystem fs p s

/-- Memory trees that two filesystems keep their files in. -/
inductive Trees : FileSystem σ → FileSystem σ → Type
  | one (tree : Part σ Memory) :
      Trees (tree.fileSystem Memory.fileSystem) (tree.fileSystem Memory.fileSystem)
  | two (build cluster : Part σ Memory) : (Store.memory build).Spares (.memory cluster) →
      (Store.memory cluster).Spares (.memory build) →
      Trees (build.fileSystem Memory.fileSystem) (cluster.fileSystem Memory.fileSystem)

namespace Trees

variable {buildFs clusterFs : FileSystem σ}

def build : Trees buildFs clusterFs → Part σ Memory
  | .one tree => tree
  | .two build _ _ _ => build

def cluster : Trees buildFs clusterFs → Part σ Memory
  | .one tree => tree
  | .two _ cluster _ _ => cluster

/-- The directories that go from the tree of the build when a session is closed. -/
def goneFromBuild (settings : Settings) : Trees buildFs clusterFs → List Path
  | .one _ => [settings.resourcesDir, settings.sharedArtifactDir]
  | .two .. => [settings.resourcesDir]

/-- The directories that go from the tree of the cluster when a session is closed. -/
def goneFromCluster (settings : Settings) : Trees buildFs clusterFs → List Path
  | .one _ => [settings.resourcesDir, settings.sharedArtifactDir]
  | .two .. => [settings.sharedArtifactDir]

/-- Both trees come from the empty one, and nothing in them is both a file and a directory. -/
structure Sound (trees : Trees buildFs clusterFs) (w : σ) : Prop where
  build : (trees.build.get w).Reachable
  cluster : (trees.cluster.get w).Reachable
  buildUnmixed : (trees.build.get w).Unmixed
  clusterUnmixed : (trees.cluster.get w).Unmixed

theorem run_list (trees : Trees buildFs clusterFs) (p : Path) (w : σ) :
    ((buildFs.list p).run w).1 = (trees.build.get w).list p := by
  cases trees <;> rfl

theorem isPresent_eq (trees : Trees buildFs clusterFs) (p : Path) (w : σ) :
    clusterFs.isPresent p w = Memory.fileSystem.isPresent p (trees.cluster.get w) := by
  cases trees <;> rfl

theorem shared_mem_goneFromCluster (trees : Trees buildFs clusterFs) (settings : Settings) :
    settings.sharedArtifactDir ∈ trees.goneFromCluster settings := by
  cases trees <;> simp [goneFromCluster]

variable {trees : Trees buildFs clusterFs} {settings : Settings} {w : σ}

/-- Clearing one directory of each filesystem prunes their trees. -/
theorem pruned_clear (h : trees.Sound w) (hresources : settings.resourcesDir.components ≠ [])
    (hshared : settings.sharedArtifactDir.components ≠ []) :
    let t := clusterFs.clear settings.sharedArtifactDir (buildFs.clear settings.resourcesDir w)
    (trees.build.get w).Pruned (trees.goneFromBuild settings) (trees.build.get t) ∧
      (trees.cluster.get w).Pruned (trees.goneFromCluster settings) (trees.cluster.get t) := by
  intro t
  have hbuild := Memory.pruned_clear h.build.grounded h.buildUnmixed hresources
  cases trees with
  | one tree =>
    have ht : tree.get t = Memory.fileSystem.clear settings.sharedArtifactDir
        (Memory.fileSystem.clear settings.resourcesDir (tree.get w)) := by
      change tree.get ((tree.fileSystem _).clear _ ((tree.fileSystem _).clear _ w)) = _
      rw [tree.clear_fileSystem, tree.get_put, tree.clear_fileSystem, tree.get_put]
    have hcluster := Memory.pruned_clear (h.build.clear settings.resourcesDir).grounded
      (hbuild.unmixed h.buildUnmixed) hshared
    have hboth := hbuild.trans hcluster
    change Memory.Pruned _ (tree.get w) (tree.get t) ∧ Memory.Pruned _ (tree.get w) (tree.get t)
    rw [ht]
    exact ⟨hboth, hboth⟩
  | two build cluster hcluster hbuild' =>
    have hpruned := Memory.pruned_clear h.cluster.grounded h.clusterUnmixed hshared
    have ht : build.get t = Memory.fileSystem.clear settings.resourcesDir (build.get w) ∧
        cluster.get t = Memory.fileSystem.clear settings.sharedArtifactDir (cluster.get w) := by
      change build.get ((cluster.fileSystem _).clear _ ((build.fileSystem _).clear _ w)) = _ ∧
        cluster.get ((cluster.fileSystem _).clear _ ((build.fileSystem _).clear _ w)) = _
      rw [cluster.clear_fileSystem, build.clear_fileSystem, cluster.get_put]
      exact ⟨Eq.trans (hbuild' _ _) (build.get_put _ _), congrArg _ (hcluster _ _)⟩
    change Memory.Pruned _ (build.get w) (build.get t) ∧
      Memory.Pruned _ (cluster.get w) (cluster.get t)
    rw [ht.1, ht.2]
    exact ⟨hbuild, hpruned⟩

end Trees

namespace Session

variable {session : Session σ} {s : State σ}

/-- The world once the servers and the cluster of a session have been told to stop. -/
def stopped (session : Session σ) (w : σ) : σ :=
  (session.cluster.stop.run (session.servers.shutDown w)).2

/-- An artifact that was found in a listing of plain names lies in the directory of the artifact. -/
theorem isWithin_of_staged (trees : Trees session.buildFs session.clusterFs) {u v : σ}
    {artifact : StagedArtifact} (hu : (trees.build.get u).Reachable)
    (hstage : session.stageArtifact.run u = (.ok artifact, v)) :
    artifact.sharedPath.components.isWithin session.settings.sharedArtifactDir.components =
      true := by
  obtain ⟨_, _, hlocate, hshared, _⟩ := stageArtifact_eq_ok hstage
  obtain ⟨listing, hlist, hpick⟩ := locateArtifact_eq_ok hlocate
  obtain ⟨entry, hentry, hname⟩ := Option.map_eq_some_iff.1 hpick
  have hmem : entry ∈ listing := List.mem_mergeSort.1 (List.mem_of_find?_eq_some hentry)
  have hfound : (trees.build.get u).list session.settings.artifactDir = .ok listing := by
    rw [← trees.run_list, hlist]
  have hplain := hu.plain.of_list hfound hmem
  rw [hname] at hplain
  rw [hshared, Path.components_join_plain _ hplain]
  exact Location.isWithin_iff.2 ⟨_, rfl⟩

/-- Closing a session for the first time removes from the trees, as the stops left them, what lies
at or below the directory of resources and that of the artifact, and nothing else. So no artifact
that was staged in the session is there any more. -/
theorem close_removes_exactly (trees : Trees session.buildFs session.clusterFs)
    (hvalid : session.settings.validate = .ok ())
    (hresources : session.settings.resourcesDir.text ≠ "")
    (hopen : s.closed = false) (hsound : trees.Sound (session.stopped s.world)) :
    let w := session.stopped s.world
    let t := (session.close s).world
    (trees.build.get w).Pruned (trees.goneFromBuild session.settings) (trees.build.get t) ∧
      (trees.cluster.get w).Pruned (trees.goneFromCluster session.settings) (trees.cluster.get t) ∧
      ∀ u artifact v, (trees.build.get u).Reachable →
        session.stageArtifact.run u = (.ok artifact, v) →
        session.clusterFs.isPresent artifact.sharedPath t = false := by
  intro w t
  have ht : t = session.clusterFs.clear session.settings.sharedArtifactDir
      (session.buildFs.clear session.settings.resourcesDir w) := by
    change (session.close s).world = _
    rw [session.close_of_open hopen]
    rfl
  have hshared : session.settings.sharedArtifactDir.components ≠ [] := by
    obtain ⟨above, name, hnamed⟩ := Settings.shared_named hvalid
    rw [hnamed]
    exact List.concat_ne_nil _ _
  obtain ⟨hbuild, hcluster⟩ :=
    trees.pruned_clear hsound (mt Path.components_eq_nil_iff.1 hresources) hshared
  rw [← ht] at hbuild hcluster
  refine ⟨hbuild, hcluster, fun u artifact v hu hstage => ?_⟩
  have hwithin := isWithin_of_staged trees hu hstage
  rw [trees.isPresent_eq]
  exact hcluster.not_isPresent (trees.shared_mem_goneFromCluster session.settings) hwithin

/-- A tree with a staged artifact, a file beside its directory, an output and a resource. -/
def litteredMemory : Memory :=
  (((Memory.empty.addFile ⟨"/rss.jar/client.jar"⟩ [1]).addFile ⟨"/rss.jar.bak"⟩ [2]).addFile
    ⟨"/tmp/TestMRJobs/reference-0/part-r-00000"⟩ [3]).addFile
      ⟨"target/TestMRJobs-tmpDir/localizedResources/a"⟩ [4]

/-- Once the trial is closed, the artifact and the resource have gone; what lies beside the
directory of the artifact and the output are still there. -/
theorem close_trial_removes_exactly :
    let t := (trial.close ⟨(litteredMemory, .empty), none, false, 0⟩).world
    t.1.read? ⟨"/rss.jar/client.jar"⟩ = none ∧
      t.1.read? ⟨"target/TestMRJobs-tmpDir/localizedResources/a"⟩ = none ∧
      t.1.read? ⟨"/rss.jar.bak"⟩ = some [2] ∧
      t.1.read? ⟨"/tmp/TestMRJobs/reference-0/part-r-00000"⟩ = some [3] := by
  intro t
  have hreachable : litteredMemory.Reachable :=
    .addFile _ _ (.addFile _ _ (.addFile _ _ (.addFile _ _ .empty)))
  have hunmixed : litteredMemory.Unmixed := Memory.unmixed_of_keys (by decide)
  let trees : Trees trial.buildFs trial.clusterFs := .one trialMemory
  let s : State (Memory × ClusterLog) := ⟨(litteredMemory, .empty), none, false, 0⟩
  have hsound : trees.Sound (trial.stopped s.world) :=
    ⟨hreachable, hreachable, hunmixed, hunmixed⟩
  have hpruned : litteredMemory.Pruned
      [Settings.default.resourcesDir, Settings.default.sharedArtifactDir] t.1 :=
    (close_removes_exactly trees rfl (by decide) rfl hsound).1
  refine ⟨?_, ?_, ?_, ?_⟩
  all_goals
    rw [hpruned.read?]
    decide

end Session
end OffloadCheck
