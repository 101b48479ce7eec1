import OffloadCheck.Proofs.Layouts
import OffloadCheck.Proofs.Names
import OffloadCheck.Proofs.Outputs

/-! # Directories among the entries of an output

The name of a directory that lies in an output takes part in the comparison like that of a file, but
a directory cannot be opened. So two outputs whose files can all be read come to a verdict unless
the comparison gets to such a name (`Store.Obstacle`): both outputs have the same names, the files
of the names before it match, and under it the reference or the candidate has a directory only. What
the comparison gives then is the refusal to open this directory. -/
namespace OffloadCheck

open OffloadCheck.Action

variable {σ : Type}

/-! ## Reading through answers -/

namespace FileSystem.Shows

variable {fs : FileSystem σ} {worlds : σ → Prop} {v : Answers} {s : σ} {p r c : Path}

theorem list_eq (h : fs.Shows worlds v) (hs : worlds s) (p : Path) :
    ((fs.list p).run s).1 = v.list p := by
  obtain ⟨t, hrun, _⟩ := h.list hs p
  rw [hrun]

/-- What is read from a path is what its stream holds, if it ends well. -/
theorem reads_iff (h : fs.Shows worlds v) (hs : worlds s) {bytes : Bytes} :
    fs.Reads p s bytes ↔ ∃ b, v.stream p = .ok b ∧ b.failure? = none ∧ b.content = bytes := by
  unfold FileSystem.Reads FileSystem.contents
  cases hp : v.stream p with
  | error e =>
    obtain ⟨t, hrun, _⟩ := h.refused hs hp
    rw [run_bind_of_error hrun]
    simp
  | ok b =>
    obtain ⟨f, t, hrun, ht, hf⟩ := h.opened hs hp
    rw [run_bind_of_ok hrun, run_bind_of_ok (run_world t), run_ofExcept, hf t ht]
    unfold ByteStream.readAll
    cases hb : b.failure? with
    | some e => simp [hb, mapError_error]
    | none => simp [hb, mapError_ok]

/-- Files match when they read the same. -/
theorem pairMatches_iff (h : fs.Shows worlds v) (hs : worlds s) {name : String} :
    v.PairMatches r c name ↔
      ∃ bytes, fs.Reads (r.join name) s bytes ∧ fs.Reads (c.join name) s bytes := by
  simp only [h.reads_iff hs]
  constructor
  · intro hmatch
    obtain ⟨a, b, ha, hb, hab⟩ := hmatch
    exact ⟨b.content, ⟨a, ha, hab.reference, hab.content⟩, b, hb, hab.candidate, rfl⟩
  · intro hreads
    obtain ⟨bytes, ⟨a, ha, hfa, hca⟩, b, hb, hfb, hcb⟩ := hreads
    exact ⟨a, b, ha, hb, hca.trans hcb.symm, hfa, hfb⟩

end FileSystem.Shows

/-- Where no reading fails, only what does not open keeps two listed outputs from a verdict. -/
theorem Answers.Listed.finding_error_iff {v : Answers} {r c : Path} {rs cs : List Entry}
    {xs ys : List String} (hl : v.Listed r c rs cs xs ys)
    (hwhole : ∀ p b, v.stream p = .ok b → b.failure? = none) {e : StorageError} :
    v.Finding (some r) (some c) (.error e) ↔ ∃ before name after,
      xs = before ++ name :: after ∧ ys = before ++ name :: after ∧
      (∀ n ∈ before, v.PairMatches r c n) ∧
      (v.stream (r.join name) = .error e ∨
        ∃ a, v.stream (r.join name) = .ok a ∧ v.stream (c.join name) = .error e) := by
  constructor
  · intro hf
    cases hf with
    | referenceUnlisted h =>
      rw [hl.reference] at h
      cases h
    | candidateUnlisted _ h =>
      rw [hl.candidate] at h
      cases h
    | @unreadable _ _ _ _ before after name _ hl' hb he =>
      obtain rfl := Except.ok.inj (hl.reference.symm.trans hl'.reference)
      obtain rfl := Except.ok.inj (hl.candidate.symm.trans hl'.candidate)
      refine ⟨before, name, after, hl.referenceNames.eq hl'.referenceNames,
        hl.candidateNames.eq hl'.candidateNames, hb, ?_⟩
      cases he with
      | reference ha => exact .inl ha
      | candidate ha hc => exact .inr ⟨_, ha, hc⟩
      | reading ha hc hab =>
        cases hab with
        | reference _ hfails =>
          rw [hwhole _ _ ha] at hfails
          cases hfails
        | candidate _ hfails _ =>
          rw [hwhole _ _ hc] at hfails
          cases hfails
  · intro h
    obtain ⟨before, name, after, rfl, rfl, hb, he⟩ := h
    rcases he with hr | ⟨a, ha, hc⟩
    · exact .unreadable hl hb (.reference hr)
    · exact .unreadable hl hb (.candidate ha hc)

/-! ## Disks -/

namespace Disk

variable {d : Disk} {p : Path} {place q : List String} {name : String} {node : DiskNode}

theorem isDir_iff : d.isDir p = true ↔ ∃ place, d.find p = .ok (place, .dir) := by
  unfold isDir
  cases d.find p with
  | error e => simp
  | ok found =>
    obtain ⟨place, node⟩ := found
    simp

theorem place_of_child {child : String × DiskNode} (h : (match q.getLast? with
    | some name => if q.dropLast = place then some (name, node) else none
    | none => none) = some child) : q = place ++ [child.1] ∧ node = child.2 := by
  split at h
  · next last hlast =>
    obtain ⟨front, rfl⟩ := List.getLast?_eq_some_iff.1 hlast
    rw [List.dropLast_concat] at h
    split at h
    · next hfront =>
      cases h
      exact ⟨by rw [hfront], rfl⟩
    · cases h
  · cases h

theorem mem_childrenAt :
    (name, node) ∈ d.childrenAt place ↔ d.node? (place ++ [name]) = some node := by
  rw [childrenAt, List.mem_filterMap, node?, if_neg (List.concat_ne_nil _ _),
    ← SortedMap.mem_entries_iff]
  constructor
  · intro h
    obtain ⟨⟨l, other⟩, hmem, hchild⟩ := h
    have hplace : l = place ++ [name] ∧ other = node := place_of_child hchild
    rwa [hplace.1, hplace.2] at hmem
  · intro h
    exact ⟨_, h, by simp⟩

/-- A name behind the path of a directory leads to the child of that name, if anywhere. -/
theorem find_join (hname : Path.IsPlain name) (hdir : d.find p = .ok (place, .dir))
    (h : d.find (p.join name) = .ok (q, node)) : d.node? (place ++ [name]) = some node := by
  obtain ⟨_, hwalk, _, _⟩ := find_eq_ok_iff.1 hdir
  obtain ⟨_, hwalk', hnode, _⟩ := find_eq_ok_iff.1 h
  obtain ⟨_, _, hdot, hdots⟩ := hname.piece
  rw [pieces_join p hname, walk_append_of_ok hwalk, walk_singleton] at hwalk'
  simp only [step, hdot, hdots, if_false, String.ofList_toList] at hwalk'
  grind

end Disk

namespace LocalStore

variable (store : LocalStore) {d : Disk}

/-- What a disk says of its directories and files. -/
def answers (d : Disk) : Answers where
  list p :=
    match d.find (store.resolve p) with
    | .error e => .error (.ofIo p e)
    | .ok (_, .file ..) => .error (.notADirectory p)
    | .ok (place, .dir) => .ok ((d.childrenAt place).map entryOf)
  stream p :=
    match d.find (store.resolve p) with
    | .error e => .error (.ofIo p e)
    | .ok (_, .dir) => .error (.isADirectory p)
    | .ok (_, .file _ data) => .ok (ByteStream.ofBytes data)

theorem name_entryOf (child : String × DiskNode) : (entryOf child).name = child.1 := by
  obtain ⟨name, node⟩ := child
  cases node <;> rfl

theorem run_list (d : Disk) (p : Path) :
    (store.fileSystem.list p).run d = ((store.answers d).list p, d) := by
  simp only [Action.run, fileSystem, bind, look, Action.mapError, answers]
  cases d.find (store.resolve p) with
  | error e => rfl
  | ok found =>
    obtain ⟨place, node⟩ := found
    cases node <;> rfl

theorem run_openFile_of_error {p : Path} {e : StorageError}
    (h : (store.answers d).stream p = .error e) :
    (store.fileSystem.openFile p).run d = (.error e, d) := by
  simp only [answers] at h
  cases hfind : d.find (store.resolve p) with
  | error failure =>
    have hdir : d.isDir (store.resolve p) = false := by rw [Disk.isDir, hfind]
    rw [hfind] at h
    cases h
    simp [Action.run, fileSystem, bind, Action.world, look, Action.mapError, hdir, hfind]
  | ok found =>
    obtain ⟨place, node⟩ := found
    rw [hfind] at h
    cases node with
    | dir =>
      have hdir : d.isDir (store.resolve p) = true := by rw [Disk.isDir, hfind]; rfl
      cases h
      simp [Action.run, fileSystem, bind, Action.world, Action.fail, hdir]
    | file id data => cases h

theorem shows_disk (hd : d.Sound) : store.fileSystem.Shows (· = d) (store.answers d) where
  list {s} hs p := by
    subst hs
    exact ⟨s, store.run_list s p, rfl⟩
  opened {s} hs {p b} hb := by
    subst hs
    simp only [answers] at hb
    split at hb
    · cases hb
    · cases hb
    · next place id data hfind =>
      cases hb
      have hfile := hd.fileWithId? (Disk.find_eq_ok_iff.1 hfind).2.2.1
      refine ⟨_, s, store.run_openFile hfind, rfl, ?_⟩
      intro u hu
      subst hu
      rw [hfile]
      rfl
  refused {s} hs {p e} he := by
    subst hs
    exact ⟨s, store.run_openFile_of_error he, rfl⟩

end LocalStore

/-! ## Stores -/

namespace Store

variable (store : Store σ) {s : σ} {dir r c p : Path} {name : String}

/-- The trees and disks in use. -/
def Reachable : Store σ → σ → Prop
  | .memory part, s => (part.get s).Reachable
  | .disk part _, s => (part.get s).Reachable

/-- There is a directory at a path, and no file. -/
def IsDirectory : Store σ → Path → σ → Prop
  | .memory part, p, s =>
      (part.get s).isDir p.components = true ∧ (part.get s).data? p.components = none
  | .disk part store, p, s => (part.get s).isDir (store.resolve p) = true

/-- A file lies directly in a directory. -/
def HasFile : Store σ → Path → String → σ → Prop
  | .memory part, dir, name, s =>
      ((part.get s).data? (dir.components ++ [.normal name])).isSome = true
  | .disk part store, dir, name, s => ∃ place id data,
      (part.get s).find (store.resolve dir) = .ok (place, .dir) ∧
        (part.get s).node? (place ++ [name]) = some (.file id data)

/-- A directory lies directly in a directory. -/
def HasDir : Store σ → Path → String → σ → Prop
  | .memory part, dir, name, s => (part.get s).isDir (dir.components ++ [.normal name]) = true
  | .disk part store, dir, name, s => ∃ place,
      (part.get s).find (store.resolve dir) = .ok (place, .dir) ∧
        (part.get s).node? (place ++ [name]) = some .dir

def answers : Store σ → σ → Answers
  | .memory part, s => (part.get s).answers
  | .disk part store, s => store.answers (part.get s)

/-- The worlds that differ in what the store does not show. -/
def Alike : Store σ → σ → σ → Prop
  | .memory part, s, t => Memory.Same (part.get s) (part.get t)
  | .disk part _, s, t => part.get t = part.get s

theorem Alike.refl (s : σ) : store.Alike s s := by
  cases store with
  | memory part => exact ⟨rfl, rfl⟩
  | disk part store => rfl

theorem shows (h : store.Reachable s) :
    store.fileSystem.Shows (store.Alike s) (store.answers s) := by
  cases store with
  | memory part => exact Memory.shows_fileSystem part (part.get s)
  | disk part store => exact (store.shows_disk (Disk.Reachable.sound h)).part part

theorem failure?_of_stream {b : ByteStream} (h : (store.answers s).stream p = .ok b) :
    b.failure? = none := by
  cases store with
  | memory part =>
    simp only [answers, Memory.answers] at h
    split at h
    · cases h
      rfl
    · cases h
  | disk part store =>
    simp only [answers, LocalStore.answers] at h
    split at h
    · cases h
    · cases h
    · cases h
      rfl

/-- A directory shows the names of the files and directories that lie in it. -/
theorem list_of_isDirectory (h : store.IsDirectory dir s) : ∃ listing,
    (store.answers s).list dir = .ok listing ∧
      ∀ name, name ∈ listing.map (·.name) ↔ store.HasFile dir name s ∨ store.HasDir dir name s := by
  cases store with
  | memory part =>
    obtain ⟨hdir, hfile⟩ := h
    have hnone : (part.get s).file? dir.components = none := Option.map_eq_none_iff.1 hfile
    refine ⟨(part.get s).children dir.components, ?_, fun name => ?_⟩
    · simp [answers, Memory.answers, Memory.list, hnone, hdir]
    · simp [Memory.children_eq, HasFile, HasDir, Entry.file, Entry.dir, Function.comp_def,
        ← Memory.mem_dirsIn, Option.isSome_iff_exists, ← Memory.mem_filesIn]
  | disk part store =>
    obtain ⟨place, hfind⟩ := Disk.isDir_iff.1 h
    refine ⟨((part.get s).childrenAt place).map LocalStore.entryOf, ?_, fun name => ?_⟩
    · simp [answers, LocalStore.answers, hfind]
    · have hplace {q : List String} : (part.get s).find (store.resolve dir) = .ok (q, .dir) ↔
          place = q := by
        simp [hfind]
      simp only [HasFile, HasDir, hplace, List.map_map, List.mem_map, Function.comp_apply,
        LocalStore.name_entryOf, Prod.exists, exists_and_right, exists_eq_right,
        Disk.mem_childrenAt]
      constructor
      · intro hchild
        obtain ⟨node, hnode⟩ := hchild
        cases node with
        | dir => exact .inr ⟨place, rfl, hnode⟩
        | file id data => exact .inl ⟨place, id, data, rfl, hnode⟩
      · intro hchild
        rcases hchild with ⟨_, id, data, rfl, hnode⟩ | ⟨_, rfl, hnode⟩
        · exact ⟨_, hnode⟩
        · exact ⟨_, hnode⟩

theorem isPlain_of_hasDir (h : store.Reachable s) (hname : store.HasDir dir name s) :
    Path.IsPlain name := by
  cases store with
  | memory part => exact (Memory.Reachable.plain h).dir _ hname name (by simp)
  | disk part store =>
    obtain ⟨place, _, hnode⟩ := hname
    exact (Disk.Reachable.plain h).node? (by rw [hnode]; rfl) name (by simp)

/-- A directory cannot be opened where no file has its name. -/
theorem refused_of_hasDir (h : store.Reachable s) (hdir : store.HasDir dir name s)
    (hfile : ¬ store.HasFile dir name s) :
    ∃ e, (store.answers s).stream (dir.join name) = .error e := by
  have hplain := store.isPlain_of_hasDir h hdir
  cases store with
  | memory part =>
    refine ⟨(part.get s).missing (dir.join name), ?_⟩
    have hnone : (part.get s).file? (dir.components ++ [.normal name]) = none := by
      simpa [HasFile, Memory.data?] using hfile
    simp [answers, Memory.answers, Path.components_join_plain dir hplain, hnone]
  | disk part store =>
    obtain ⟨place, hparent, hnode⟩ := hdir
    simp only [answers, LocalStore.answers, store.resolve_join dir hplain]
    cases hfind : (part.get s).find ((store.resolve dir).join name) with
    | error e => exact ⟨_, rfl⟩
    | ok found =>
      obtain ⟨q, node⟩ := found
      obtain rfl := Option.some.inj (hnode.symm.trans (Disk.find_join hplain hparent hfind))
      exact ⟨_, rfl⟩

/-- The names of a directory that take part in a comparison, in order. -/
def Names (dir : Path) (s : σ) (names : List String) : Prop :=
  ∃ listing, ((store.fileSystem.list dir).run s).1 = .ok listing ∧ Entry.OutputNames listing names

/-- Both outputs have a file of this name, and the two read the same. -/
def SameFile (r c : Path) (s : σ) (name : String) : Prop :=
  ∃ bytes, store.fileSystem.Reads (r.join name) s bytes ∧
    store.fileSystem.Reads (c.join name) s bytes

/-- Under a name there is a directory and no file. -/
def OnlyDir (dir : Path) (name : String) (s : σ) : Prop :=
  store.HasDir dir name s ∧ ¬ store.HasFile dir name s

/-- The directory that a comparison of two outputs comes to: both have the same names, the files of
the names before one are the same, and under it one of the outputs has only a directory, the
reference being opened first. -/
inductive Obstacle (r c : Path) (s : σ) : Path → Prop
  | reference {before after : List String} {name : String} :
      store.Names r s (before ++ name :: after) → store.Names c s (before ++ name :: after) →
      (∀ n ∈ before, store.SameFile r c s n) → store.OnlyDir r name s →
      Obstacle r c s (r.join name)
  | candidate {before after : List String} {name : String} :
      store.Names r s (before ++ name :: after) → store.Names c s (before ++ name :: after) →
      (∀ n ∈ before, store.SameFile r c s n) → store.HasFile r name s → store.OnlyDir c name s →
      Obstacle r c s (c.join name)

/-- Every file that lies directly in a directory can be read to its end. -/
def Readable (dir : Path) (s : σ) : Prop :=
  ∀ name, store.HasFile dir name s → ∃ bytes, store.fileSystem.Reads (dir.join name) s bytes

section

variable {store} (h : store.Reachable s)

include h

theorem Names.listed {xs ys : List String} (hr : store.Names r s xs) (hc : store.Names c s ys) :
    ∃ rs cs, (store.answers s).Listed r c rs cs xs ys := by
  obtain ⟨rs, hrs, hxs⟩ := hr
  obtain ⟨cs, hcs, hys⟩ := hc
  rw [(store.shows h).list_eq (Alike.refl store s)] at hrs hcs
  exact ⟨rs, cs, hrs, hcs, hxs, hys⟩

/-- The names of a directory are those of its files and directories but the marker's. -/
theorem IsDirectory.exists_names (hdir : store.IsDirectory dir s) :
    ∃ names, store.Names dir s names ∧
      ∀ name ∈ names, store.HasFile dir name s ∨ store.HasDir dir name s := by
  obtain ⟨listing, hlisting, hchild⟩ := store.list_of_isDirectory hdir
  have hnames := Manifest.outputNames_names listing
  refine ⟨_, ⟨listing, ?_, hnames⟩, fun name hname => ?_⟩
  · rw [(store.shows h).list_eq (Alike.refl store s), hlisting]
  · exact (hchild name).1 (List.mem_filter.1 (hnames.perm.mem_iff.1 hname)).1

/-- A file that can be read opens. -/
theorem Readable.stream (hdir : store.Readable dir s) (hfile : store.HasFile dir name s) :
    ∃ b, (store.answers s).stream (dir.join name) = .ok b := by
  obtain ⟨bytes, hreads⟩ := hdir name hfile
  obtain ⟨b, hb, _⟩ := ((store.shows h).reads_iff (Alike.refl store s)).1 hreads
  exact ⟨b, hb⟩

theorem Readable.onlyDir_of_error (hdir : store.Readable dir s) {e : StorageError}
    (hchild : store.HasFile dir name s ∨ store.HasDir dir name s)
    (he : (store.answers s).stream (dir.join name) = .error e) : store.OnlyDir dir name s := by
  have hfile : ¬ store.HasFile dir name s := by
    intro hfile
    obtain ⟨b, hb⟩ := hdir.stream h hfile
    rw [he] at hb
    cases hb
  exact ⟨hchild.resolve_left hfile, hfile⟩

theorem hasFile_of_ok {b : ByteStream}
    (hchild : store.HasFile dir name s ∨ store.HasDir dir name s)
    (hb : (store.answers s).stream (dir.join name) = .ok b) : store.HasFile dir name s := by
  refine Classical.byContradiction fun hfile => ?_
  obtain ⟨e, he⟩ := store.refused_of_hasDir h (hchild.resolve_left hfile) hfile
  rw [hb] at he
  cases he

/-- An obstacle is refused, and with this refusal the comparison ends. -/
theorem Obstacle.finding (hr : store.Readable r s) (hobstacle : store.Obstacle r c s p) :
    ∃ e, (store.answers s).stream p = .error e ∧
      (store.answers s).Finding (some r) (some c) (.error e) := by
  have hshows := store.shows h
  have hmatch {before : List String} (hb : ∀ n ∈ before, store.SameFile r c s n) :
      ∀ n ∈ before, (store.answers s).PairMatches r c n := fun n hn =>
    (hshows.pairMatches_iff (Alike.refl store s)).2 (hb n hn)
  cases hobstacle with
  | reference hxs hys hb honly =>
    obtain ⟨e, he⟩ := store.refused_of_hasDir h honly.1 honly.2
    obtain ⟨rs, cs, hl⟩ := hxs.listed h hys
    exact ⟨e, he, .unreadable hl (hmatch hb) (.reference he)⟩
  | candidate hxs hys hb hfile honly =>
    obtain ⟨e, he⟩ := store.refused_of_hasDir h honly.1 honly.2
    obtain ⟨rs, cs, hl⟩ := hxs.listed h hys
    obtain ⟨b, hb'⟩ := hr.stream h hfile
    exact ⟨e, he, .unreadable hl (hmatch hb) (.candidate hb' he)⟩

/-- Where there is no verdict there is an obstacle. -/
theorem obstacle_of_finding (hr : store.IsDirectory r s) (hc : store.IsDirectory c s)
    (hrfiles : store.Readable r s) (hcfiles : store.Readable c s) {e : StorageError}
    (hf : (store.answers s).Finding (some r) (some c) (.error e)) :
    ∃ p, store.Obstacle r c s p := by
  obtain ⟨xs, hxs, hrchild⟩ := hr.exists_names h
  obtain ⟨ys, hys, hcchild⟩ := hc.exists_names h
  obtain ⟨rs, cs, hl⟩ := hxs.listed h hys
  obtain ⟨before, name, after, rfl, rfl, hb, he⟩ :=
    (hl.finding_error_iff fun _ _ => store.failure?_of_stream).1 hf
  have hsame : ∀ n ∈ before, store.SameFile r c s n := fun n hn =>
    ((store.shows h).pairMatches_iff (Alike.refl store s)).1 (hb n hn)
  have hname : name ∈ before ++ name :: after := by simp
  rcases he with hr' | ⟨b, hb', hc'⟩
  · exact ⟨_, .reference hxs hys hsame (hrfiles.onlyDir_of_error h (hrchild name hname) hr')⟩
  · exact ⟨_, .candidate hxs hys hsame (hasFile_of_ok h (hrchild name hname) hb')
      (hcfiles.onlyDir_of_error h (hcchild name hname) hc')⟩

/-- Two directories of readable files come to a verdict unless the comparison comes to a directory;
what it gives then is the refusal to open this directory. -/
theorem compare_gives_verdict_iff (hr : store.IsDirectory r s) (hc : store.IsDirectory c s)
    (hrfiles : store.Readable r s) (hcfiles : store.Readable c s) :
    ((∃ verdict, ((store.fileSystem.compare (some r) (some c)).run s).1 = .ok verdict) ↔
      ¬ ∃ p, store.Obstacle r c s p) ∧
    ∀ p, store.Obstacle r c s p → ∃ e, ((store.fileSystem.openFile p).run s).1 = .error e ∧
      ((store.fileSystem.compare (some r) (some c)).run s).1 = .error e := by
  have hshows := store.shows h
  have hs := Alike.refl store s
  have hrefused (p : Path) (hobstacle : store.Obstacle r c s p) :
      ∃ e, ((store.fileSystem.openFile p).run s).1 = .error e ∧
        ((store.fileSystem.compare (some r) (some c)).run s).1 = .error e := by
    obtain ⟨e, he, hf⟩ := hobstacle.finding h hrfiles
    obtain ⟨t, hopen, _⟩ := hshows.refused hs he
    exact ⟨e, by rw [hopen], hshows.compare_of_finding hs hf⟩
  refine ⟨⟨?_, ?_⟩, hrefused⟩
  · rintro ⟨verdict, hverdict⟩ ⟨p, hobstacle⟩
    obtain ⟨e, _, herror⟩ := hrefused p hobstacle
    rw [hverdict] at herror
    cases herror
  · intro hnone
    cases hresult : ((store.fileSystem.compare (some r) (some c)).run s).1 with
    | ok verdict => exact ⟨verdict, rfl⟩
    | error e =>
      have hf := hshows.finding_of_compare hs hresult
      exact absurd (obstacle_of_finding h hr hc hrfiles hcfiles hf) hnone

end

/-- In a memory tree every file can be read. -/
theorem readable_memory (part : Part σ Memory) (h : (part.get s).Reachable) (dir : Path) :
    (Store.memory part).Readable dir s := by
  intro name hfile
  obtain ⟨data, hdata⟩ := Option.isSome_iff_exists.1 hfile
  have hname : Path.IsPlain name := h.plain.file _ hfile name (by simp)
  refine ⟨data, (FileSystem.Shows.reads_iff ((Store.memory part).shows h) (Alike.refl _ s)).2 ?_⟩
  have hstream := (Memory.stream_join_eq_ok_iff dir hname).2 ⟨data, hdata, rfl⟩
  exact ⟨_, hstream, rfl, ByteStream.content_ofBytes data⟩

/-- The reference has a file where the candidate has a directory. -/
def mixedTree : Memory := (Memory.empty.addFile ⟨"/r/x"⟩ [1]).addFile ⟨"/c/x/part"⟩ [1]

def mixedStore : Store Memory := .memory Part.whole

/-- A directory in the place of a file is no mismatch: the comparison fails. -/
theorem file_against_directory_gets_no_verdict :
    mixedStore.Reachable mixedTree ∧
      mixedStore.IsDirectory ⟨"/r"⟩ mixedTree ∧ mixedStore.IsDirectory ⟨"/c"⟩ mixedTree ∧
      mixedStore.Readable ⟨"/r"⟩ mixedTree ∧ mixedStore.Readable ⟨"/c"⟩ mixedTree ∧
      mixedStore.HasFile ⟨"/r"⟩ "x" mixedTree ∧ mixedStore.HasDir ⟨"/c"⟩ "x" mixedTree ∧
      ((mixedStore.fileSystem.compare (some ⟨"/r"⟩) (some ⟨"/c"⟩)).run mixedTree).1 =
        .error (.isADirectory ⟨"/c/x"⟩) := by
  have h : mixedStore.Reachable mixedTree :=
    Memory.Reachable.addFile ⟨"/c/x/part"⟩ [1] (.addFile ⟨"/r/x"⟩ [1] .empty)
  have hreadable (dir : Path) : mixedStore.Readable dir mixedTree := readable_memory _ h dir
  have hfile : mixedStore.HasFile ⟨"/r"⟩ "x" mixedTree := rfl
  have hdir : mixedStore.HasDir ⟨"/c"⟩ "x" mixedTree := rfl
  have honly : ¬ mixedStore.HasFile ⟨"/c"⟩ "x" mixedTree := Bool.false_ne_true
  have hr : Entry.OutputNames [Entry.file "x" 1] ([] ++ "x" :: []) := ⟨by decide, by decide⟩
  have hc : Entry.OutputNames [Entry.dir "x"] ([] ++ "x" :: []) := ⟨by decide, by decide⟩
  have hobstacle : mixedStore.Obstacle ⟨"/r"⟩ ⟨"/c"⟩ mixedTree (Path.join ⟨"/c"⟩ "x") :=
    .candidate ⟨_, rfl, hr⟩ ⟨_, rfl, hc⟩ (by simp) hfile ⟨hdir, honly⟩
  obtain ⟨e, he, hf⟩ := hobstacle.finding h (hreadable _)
  have hrefusal : (mixedStore.answers mixedTree).stream (Path.join ⟨"/c"⟩ "x") =
      .error (.isADirectory ⟨"/c/x"⟩) := rfl
  rw [hrefusal] at he
  cases he
  exact ⟨h, ⟨rfl, rfl⟩, ⟨rfl, rfl⟩, hreadable _, hreadable _, hfile, hdir,
    (mixedStore.shows h).compare_of_finding (Alike.refl _ _) hf⟩

/-- Two outputs on a disk with a file that is the same and a directory of one name each. -/
def nestedDisk : Disk :=
  let create (p : Path) (d : Disk) : Disk := ((LocalStore.fileSystem ⟨none⟩).create p |>.run d).2
  create ⟨"/c/x/part"⟩ (create ⟨"/c/a"⟩ (create ⟨"/r/x/part"⟩ (create ⟨"/r/a"⟩ .empty)))

def nestedStore : Store Disk := .disk Part.whole ⟨none⟩

theorem reachable_nestedDisk : nestedStore.Reachable nestedDisk :=
  .create _ _ (.create _ _ (.create _ _ (.create _ _ .empty)))

theorem readable_nestedDisk {dir : Path} (h : dir = ⟨"/r"⟩ ∨ dir = ⟨"/c"⟩) :
    nestedStore.Readable dir nestedDisk := by
  have hname {place : List String} {name : String} {id : Nat} {data : Bytes}
      (hplace : place = ["r"] ∨ place = ["c"])
      (hnode : nestedDisk.node? (place ++ [name]) = some (.file id data)) : name = "a" := by
    have hr : nestedDisk.childrenAt ["r"] = [("a", .file 0 []), ("x", .dir)] := by decide
    have hc : nestedDisk.childrenAt ["c"] = [("a", .file 2 []), ("x", .dir)] := by decide
    have hchild := Disk.mem_childrenAt.2 hnode
    rcases hplace with rfl | rfl
    · rw [hr] at hchild
      simp at hchild
      exact hchild.1
    · rw [hc] at hchild
      simp at hchild
      exact hchild.1
  intro name hfile
  obtain ⟨place, id, data, hplace, hnode⟩ := hfile
  rcases h with rfl | rfl
  · cases hplace
    obtain rfl := hname (.inl rfl) hnode
    exact ⟨[], rfl⟩
  · cases hplace
    obtain rfl := hname (.inr rfl) hnode
    exact ⟨[], rfl⟩

theorem nested_outputs_get_no_verdict :
    nestedStore.Reachable nestedDisk ∧
      nestedStore.IsDirectory ⟨"/r"⟩ nestedDisk ∧ nestedStore.IsDirectory ⟨"/c"⟩ nestedDisk ∧
      nestedStore.Readable ⟨"/r"⟩ nestedDisk ∧ nestedStore.Readable ⟨"/c"⟩ nestedDisk ∧
      ((nestedStore.fileSystem.compare (some ⟨"/r"⟩) (some ⟨"/c"⟩)).run nestedDisk).1 =
        .error (.isADirectory ⟨"/r/x"⟩) := by
  have hr : nestedStore.IsDirectory ⟨"/r"⟩ nestedDisk := rfl
  have hc : nestedStore.IsDirectory ⟨"/c"⟩ nestedDisk := rfl
  have hrfiles := readable_nestedDisk (.inl rfl)
  have hcfiles := readable_nestedDisk (.inr rfl)
  have hnames : Entry.OutputNames [Entry.file "a" 0, Entry.dir "x"] (["a"] ++ "x" :: []) :=
    ⟨by decide, by decide⟩
  have hobstacle : nestedStore.Obstacle ⟨"/r"⟩ ⟨"/c"⟩ nestedDisk (Path.join ⟨"/r"⟩ "x") := by
    refine .reference ⟨_, rfl, hnames⟩ ⟨_, rfl, hnames⟩ (fun n hn => ?_) ⟨⟨["r"], rfl, rfl⟩, ?_⟩
    · obtain rfl := List.mem_singleton.1 hn
      exact ⟨[], rfl, rfl⟩
    · rintro ⟨place, id, data, hplace, hnode⟩
      cases hplace
      cases hnode
  obtain ⟨e, hopen, hcompare⟩ := (compare_gives_verdict_iff reachable_nestedDisk hr hc hrfiles
    hcfiles).2 _ hobstacle
  have hrefusal : ((nestedStore.fileSystem.openFile (Path.join ⟨"/r"⟩ "x")).run nestedDisk).1 =
      .error (.isADirectory ⟨"/r/x"⟩) := rfl
  rw [hrefusal] at hopen
  cases hopen
  exact ⟨reachable_nestedDisk, hr, hc, hrfiles, hcfiles, hcompare⟩

end Store
end OffloadCheck
