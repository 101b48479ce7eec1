import OffloadCheck.Proofs.Comparison
import OffloadCheck.Proofs.Invariants
import OffloadCheck.Proofs.Memory

/-! # Outputs in a memory tree

A directory that holds some files lists exactly these. So two outputs of a memory tree compare equal
exactly when they hold the same files, whatever else is in the tree. -/

-- What is assumed of names is assumed together, also where a lemma needs less.
set_option linter.unusedSectionVars false

namespace OffloadCheck

/-- A filesystem in a part of a world gives the answers that it gives on the part. -/
theorem FileSystem.Shows.part {σ τ ν : Type} {fs : FileSystem τ ν}
    {worlds : τ → Prop} {v : Answers ν}
    (h : fs.Shows worlds v) (part : Part σ τ) :
    (part.fileSystem fs).Shows (fun s => worlds (part.get s)) v where
  list {s} hs p := by
    obtain ⟨t, hrun, ht⟩ := h.list hs p
    refine ⟨part.put t s, ?_, by rwa [part.get_put]⟩
    exact (Action.run_within _ _ _ s).trans (by rw [hrun])
  opened {s} hs {p b} hb := by
    obtain ⟨f, t, hrun, ht, hf⟩ := h.opened hs hb
    have hwithin : ((fs.openFile p).within part.get part.put).run s = (.ok f, part.put t s) := by
      rw [Action.run_within, hrun]
    refine ⟨fun u => f (part.get u), part.put t s, ?_, by rwa [part.get_put], fun u hu => hf _ hu⟩
    exact Action.run_bind_of_ok hwithin
  refused {s} hs {p e} he := by
    obtain ⟨t, hrun, ht⟩ := h.refused hs he
    have hwithin : ((fs.openFile p).within part.get part.put).run s =
        (.error e, part.put t s) := by
      rw [Action.run_within, hrun]
    exact ⟨part.put t s, Action.run_bind_of_error hwithin, by rwa [part.get_put]⟩

namespace Memory

open Location

section

variable {ν : Type} [Ord ν] [Inhabited ν] [DecidableEq ν] [PathText ν] [Std.TransOrd ν]
  [Std.LawfulEqOrd ν] {m m' : Memory ν} {dir : Location ν} {files : SortedMap ν Bytes}
  {bytes : Bytes}

/-! ## Listing a directory -/

theorem childName_eq_some_iff {child dir : Location ν} {name : ν} :
    (if child.parent? = some dir then child.fileName? else none) = some name ↔
      child = dir ++ [.normal name] := by
  constructor
  · intro h
    split at h
    · next hparent =>
      unfold fileName? at h
      split at h
      · next last hlast =>
        cases h
        rw [parent?, hlast] at hparent
        obtain rfl := Option.some.inj hparent
        obtain ⟨front, rfl⟩ := List.getLast?_eq_some_iff.1 hlast
        rw [List.dropLast_concat]
      · cases h
    · cases h
  · intro heq
    subst heq
    rw [if_pos (by simp [parent?])]
    simp [fileName?]

/-- The names and data of the files that lie directly in a directory. -/
def filesIn (m : Memory ν) (dir : Location ν) : List (ν × Bytes) :=
  m.files.entries.filterMap fun e =>
    (if e.1.parent? = some dir then e.1.fileName? else none).map fun name => (name, e.2.data)

theorem mem_filesIn {name : ν} : (name, bytes) ∈ m.filesIn dir ↔
    m.data? (dir ++ [.normal name]) = some bytes := by
  rw [filesIn, List.mem_filterMap, data?, file?]
  constructor
  · intro h
    obtain ⟨⟨l, f⟩, hmem, heq⟩ := h
    obtain ⟨found, hname, heq⟩ := Option.map_eq_some_iff.1 heq
    cases heq
    obtain rfl := childName_eq_some_iff.1 hname
    rw [(SortedMap.mem_entries_iff _).1 hmem]
    rfl
  · intro h
    obtain ⟨f, hf, rfl⟩ := Option.map_eq_some_iff.1 h
    refine ⟨(_, f), (SortedMap.mem_entries_iff _).2 hf, ?_⟩
    rw [childName_eq_some_iff.2 rfl]
    rfl

theorem pairwise_filesIn (m : Memory ν) (dir : Location ν) :
    (m.filesIn dir).Pairwise fun a b => a.1 ≠ b.1 := by
  rw [filesIn, List.pairwise_filterMap]
  refine m.files.pairwise_ne_entries.imp ?_
  intro a b hne c hc c' hd heq
  obtain ⟨name, hname, rfl⟩ := Option.map_eq_some_iff.1 hc
  obtain ⟨name', hname', rfl⟩ := Option.map_eq_some_iff.1 hd
  rw [childName_eq_some_iff] at hname hname'
  exact hne (by rw [hname, hname', show name = name' from heq])

theorem nodup_filesIn (m : Memory ν) (dir : Location ν) : (m.filesIn dir).Nodup :=
  (pairwise_filesIn m dir).imp fun hne heq => hne (congrArg Prod.fst heq)

/-- The names of the directories that lie directly in a directory. -/
def dirsIn (m : Memory ν) (dir : Location ν) : List ν :=
  m.dirs.entries.filterMap fun e => if e.1.parent? = some dir then e.1.fileName? else none

theorem mem_dirsIn {name : ν} :
    name ∈ m.dirsIn dir ↔ m.isDir (dir ++ [.normal name]) = true := by
  rw [dirsIn, List.mem_filterMap, isDir, SortedMap.contains]
  constructor
  · intro h
    obtain ⟨⟨l, u⟩, hmem, hname⟩ := h
    obtain rfl := childName_eq_some_iff.1 hname
    rw [(SortedMap.mem_entries_iff _).1 hmem]
    rfl
  · intro h
    obtain ⟨u, hu⟩ := Option.isSome_iff_exists.1 h
    exact ⟨(_, u), (SortedMap.mem_entries_iff _).2 hu, childName_eq_some_iff.2 rfl⟩

/-- A listing shows the files and then the directories. -/
theorem children_eq (m : Memory ν) (dir : Location ν) : m.children dir =
    (m.filesIn dir).map (fun e => Entry.file (PathText.shown e.1) e.2.length) ++
      (m.dirsIn dir).map fun name => Entry.dir (PathText.shown name) := by
  have hfiles : (m.filesIn dir).map (fun e => Entry.file (PathText.shown e.1) e.2.length) =
      m.files.entries.filterMap fun e =>
        (if e.1.parent? = some dir then e.1.fileName? else none).map fun name =>
          Entry.file (PathText.shown name) e.2.data.length := by
    rw [filesIn, List.map_filterMap]
    refine congrArg (fun f => List.filterMap f m.files.entries) ?_
    funext e
    rw [Option.map_map]
    rfl
  rw [hfiles, dirsIn, List.map_filterMap]
  rfl

theorem legible_of_mem_filesIn (hl : m.Legible dir) {file : ν × Bytes}
    (h : file ∈ m.filesIn dir) : PathText.Legible file.1 :=
  hl _ (.inl (by rw [mem_filesIn.1 h]; rfl))

theorem legible_of_mem_dirsIn (hl : m.Legible dir) {name : ν} (h : name ∈ m.dirsIn dir) :
    PathText.Legible name :=
  hl _ (.inr (mem_dirsIn.1 h))

/-- The names of what lies directly in a directory, those of the files first. -/
def namesIn (m : Memory ν) (dir : Location ν) : List ν :=
  (m.filesIn dir).map (·.1) ++ m.dirsIn dir

theorem mem_namesIn {name : ν} : name ∈ m.namesIn dir ↔ m.Occupied (dir ++ [.normal name]) := by
  rw [namesIn, List.mem_append, mem_dirsIn, Occupied, Option.isSome_iff_exists, List.mem_map]
  refine or_congr_left ?_
  constructor
  · rintro ⟨file, hfile, rfl⟩
    exact ⟨file.2, mem_filesIn.1 hfile⟩
  · rintro ⟨bytes, hbytes⟩
    exact ⟨_, mem_filesIn.2 hbytes, rfl⟩

/-- A listing tells the names as they are shown. -/
theorem map_name_children (m : Memory ν) (dir : Location ν) :
    (m.children dir).map (·.name) = (m.namesIn dir).map PathText.shown := by
  rw [children_eq, namesIn, List.map_append, List.map_append, List.map_map, List.map_map,
    List.map_map]
  rfl

theorem Fills.filesIn_perm (h : Fills m dir files) : (m.filesIn dir).Perm files.entries := by
  refine (List.perm_ext_iff_of_nodup (nodup_filesIn m dir) files.nodup_entries).2 ?_
  intro file
  obtain ⟨name, bytes⟩ := file
  rw [mem_filesIn, h.data, SortedMap.mem_entries_iff]
  rfl

/-- The files are all that a listing shows. -/
theorem Fills.children_perm (h : Fills m dir files) :
    (m.children dir).Perm
      (files.entries.map fun e => Entry.file (PathText.shown e.1) e.2.length) := by
  have hdirs : m.dirsIn dir = [] := by
    refine List.eq_nil_iff_forall_not_mem.2 fun name hname => ?_
    rw [mem_dirsIn, h.below _ (by simp)] at hname
    cases hname
  rw [children_eq, hdirs, List.map_nil, List.append_nil]
  exact h.filesIn_perm.map _

/-! ## What a memory tree answers -/

/-- What the tree says of its directories and files. -/
def answers (m : Memory ν) : Answers ν where
  list := m.list
  stream p :=
    match m.file? p.components with
    | some f => .ok (ByteStream.ofBytes f.data)
    | none => .error (m.missing p)

/-- The stream of a child is what its file holds. -/
theorem stream_join_eq_ok_iff [LawfulPathText ν] (p : Path ν) {name : String}
    (hname : Path.IsPlain (PathText.ofText name : ν)) {b : ByteStream} :
    m.answers.stream (p.join name) = .ok b ↔ ∃ data,
      m.data? (p.components ++ [.normal (PathText.ofText name)]) = some data ∧
        ByteStream.ofBytes data = b := by
  simp only [answers, Path.components_join_text p hname, data?]
  cases m.file? (p.components ++ [.normal (PathText.ofText name)]) <;> simp

/-- The trees have the same files and directories. -/
def Same (m m' : Memory ν) : Prop := m'.files = m.files ∧ m'.dirs = m.dirs

theorem Same.eq (h : Same m m') : m' = { m with opens := m'.opens } := by
  obtain ⟨files, dirs, opens⟩ := m'
  obtain ⟨rfl, rfl⟩ := h
  rfl

theorem Same.data? (h : Same m m') (l : Location ν) : m'.data? l = m.data? l := by
  rw [h.eq]
  rfl

theorem Same.grows (h : Same m m') (dir : Location ν) : Grows dir m m' := by
  rw [h.eq]
  exact ⟨fun _ _ _ => rfl, fun _ _ _ => rfl, fun _ hl => hl, fun _ hl => hl⟩

theorem shows_same (m : Memory ν) : fileSystem.Shows (Same m) m.answers where
  list {t} ht p := by
    refine ⟨t, ?_, ht⟩
    have hlist : t.list p = m.list p := by rw [ht.eq]; rfl
    have hrun : (fileSystem.list p).run t = (t.list p, t) := rfl
    rw [hrun, hlist]
    rfl
  opened {t} ht {p b} hb := by
    have hfile : t.file? p.components = m.file? p.components := by rw [ht.eq]; rfl
    cases hf : m.file? p.components with
    | none => simp [answers, hf] at hb
    | some f =>
      rw [hf] at hfile
      simp only [answers, hf, Except.ok.injEq] at hb
      have hopen : (fileSystem.openFile p).run t =
          (.ok fun _ => ByteStream.ofBytes f.data, { t with opens := t.opens + 1 }) := by
        simp [Action.run, fileSystem, hfile]
      exact ⟨_, _, hopen, ht, fun _ _ => hb⟩
  refused {t} ht {p e} he := by
    have hfile : t.file? p.components = m.file? p.components := by rw [ht.eq]; rfl
    cases hf : m.file? p.components with
    | some f => simp [answers, hf] at he
    | none =>
      rw [hf] at hfile
      simp only [answers, hf, Except.error.injEq] at he
      have hmissing : t.missing p = m.missing p := by rw [ht.eq]; rfl
      refine ⟨t, ?_, ht⟩
      simp [Action.run, fileSystem, hfile, hmissing, he]

theorem shows_fileSystem {σ : Type} (part : Part σ (Memory ν)) (m : Memory ν) :
    (part.fileSystem fileSystem).Shows (fun s => Same m (part.get s)) m.answers :=
  (shows_same m).part part

/-- The summed lengths of files. -/
def bytesIn (files : SortedMap ν Bytes) : Nat :=
  (files.entries.map (·.2.length)).foldr (· + ·) 0

end

variable {m m' : Memory} {dir : Location} {files : SortedMap String Bytes} {bytes : Bytes}

/-- A directory holds files of plain names and the completion marker. -/
structure HasOutput (m : Memory) (dir : Path) (files : SortedMap String Bytes) : Prop where
  holds : m.Holds dir.components (files.insert Entry.markerName [])
  plain : ∀ name data, files.get? name = some data → Path.IsPlain name
  unmarked : files.get? Entry.markerName = none

namespace HasOutput

variable {p r c : Path} {R C : SortedMap String Bytes}

theorem keys_ordered (files : SortedMap String Bytes) : files.keys.Pairwise (· ≤ ·) := by
  rw [SortedMap.keys, List.pairwise_map]
  refine files.sorted.imp ?_
  intro a b hlt
  exact (Manifest.isLE_compare_iff _ _).1 (by rw [hlt]; rfl)

theorem listed (h : HasOutput m p files) :
    ∃ listing, m.answers.list p = .ok listing ∧ Entry.OutputNames listing files.keys ∧
      Entry.total listing = bytesIn files := by
  have hnofile : m.file? p.components = none := by
    have hdata := h.holds.data []
    rw [List.append_nil] at hdata
    exact Option.map_eq_none_iff.1 hdata
  have hlist : m.answers.list p = .ok (m.children p.components) := by
    simp [answers, list, hnofile, h.holds.isDir]
  have hperm : (m.children p.components).Perm
      (Entry.file Entry.markerName 0 :: files.entries.map fun e => Entry.file e.1 e.2.length) :=
    h.holds.children_perm.trans ((SortedMap.entries_insert_perm h.unmarked []).map _)
  have hunmarked : ∀ name ∈ files.keys, (name != Entry.markerName) = true := by
    intro name hname
    obtain ⟨⟨_, data⟩, hmem, rfl⟩ := List.mem_map.1 hname
    rw [bne_iff_ne]
    intro heq
    subst heq
    rw [SortedMap.mem_entries_iff, h.unmarked] at hmem
    cases hmem
  refine ⟨_, hlist, ⟨keys_ordered files, ?_⟩, ?_⟩
  · have hnames := (hperm.map (·.name)).filter (· != Entry.markerName)
    rw [List.map_cons, List.map_map] at hnames
    have hfilter : files.keys.filter (· != Entry.markerName) = files.keys :=
      List.filter_eq_self.2 hunmarked
    refine hnames.trans ?_ |>.symm
    rw [List.filter_cons_of_neg (by simp [Entry.file])]
    exact List.Perm.of_eq hfilter
  · have hsum := (hperm.map (·.length)).foldr_eq' (fun a _ b _ n => Nat.add_left_comm b a n) 0
    rw [List.map_cons, List.map_map, List.foldr_cons] at hsum
    exact hsum.trans (Nat.zero_add _)

theorem stream_join (h : HasOutput m p files) {name : String} {data : Bytes}
    (hname : files.get? name = some data) :
    m.answers.stream (p.join name) = .ok (ByteStream.ofBytes data) := by
  have hne : compare name Entry.markerName ≠ .eq := by
    intro heq
    obtain rfl := Std.LawfulEqOrd.eq_of_compare heq
    rw [h.unmarked] at hname
    cases hname
  have hdata : m.data? (p.components ++ [.normal name]) = some data := by
    rw [h.holds.data, dataBelow, SortedMap.get?_insert, if_neg hne, hname]
  exact (stream_join_eq_ok_iff p (h.plain name _ hname)).2 ⟨data, hdata, rfl⟩

theorem listed_eq (hr : HasOutput m r R) (hc : HasOutput m c C) {rs cs : List Entry}
    {xs ys : List String} (h : m.answers.Listed r c rs cs xs ys) :
    xs = R.keys ∧ ys = C.keys ∧ Entry.total rs = bytesIn R ∧ Entry.total cs = bytesIn C := by
  obtain ⟨rs', hrs, hxs, hrtotal⟩ := hr.listed
  obtain ⟨cs', hcs, hys, hctotal⟩ := hc.listed
  obtain rfl := Except.ok.inj (hrs.symm.trans h.reference)
  obtain rfl := Except.ok.inj (hcs.symm.trans h.candidate)
  exact ⟨h.referenceNames.eq hxs, h.candidateNames.eq hys, hrtotal, hctotal⟩

/-- Outputs of the same files match. -/
theorem finding_of_same (hr : HasOutput m r R) (hc : HasOutput m c R) :
    m.answers.Finding (some r) (some c) (.ok (.pass R.size (bytesIn R))) := by
  obtain ⟨rs, hrs, hxs, hrtotal⟩ := hr.listed
  obtain ⟨cs, hcs, hys, hctotal⟩ := hc.listed
  have hmatch : ∀ name ∈ R.keys, m.answers.PairMatches r c name := by
    intro name hname
    obtain ⟨data, hdata⟩ := R.mem_keys_iff.1 hname
    exact ⟨_, _, hr.stream_join hdata, hc.stream_join hdata, rfl, rfl, rfl⟩
  have hpass := Answers.Finding.pass ⟨hrs, hcs, hxs, hys⟩ hmatch (hrtotal.trans hctotal.symm)
  have hsize : R.keys.length = R.size := List.length_map _
  rw [hrtotal, hsize] at hpass
  exact hpass

/-- The data of a pair is what two outputs hold under its name. -/
theorem stream_content (h : HasOutput m p files) {name : String} (hname : name ∈ files.keys)
    {b : ByteStream} (hb : m.answers.stream (p.join name) = .ok b) :
    files.get? name = some b.content ∧ b.failure? = none := by
  obtain ⟨data, hdata⟩ := files.mem_keys_iff.1 hname
  obtain rfl := Except.ok.inj ((h.stream_join hdata).symm.trans hb)
  exact ⟨by rw [hdata, ByteStream.content_ofBytes], rfl⟩

theorem same_of_matches (hr : HasOutput m r R) (hc : HasOutput m c C) (hkeys : R.keys = C.keys)
    (hmatch : ∀ name ∈ R.keys, m.answers.PairMatches r c name) : R = C := by
  refine SortedMap.ext_get? fun name => ?_
  by_cases hname : name ∈ R.keys
  · obtain ⟨a, b, ha, hb, hab⟩ := hmatch name hname
    rw [(hr.stream_content hname ha).1, (hc.stream_content (hkeys ▸ hname) hb).1, hab.content]
  · have hnone {files : SortedMap String Bytes} (h : name ∉ files.keys) :
        files.get? name = none := by
      rw [SortedMap.mem_keys_iff, not_exists] at h
      exact Option.eq_none_iff_forall_not_mem.2 h
    rw [hnone hname, hnone (hkeys ▸ hname)]

/-- Files of outputs can be read. -/
theorem not_pairFails (hr : HasOutput m r R) (hc : HasOutput m c C) {name : String}
    (hR : name ∈ R.keys) (hC : name ∈ C.keys) (e : StorageError) :
    ¬ m.answers.PairFails r c name e := by
  obtain ⟨data, hdata⟩ := R.mem_keys_iff.1 hR
  obtain ⟨data', hdata'⟩ := C.mem_keys_iff.1 hC
  have hr' := hr.stream_join hdata
  have hc' := hc.stream_join hdata'
  intro h
  cases h with
  | reference ha =>
    rw [hr'] at ha
    cases ha
  | candidate _ hb =>
    rw [hc'] at hb
    cases hb
  | reading ha hb hab =>
    have hafail := (hr.stream_content hR ha).2
    have hbfail := (hc.stream_content hC hb).2
    cases hab with
    | reference _ hf =>
      rw [hafail] at hf
      cases hf
    | candidate _ hf _ =>
      rw [hbfail] at hf
      cases hf

/-- Outputs of different files come to a mismatch. -/
theorem finding_of_ne (hr : HasOutput m r R) (hc : HasOutput m c C) (hne : R ≠ C) :
    ∃ mismatch, m.answers.Finding (some r) (some c) (.ok (.fail mismatch)) := by
  -- Whatever the finding is, it is no failure, and with a pass the files would be the same.
  obtain ⟨result, hf⟩ := m.answers.exists_finding (some r) (some c)
  cases hf with
  | referenceUnlisted h =>
    obtain ⟨rs, hrs, _⟩ := hr.listed
    rw [hrs] at h
    cases h
  | candidateUnlisted _ h =>
    obtain ⟨cs, hcs, _⟩ := hc.listed
    rw [hcs] at h
    cases h
  | fileCount hl hlen => exact ⟨_, .fileCount hl hlen⟩
  | fileName hl hlen hxy => exact ⟨_, .fileName hl hlen hxy⟩
  | unreadable hl hb he =>
    obtain ⟨hR, hC, _⟩ := listed_eq hr hc hl
    exact absurd he (not_pairFails hr hc (hR ▸ by simp) (hC ▸ by simp) _)
  | content hl hb hd => exact ⟨_, .content hl hb hd⟩
  | aggregate hl hb ht => exact ⟨_, .aggregate hl hb ht⟩
  | pass hl hmatch ht =>
    obtain ⟨rfl, hkeys, _⟩ := listed_eq hr hc hl
    exact absurd (same_of_matches hr hc hkeys hmatch) hne

end HasOutput

/-! ## Comparing in a world that holds the tree -/

theorem HasOutput.same {p : Path} (h : HasOutput m p files) (hs : Same m m') :
    HasOutput m' p files := by
  rw [hs.eq]
  exact ⟨⟨⟨h.holds.data, h.holds.below⟩, h.holds.isDir⟩, h.plain, h.unmarked⟩

theorem HasOutput.grows {p : Path} (h : HasOutput m p files) (hg : Grows dir m m')
    (hp : Apart p.components dir) : HasOutput m' p files :=
  ⟨h.holds.grows hg hp, h.plain, h.unmarked⟩

variable {σ : Type} (part : Part σ Memory)

/-- Comparing changes neither files nor directories. -/
theorem same_compare (reference candidate : Option Path) (s : σ) :
    Same (part.get s)
      (part.get (((part.fileSystem fileSystem).compare reference candidate).run s).2) := by
  have hkeeps : Action.Keeps (fun s => ((part.get s).files, (part.get s).dirs))
      ((part.fileSystem fileSystem).compare reference candidate) := by
    refine FileSystem.keeps_compare (fun p => ?_) (fun p => ?_) reference candidate
    · intro s
      have hrun : ((part.fileSystem fileSystem).list p).run s =
          ((part.get s).list p, part.put (part.get s) s) := rfl
      simp only [hrun, part.get_put]
    · refine Action.Keeps.bind ?_ fun stream => Action.keeps_pure _
      intro s
      cases hf : (part.get s).file? p.components with
      | none => simp [Action.run, Action.within, fileSystem, hf, part.get_put]
      | some f => simp [Action.run, Action.within, fileSystem, hf, part.get_put]
  exact Prod.mk.inj (hkeeps s)

end Memory
end OffloadCheck
