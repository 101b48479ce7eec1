import OffloadCheck.Proofs.Names
import OffloadCheck.Proofs.Outputs
import OffloadCheck.Proofs.RawNames

/-! # What a pass means on a memory tree

A comparison of two directories of a memory tree passes exactly when they hold the same files, the
completion marker counted by its length only, and no directory besides. The tree may hold anything
else. Names and locations of children correspond to each other because names are plain
(`Memory.Plain`), and the lengths that a listing shows are those of the contents. -/

-- What is assumed of names is assumed together, also where a lemma needs less.
set_option linter.unusedSectionVars false

namespace OffloadCheck.Memory

variable {ν : Type} [Ord ν] [Inhabited ν] [DecidableEq ν] [PathText ν] [Std.TransOrd ν]
  [Std.LawfulEqOrd ν] {m : Memory ν} {dir : Location ν} {r c p : Path ν}

/-! ## The files of an output -/

/-- The name of the completion marker. -/
def markerName : ν := PathText.ofText Entry.markerName

/-- The contents of the files that lie directly in a directory, by name and without the marker. -/
def outputFiles (m : Memory ν) (dir : Location ν) : SortedMap ν Bytes :=
  .ofList ((m.filesIn dir).filter fun file => file.1 != markerName)

/-- The length of the completion marker, which is zero where there is no such file. -/
def markerLength (m : Memory ν) (dir : Location ν) : Nat :=
  ((m.data? (dir ++ [.normal markerName])).getD []).length

/-- No directory lies directly in a directory, unless it has the name of the marker. -/
def Flat (m : Memory ν) (dir : Location ν) : Prop :=
  ∀ name, m.isDir (dir ++ [.normal name]) = true → name = markerName

theorem outputFiles_perm (m : Memory ν) (dir : Location ν) : (m.outputFiles dir).entries.Perm
    ((m.filesIn dir).filter fun file => file.1 != markerName) :=
  SortedMap.entries_ofList_perm ((pairwise_filesIn m dir).filter _)

theorem get?_outputFiles {name : ν} {bytes : Bytes} :
    (m.outputFiles dir).get? name = some bytes ↔
      m.data? (dir ++ [.normal name]) = some bytes ∧ name ≠ markerName := by
  rw [outputFiles, SortedMap.get?_ofList_eq_some_iff ((pairwise_filesIn m dir).filter _),
    List.mem_filter, mem_filesIn, bne_iff_ne]

theorem markerFiles_perm (m : Memory ν) (dir : Location ν) :
    ((m.filesIn dir).filter fun file => !(file.1 != markerName)).Perm
      ((m.data? (dir ++ [.normal markerName])).toList.map (markerName, ·)) := by
  refine (List.perm_ext_iff_of_nodup ((nodup_filesIn m dir).filter _) ?_).2 ?_
  · cases m.data? (dir ++ [.normal markerName]) <;> simp
  · rintro ⟨name, bytes⟩
    rw [List.mem_filter, mem_filesIn]
    simp only [bne, Bool.not_not, beq_iff_eq, List.mem_map, Option.mem_toList,
      Prod.mk.injEq]
    constructor
    · rintro ⟨hdata, rfl⟩
      exact ⟨bytes, hdata, rfl, rfl⟩
    · rintro ⟨_, hdata, rfl, rfl⟩
      exact ⟨hdata, rfl⟩

/-- The lengths that a listing shows are those of the output files and of the marker. -/
theorem total_children (m : Memory ν) (dir : Location ν) :
    Entry.total (m.children dir) = bytesIn (m.outputFiles dir) + m.markerLength dir := by
  have hfiles := (List.filter_append_perm (fun file => file.1 != markerName)
    (m.filesIn dir)).symm.trans ((outputFiles_perm m dir).symm.append (markerFiles_perm m dir))
  have hsum := (hfiles.map fun file => file.2.length).sum_nat
  rw [List.map_append, List.sum_append_nat, List.map_map] at hsum
  have hmarker : (((m.data? (dir ++ [.normal markerName])).toList.map
      ((fun file : ν × Bytes => file.2.length) ∘ (markerName, ·)))).sum =
        m.markerLength dir := by
    unfold markerLength
    cases m.data? (dir ++ [.normal markerName]) <;> simp
  have hdirs : ((m.dirsIn dir).map
      ((·.length) ∘ fun name => Entry.dir (PathText.shown name))).sum = 0 := by
    refine List.sum_eq_zero_iff_forall_eq_nat.2 fun n hn => ?_
    obtain ⟨_, _, rfl⟩ := List.mem_map.1 hn
    rfl
  calc Entry.total (m.children dir)
      = ((m.filesIn dir).map fun file => file.2.length).sum +
          ((m.dirsIn dir).map ((·.length) ∘ fun name => Entry.dir (PathText.shown name))).sum := by
        rw [Entry.total, children_eq, List.map_append, List.map_map, List.map_map]
        exact List.sum_append_nat
    _ = bytesIn (m.outputFiles dir) + m.markerLength dir := by
        rw [hdirs, hsum, hmarker]
        rfl

theorem flat_iff : m.Flat dir ↔ ∀ name ∈ m.dirsIn dir, name = markerName :=
  forall_congr' fun _ => by rw [mem_dirsIn]

/-! ## Names of an output -/

variable [LawfulPathText ν]

/-- The names that take part in a comparison are those of the files and of the directories. -/
theorem mem_outputNames (hl : m.Legible dir) {name : String} {names : List String}
    (h : Entry.OutputNames (m.children dir) names) : name ∈ names ↔
      name ≠ Entry.markerName ∧ m.Occupied (dir ++ [.normal (PathText.ofText name)]) := by
  rw [h.perm.mem_iff, List.mem_filter, bne_iff_ne, and_comm, map_name_children, List.mem_map]
  refine and_congr_right fun _ => ?_
  constructor
  · rintro ⟨other, hother, hname⟩
    have hthere := mem_namesIn.1 hother
    rwa [← (hl other hthere).shown_eq_iff.1 hname]
  · intro hthere
    exact ⟨_, mem_namesIn.2 hthere, LawfulPathText.shown_ofText name⟩

/-- Without further directories these are the names of the files. -/
theorem outputNames_perm (hl : m.Legible dir) (h : m.Flat dir) :
    (((m.children dir).map (·.name)).filter (· != Entry.markerName)).Perm
      ((m.outputFiles dir).keys.map PathText.shown) := by
  have hmarker {name : ν} (hname : PathText.Legible name) :
      (PathText.shown name != Entry.markerName) = (name != markerName) := by
    rw [Bool.eq_iff_iff, bne_iff_ne, bne_iff_ne]
    exact not_congr hname.shown_eq_iff
  have hdirs : ((m.dirsIn dir).map PathText.shown).filter (· != Entry.markerName) = [] := by
    refine List.filter_eq_nil_iff.2 fun other hother => ?_
    obtain ⟨name, hname, rfl⟩ := List.mem_map.1 hother
    rw [hmarker (legible_of_mem_dirsIn hl hname), h name (mem_dirsIn.1 hname)]
    simp
  have hfiles : ((m.filesIn dir).map fun file => PathText.shown file.1).filter
      (· != Entry.markerName) = ((m.filesIn dir).filter fun file => file.1 != markerName).map
        fun file => PathText.shown file.1 := by
    rw [List.filter_map]
    refine congrArg _ (List.filter_congr fun file hfile => ?_)
    exact hmarker (legible_of_mem_filesIn hl hfile)
  rw [map_name_children, namesIn, List.map_append, List.map_map, List.filter_append, hdirs,
    List.append_nil, SortedMap.keys, List.map_map]
  refine (List.Perm.of_eq hfiles).trans ?_
  exact (outputFiles_perm m dir).symm.map _

theorem isPlain_of_mem_outputNames (hm : m.Plain) (hl : m.Legible dir) {name : String}
    {names : List String} (h : Entry.OutputNames (m.children dir) names) (hname : name ∈ names) :
    Path.IsPlain (PathText.ofText name : ν) := by
  rcases ((mem_outputNames hl h).1 hname).2 with hfile | hdir
  · exact hm.file _ hfile _ (by simp)
  · exact hm.dir _ hdir _ (by simp)

/-! ## Outputs that match -/

theorem pairMatches_iff {name : String} (hname : Path.IsPlain (PathText.ofText name : ν)) :
    m.answers.PairMatches r c name ↔
      ∃ data, m.data? (r.components ++ [.normal (PathText.ofText name)]) = some data ∧
        m.data? (c.components ++ [.normal (PathText.ofText name)]) = some data := by
  constructor
  · intro h
    obtain ⟨a, b, ha, hb, hab⟩ := h
    obtain ⟨data, hr, rfl⟩ := (stream_join_eq_ok_iff r hname).1 ha
    obtain ⟨data', hc, rfl⟩ := (stream_join_eq_ok_iff c hname).1 hb
    have hcontent := hab.content
    rw [ByteStream.content_ofBytes, ByteStream.content_ofBytes] at hcontent
    exact ⟨data, hr, by rw [hc, hcontent]⟩
  · intro h
    obtain ⟨data, hr, hc⟩ := h
    exact ⟨_, _, (stream_join_eq_ok_iff r hname).2 ⟨data, hr, rfl⟩,
      (stream_join_eq_ok_iff c hname).2 ⟨data, hc, rfl⟩, rfl, rfl, rfl⟩

/-- Where every name is a file's, no directory takes part. -/
theorem flat_of_files (hunmixed : m.Unmixed) (hl : m.Legible dir)
    {names : List String} (h : Entry.OutputNames (m.children dir) names)
    (hfiles : ∀ name ∈ names,
      (m.data? (dir ++ [.normal (PathText.ofText name)])).isSome = true) : m.Flat dir := by
  intro name hdir
  have hname := hl name (.inr hdir)
  refine Decidable.byContradiction fun hmarker => ?_
  have hshown : PathText.shown name ≠ Entry.markerName := fun heq =>
    hmarker (hname.shown_eq_iff.1 heq)
  have hthere : m.Occupied (dir ++ [.normal (PathText.ofText (PathText.shown name))]) := by
    rw [hname]
    exact .inr hdir
  have hfile := hfiles _ ((mem_outputNames hl h).2 ⟨hshown, hthere⟩)
  rw [hname, hunmixed _ hdir] at hfile
  cases hfile

/-- The outputs of two directories hold the same files and no directories. -/
structure Agree (m : Memory ν) (r c : Location ν) : Prop where
  reference : m.Flat r
  candidate : m.Flat c
  files : m.outputFiles r = m.outputFiles c

section

variable (hm : m.Plain) (hunmixed : m.Unmixed)
  (hlr : m.Legible r.components) (hlc : m.Legible c.components)

include hm hunmixed hlr hlc

/-- Two outputs of the same names match when they agree. -/
theorem matching_iff {names : List String}
    (hr : Entry.OutputNames (m.children r.components) names)
    (hc : Entry.OutputNames (m.children c.components) names) :
    (∀ name ∈ names, m.answers.PairMatches r c name) ↔ m.Agree r.components c.components := by
  have hpair {name : String} (hname : name ∈ names) : m.answers.PairMatches r c name ↔
      ∃ data, m.data? (r.components ++ [.normal (PathText.ofText name)]) = some data ∧
        m.data? (c.components ++ [.normal (PathText.ofText name)]) = some data :=
    pairMatches_iff (isPlain_of_mem_outputNames hm hlr hr hname)
  constructor
  · intro h
    refine ⟨flat_of_files hunmixed hlr hr fun name hname => ?_,
      flat_of_files hunmixed hlc hc fun name hname => ?_, SortedMap.ext_get? fun name => ?_⟩
    · obtain ⟨data, hdata, _⟩ := (hpair hname).1 (h name hname)
      rw [hdata]
      rfl
    · obtain ⟨data, _, hdata⟩ := (hpair hname).1 (h name hname)
      rw [hdata]
      rfl
    · refine Option.ext fun bytes => ?_
      rw [get?_outputFiles, get?_outputFiles]
      -- A file on either side makes the name that is shown of it one of those that match.
      have hshown {l : Location ν} (hl : m.Legible l)
          (hnames : Entry.OutputNames (m.children l) names)
          (hfile : m.data? (l ++ [.normal name]) = some bytes) (hmarker : name ≠ markerName) :
          ∃ data, m.data? (r.components ++ [.normal name]) = some data ∧
            m.data? (c.components ++ [.normal name]) = some data := by
        have hthere : m.Occupied (l ++ [.normal name]) := .inl (Option.isSome_of_mem hfile)
        have hname := hl name hthere
        rw [← hname] at hthere ⊢
        refine (hpair ?_).1 (h (PathText.shown name) ?_)
        all_goals
          exact (mem_outputNames hl hnames).2
            ⟨fun heq => hmarker (hname.shown_eq_iff.1 heq), hthere⟩
      refine and_congr_left fun hmarker => ?_
      constructor
      · intro hfile
        obtain ⟨data, hdata, hdata'⟩ := hshown hlr hr hfile hmarker
        rw [hdata', ← hdata, hfile]
      · intro hfile
        obtain ⟨data, hdata, hdata'⟩ := hshown hlc hc hfile hmarker
        rw [hdata, ← hdata', hfile]
  · intro h name hname
    obtain ⟨hmarker, hthere⟩ := (mem_outputNames hlr hr).1 hname
    have hne : (PathText.ofText name : ν) ≠ markerName := fun heq =>
      hmarker ((LawfulPathText.shown_ofText name).symm.trans
        ((PathText.legible_ofText name).shown_eq_iff.2 heq))
    rcases hthere with hfile | hdir
    · obtain ⟨data, hdata⟩ := Option.isSome_iff_exists.1 hfile
      have hget := get?_outputFiles.2 ⟨hdata, hne⟩
      rw [h.files] at hget
      exact (hpair hname).2 ⟨data, hdata, (get?_outputFiles.1 hget).1⟩
    · exact absurd (h.reference _ hdir) hne

/-! ## What a pass means -/

omit hm hlr hlc [LawfulPathText ν] in
theorem list_of_isDir (hp : m.isDir p.components = true) :
    m.answers.list p = .ok (m.children p.components) := by
  have hfile : m.file? p.components = none := Option.map_eq_none_iff.1 (hunmixed _ hp)
  simp [answers, list, hfile, hp]

variable (hr : m.isDir r.components = true) (hc : m.isDir c.components = true)

include hr hc

/-- Where all names match, the listings are those of outputs that agree. -/
theorem agree_of_matches {rs cs : List Entry} {names : List String}
    (hl : m.answers.Listed r c rs cs names names)
    (h : ∀ name ∈ names, m.answers.PairMatches r c name) :
    m.Agree r.components c.components ∧
      names.length = (m.outputFiles r.components).size ∧
      rs = m.children r.components ∧ cs = m.children c.components := by
  obtain rfl := Except.ok.inj ((list_of_isDir hunmixed hr).symm.trans hl.reference)
  obtain rfl := Except.ok.inj ((list_of_isDir hunmixed hc).symm.trans hl.candidate)
  have hagree := (matching_iff hm hunmixed hlr hlc hl.referenceNames hl.candidateNames).1 h
  refine ⟨hagree, ?_, rfl, rfl⟩
  have hlength := (hl.referenceNames.perm.trans (outputNames_perm hlr hagree.reference)).length_eq
  rwa [List.length_map, SortedMap.keys, List.length_map] at hlength

theorem finding_pass_iff {files total : Nat} :
    m.answers.Finding (some r) (some c) (.ok (.pass files total)) ↔
      m.Agree r.components c.components ∧
      m.markerLength r.components = m.markerLength c.components ∧
      files = (m.outputFiles r.components).size ∧
      total = bytesIn (m.outputFiles r.components) + m.markerLength r.components := by
  constructor
  · intro hf
    cases hf with
    | pass hl hmatch ht =>
      obtain ⟨hagree, hsize, rfl, rfl⟩ := agree_of_matches hm hunmixed hlr hlc hr hc hl hmatch
      rw [total_children, total_children, hagree.files] at ht
      exact ⟨hagree, Nat.add_left_cancel ht, hsize, total_children m _⟩
  · intro h
    obtain ⟨hagree, hmarker, rfl, rfl⟩ := h
    have hnames := Manifest.outputNames_names (m.children r.components)
    have hperm := outputNames_perm hlc hagree.candidate
    rw [← hagree.files] at hperm
    have hl : m.answers.Listed r c (m.children r.components) (m.children c.components)
        (Manifest.ofListing (m.children r.components)).names
        (Manifest.ofListing (m.children r.components)).names :=
      ⟨list_of_isDir hunmixed hr, list_of_isDir hunmixed hc, hnames, hnames.ordered,
        (hnames.perm.trans (outputNames_perm hlr hagree.reference)).trans hperm.symm⟩
    have hmatch := (matching_iff hm hunmixed hlr hlc hl.referenceNames hl.candidateNames).2 hagree
    obtain ⟨_, hsize, _⟩ := agree_of_matches hm hunmixed hlr hlc hr hc hl hmatch
    have hpass := Answers.Finding.pass hl hmatch
      (by rw [total_children, total_children, hagree.files, hmarker])
    rwa [hsize, total_children] at hpass

/-- Only the marker can make the difference when the summed lengths differ. -/
theorem markerLength_ne_of_aggregate {a b : Nat}
    (hf : m.answers.Finding (some r) (some c) (.ok (.fail (.aggregate a b)))) :
    m.markerLength r.components ≠ m.markerLength c.components := by
  cases hf with
  | aggregate hl hmatch ht =>
    obtain ⟨hagree, _, rfl, rfl⟩ := agree_of_matches hm hunmixed hlr hlc hr hc hl hmatch
    rw [total_children, total_children, hagree.files] at ht
    exact fun hmarker => ht (by rw [hmarker])

end

/-- Two directories of a memory tree, in which all names are legible, pass exactly when they hold
the same files besides the marker, no directories besides one with the marker's name, and markers of
one length. The summed lengths are found to differ only when those of the markers do. -/
theorem compare_passes_iff {σ : Type} (part : Part σ (Memory ν)) {s : σ}
    (h : (part.get s).Reachable)
    (hunmixed : (part.get s).Unmixed)
    (hlr : (part.get s).Legible r.components) (hlc : (part.get s).Legible c.components)
    (hr : (part.get s).isDir r.components = true) (hc : (part.get s).isDir c.components = true) :
    (∀ files total,
      (((part.fileSystem fileSystem).compare (some r) (some c)).run s).1 =
          .ok (.pass files total) ↔
        (part.get s).Agree r.components c.components ∧
        (part.get s).markerLength r.components = (part.get s).markerLength c.components ∧
        files = ((part.get s).outputFiles r.components).size ∧
        total = bytesIn ((part.get s).outputFiles r.components) +
          (part.get s).markerLength r.components) ∧
    ∀ a b, (((part.fileSystem fileSystem).compare (some r) (some c)).run s).1 =
        .ok (.fail (.aggregate a b)) →
      (part.get s).markerLength r.components ≠ (part.get s).markerLength c.components := by
  have hshows := shows_fileSystem part (part.get s)
  have hs : Same (part.get s) (part.get s) := ⟨rfl, rfl⟩
  constructor
  · intro files total
    rw [← finding_pass_iff h.plain hunmixed hlr hlc hr hc]
    exact ⟨hshows.finding_of_compare hs, hshows.compare_of_finding hs⟩
  · intro a b hcompare
    exact markerLength_ne_of_aggregate h.plain hunmixed hlr hlc hr hc
      (hshows.finding_of_compare hs hcompare)

/-- Two outputs that agree although they were written differently: the candidate's file is put
twice, and the markers hold different bytes. -/
def sampleOutputs : Memory :=
  let reference := (empty.addFile ⟨"/r/part"⟩ [1, 2]).addFile ⟨"/r/_SUCCESS"⟩ [0]
  let both := (reference.addFile ⟨"/c/part"⟩ [3]).addFile ⟨"/c//_SUCCESS"⟩ [7]
  (both.addFile ⟨"/c/./part"⟩ [1, 2]).addDir ⟨"/elsewhere/part"⟩

theorem reachable_sampleOutputs : sampleOutputs.Reachable :=
  .addDir _ (.addFile _ _ (.addFile _ _ (.addFile _ _ (.addFile _ _ (.addFile _ _ .empty)))))

theorem compare_sampleOutputs : sampleOutputs.Reachable ∧ sampleOutputs.Unmixed ∧
    (((Part.whole.fileSystem fileSystem).compare (some ⟨"/r"⟩) (some ⟨"/c"⟩)).run
      sampleOutputs).1 = .ok (.pass 1 3) := by
  have hunmixed : sampleOutputs.Unmixed := unmixed_of_keys (by decide)
  have hpasses := compare_passes_iff Part.whole reachable_sampleOutputs hunmixed
    (legible_of_text _ _) (legible_of_text _ _)
    (show sampleOutputs.isDir (Path.components ⟨"/r"⟩) = true by decide)
    (show sampleOutputs.isDir (Path.components ⟨"/c"⟩) = true by decide)
  refine ⟨reachable_sampleOutputs, hunmixed, (hpasses.1 1 3).2 ⟨⟨?_, ?_, ?_⟩, ?_, ?_, ?_⟩⟩
  · exact flat_iff.2 (by decide)
  · exact flat_iff.2 (by decide)
  · decide
  · decide
  · decide
  · decide

/-! ## Names that are not shown as they are -/

/-- Both outputs have one file, of the same bytes. Its name is a byte that no text has. -/
def unnamedOutputs : Memory RawText :=
  (empty.addFile ⟨⟨[0x2F, 0x72, 0x2F, 0xFF]⟩⟩ [7]).addFile ⟨⟨[0x2F, 0x63, 0x2F, 0xFF]⟩⟩ [7]

/-- Such files differ, and the text that they are shown as names files that do not. -/
def maskedOutputs : Memory RawText :=
  let reference := (empty.addFile ⟨⟨[0x2F, 0x72, 0x2F, 0xFF]⟩⟩ [1]).addFile
    ⟨⟨[0x2F, 0x72, 0x2F, 0xEF, 0xBF, 0xBD]⟩⟩ [7]
  (reference.addFile ⟨⟨[0x2F, 0x63, 0x2F, 0xFF]⟩⟩ [2]).addFile
    ⟨⟨[0x2F, 0x63, 0x2F, 0xEF, 0xBF, 0xBD]⟩⟩ [7]

/-- The directories `/r` and `/c` of these trees. -/
def rawReference : Path RawText := ⟨⟨[0x2F, 0x72]⟩⟩

def rawCandidate : Path RawText := ⟨⟨[0x2F, 0x63]⟩⟩

theorem rawText_replacement : (PathText.ofText "\uFFFD" : RawText) = ⟨[0xEF, 0xBF, 0xBD]⟩ := by
  rw [RawText.ofText_eq]
  decide

theorem rawText_markerName :
    (markerName : RawText) = ⟨[0x5F, 0x53, 0x55, 0x43, 0x43, 0x45, 0x53, 0x53]⟩ := by
  rw [markerName, RawText.ofText_eq]
  decide

theorem isPlain_replacement : Path.IsPlain (PathText.ofText "\uFFFD" : RawText) := by
  rw [rawText_replacement]
  decide

/-- Outputs that agree get no verdict where a name is not the one that is shown, and outputs that
differ may pass. -/
theorem unshown_names_mislead :
    (∀ m ∈ [unnamedOutputs, maskedOutputs], m.Reachable ∧ m.Unmixed ∧
      m.isDir rawReference.components = true ∧ m.isDir rawCandidate.components = true) ∧
    (unnamedOutputs.Agree rawReference.components rawCandidate.components ∧
      unnamedOutputs.markerLength rawReference.components =
        unnamedOutputs.markerLength rawCandidate.components ∧
      (((Part.whole.fileSystem fileSystem).compare (some rawReference) (some rawCandidate)).run
        unnamedOutputs).1 = .error (.notFound (rawReference.join "\uFFFD"))) ∧
    maskedOutputs.outputFiles rawReference.components ≠
      maskedOutputs.outputFiles rawCandidate.components ∧
    (((Part.whole.fileSystem fileSystem).compare (some rawReference) (some rawCandidate)).run
      maskedOutputs).1 = .ok (.pass 2 2) := by
  have hnames {listing : List Entry} {names : List String} (hordered : names.Pairwise (· ≤ ·))
      (heq : names = (listing.map (·.name)).filter (· != Entry.markerName)) :
      Entry.OutputNames listing names := ⟨hordered, .of_eq heq⟩
  refine ⟨?_, ⟨⟨flat_iff.2 (by decide), flat_iff.2 (by decide), ?_⟩, ?_, ?_⟩, ?_, ?_⟩
  · intro m hm
    rw [List.mem_cons, List.mem_singleton] at hm
    rcases hm with rfl | rfl
    · exact ⟨.addFile _ _ (.addFile _ _ .empty), unmixed_of_keys (by decide), by decide,
        by decide⟩
    · exact ⟨.addFile _ _ (.addFile _ _ (.addFile _ _ (.addFile _ _ .empty))),
        unmixed_of_keys (by decide), by decide, by decide⟩
  · rw [outputFiles, outputFiles, rawText_markerName]
    decide
  · rw [markerLength, markerLength, rawText_markerName]
    decide
  · have hlisted : unnamedOutputs.answers.Listed rawReference rawCandidate
        [Entry.file "\uFFFD" 1] [Entry.file "\uFFFD" 1] ([] ++ "\uFFFD" :: [])
        ([] ++ "\uFFFD" :: []) :=
      ⟨by decide, by decide, hnames (by decide) (by decide), hnames (by decide) (by decide)⟩
    have hmissing : unnamedOutputs.answers.stream (rawReference.join "\uFFFD") =
        .error (.notFound (rawReference.join "\uFFFD")) := by
      have hcomponents := Path.components_join_text rawReference isPlain_replacement
      rw [rawText_replacement] at hcomponents
      have hfile : unnamedOutputs.file? (rawReference.join "\uFFFD").components = none := by
        rw [hcomponents]
        decide
      have hdir : unnamedOutputs.isDir (rawReference.join "\uFFFD").components = false := by
        rw [hcomponents]
        decide
      simp [answers, missing, hfile, hdir]
    exact (shows_fileSystem Part.whole unnamedOutputs).compare_of_finding ⟨rfl, rfl⟩
      (.unreadable hlisted (fun _ hn => absurd hn List.not_mem_nil)
        (.reference hmissing))
  · rw [outputFiles, outputFiles, rawText_markerName]
    decide
  · have hlisted : maskedOutputs.answers.Listed rawReference rawCandidate
        [Entry.file "\uFFFD" 1, Entry.file "\uFFFD" 1]
        [Entry.file "\uFFFD" 1, Entry.file "\uFFFD" 1]
        ["\uFFFD", "\uFFFD"] ["\uFFFD", "\uFFFD"] :=
      ⟨by decide, by decide, hnames (by decide) (by decide), hnames (by decide) (by decide)⟩
    have hmatches : maskedOutputs.answers.PairMatches rawReference rawCandidate "\uFFFD" := by
      rw [pairMatches_iff isPlain_replacement, rawText_replacement]
      exact ⟨[7], by decide, by decide⟩
    have hfinding := Answers.Finding.pass hlisted (by simpa using hmatches) rfl
    exact (shows_fileSystem Part.whole maskedOutputs).compare_of_finding ⟨rfl, rfl⟩ hfinding

end OffloadCheck.Memory
