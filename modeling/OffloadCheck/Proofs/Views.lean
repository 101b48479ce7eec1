import Mathlib.Data.Set.List
import OffloadCheck.Proofs.RawNames
import OffloadCheck.Proofs.Simulation

/-! # What the calls show of a memory tree

A listing looks at direct children, a deletion at all that lies below and a look-up at the place
itself, and files and directories are kept side by side. They agree because above all that is there,
there are directories: whatever lies below a directory shows in its listing by the name on the way
to it. Where nothing is both a file and a directory, a name is shown once, unless names that are not
text are shown as the same text. -/

-- What is assumed of names is assumed together, also where a lemma needs less.
set_option linter.unusedSectionVars false

namespace OffloadCheck

open OffloadCheck.Action

/-! ## Paths from the root -/

namespace Path

variable {p : Path}

/-- A piece between slashes is a name, `..` or nothing. -/
theorem component?_cases {piece : List Char} {c : Component} (h : component? piece = some c) :
    c = .parent ∨ ∃ name, c = .normal name := by
  unfold component? at h
  split at h <;> cases h
  · exact .inl rfl
  · exact .inr ⟨_, rfl⟩

/-- The paths from the root are those that start with a slash and do without `..`. -/
theorem fromRoot_iff_isAbsolute :
    p.FromRoot ↔ p.isAbsolute = true ∧ p.mentionsParent = false := by
  have hbody : ∀ c ∈ (Text.splitOn '/' p.text.toList).filterMap component?,
      c = .parent ∨ ∃ name, c = .normal name := fun c hc => by
    obtain ⟨piece, _, hpiece⟩ := List.mem_filterMap.1 hc
    exact component?_cases hpiece
  have hparent : p.mentionsParent = false ↔ .parent ∉ p.components := by
    rw [mentionsParent, ← Bool.not_eq_true, List.contains_iff_mem]
  rw [hparent, isAbsolute, decide_eq_true_iff]
  constructor
  · intro h
    refine ⟨?_, h.no_parent⟩
    obtain ⟨names, hnames⟩ := h
    rw [components_eq, componentsOf] at hnames
    by_contra hrelative
    rw [if_neg hrelative] at hnames
    split at hnames
    · cases hnames
    · -- No piece stands for the root.
      have hroot := hbody .root (by rw [hnames]; exact List.mem_cons_self)
      simp at hroot
  · rintro ⟨hslash, hnone⟩
    rw [components_eq, componentsOf, if_pos hslash, List.mem_cons, not_or] at hnone
    have hnames : (Text.splitOn '/' p.text.toList).filterMap component? ∈
        Set.range (List.map Component.normal) := by
      rw [Set.range_list_map]
      intro c hc
      rcases hbody c hc with rfl | ⟨name, rfl⟩
      · exact absurd hc hnone.2
      · exact Set.mem_range_self name
    obtain ⟨names, hnames⟩ := hnames
    refine ⟨names, ?_⟩
    rw [components_eq, componentsOf, if_pos hslash, ← hnames]
    rfl

/-- A path from the root is the root, or it has a name below another location from the root. -/
theorem FromRoot.eq_root_or {ν : Type} [PathText ν] {p : Path ν} (h : p.FromRoot) :
    p.components = [.root] ∨
      ∃ names name, p.components = Location.fromRoot names ++ [.normal name] := by
  obtain ⟨names, hnames⟩ := h
  cases names using List.reverseRecOn with
  | nil => exact .inl hnames
  | append_singleton names name =>
    exact .inr ⟨names, name, by rw [hnames, Location.fromRoot_concat]⟩

end Path

namespace Memory

open Location

variable {ν : Type} [Ord ν] [Inhabited ν] [DecidableEq ν] [PathText ν] [Std.TransOrd ν]
  [Std.LawfulEqOrd ν] {m m' : Memory ν} {p : Path ν} {l : Location ν} {name : ν} {bytes : Bytes}
  {listing : List Entry}

/-! ## Edits -/

/-- Something that is done to a tree: it is filled directly or changed by a call. -/
inductive Edit (ν : Type := String)
  | addFile (p : Path ν) (bytes : Bytes)
  | addDir (p : Path ν)
  | call (change : Change ν)

namespace Edit

/-- The path that an edit changes. -/
def path : Edit ν → Path ν
  | .addFile p _ | .addDir p => p
  | .call change => change.path

def apply (m : Memory ν) : Edit ν → Memory ν
  | .addFile p bytes => m.addFile p bytes
  | .addDir p => m.addDir p
  | .call change => change.apply m

end Edit

/-- The tree that comes from the empty one by some edits. -/
def edited (edits : List (Edit ν)) : Memory ν := edits.foldl Edit.apply .empty

theorem edited_concat (edits : List (Edit ν)) (edit : Edit ν) :
    edited (edits ++ [edit]) = edit.apply (edited edits) := by
  rw [edited, List.foldl_append]
  rfl

theorem Edit.reachable (h : m.Reachable) (edit : Edit ν) : (edit.apply m).Reachable := by
  cases edit with
  | addFile p bytes => exact .addFile p bytes h
  | addDir p => exact .addDir p h
  | call change => exact change.reachable h

theorem reachable_edited (edits : List (Edit ν)) : (edited edits).Reachable := by
  induction edits using List.reverseRecOn with
  | nil => exact .empty
  | append_singleton edits edit ih =>
    rw [edited_concat]
    exact edit.reachable ih

theorem Puts.occupied_iff {k : Location ν} (h : Puts l bytes m m') :
    m'.Occupied k ↔ m.Occupied k ∨ k = l ∨ k ∈ l.ancestors := by
  rw [Occupied, Occupied, h.data, h.isDir]
  by_cases hk : k = l
  · simp [hk]
  · simp [hk, or_assoc]

theorem Fewer.occupied (h : Fewer m m') (hl : m'.Occupied l) : m.Occupied l :=
  hl.imp (h.file l) (h.isDir l)

/-- Whatever is there after an edit was there before, or lies at its path or above it. -/
theorem Edit.occupied (edit : Edit ν) (h : (edit.apply m).Occupied l) :
    m.Occupied l ∨ l = edit.path.components ∨ l ∈ edit.path.components.ancestors := by
  cases edit with
  | addFile p bytes => exact (puts_addFile m p bytes).occupied_iff.1 h
  | addDir p =>
    rcases h with hfile | hdir
    · exact .inl (.inl hfile)
    · rcases isDir_addDir.1 hdir with hself | hold | habove
      · exact .inr (.inl hself)
      · exact .inl (.inr hold)
      · exact .inr (.inr habove)
  | call change =>
    rcases change.puts_or_fewer m with ⟨bytes, hputs⟩ | hfewer
    · exact hputs.occupied_iff.1 h
    · exact .inl (hfewer.occupied h)

/-- Everything in the tree is told by names from the root. -/
def FromRoot (m : Memory ν) : Prop := ∀ l, m.Occupied l → ∃ names, l = fromRoot names

theorem FromRoot.apply (h : m.FromRoot) {edit : Edit ν} (hpath : edit.path.FromRoot) :
    (edit.apply m).FromRoot := by
  intro l hl
  obtain ⟨names, hnames⟩ := hpath
  rcases edit.occupied hl with hold | hself | habove
  · exact h l hold
  · exact ⟨names, hself.trans hnames⟩
  · rw [hnames] at habove
    obtain ⟨ms, _, _, hms⟩ := mem_ancestors_fromRoot.1 habove
    exact ⟨ms, hms⟩

theorem fromRoot_edited {edits : List (Edit ν)} (h : ∀ edit ∈ edits, edit.path.FromRoot) :
    (edited edits).FromRoot := by
  induction edits using List.reverseRecOn with
  | nil =>
    intro l hl
    rcases hl with hfile | hdir
    · cases hfile
    · cases hdir
  | append_singleton edits edit ih =>
    rw [List.forall_mem_append] at h
    rw [edited_concat]
    exact (ih h.1).apply (h.2 edit (List.mem_singleton_self edit))

/-! ## Listings -/

/-- What there is to show of a location under a name. -/
def entry? (m : Memory ν) (l : Location ν) (shown : String) : Option Entry :=
  match m.data? l with
  | some bytes => some (Entry.file shown bytes.length)
  | none => if m.isDir l then some (Entry.dir shown) else none

theorem occupied_of_entry {shown : String} {entry : Entry} (h : m.entry? l shown = some entry) :
    m.Occupied l := by
  unfold entry? at h
  split at h
  · next hdata => exact .inl (Option.isSome_of_mem hdata)
  · split at h
    · next hdir => exact .inr hdir
    · cases h

/-- A listing is empty where nothing lies directly in the directory. -/
theorem children_ne_nil_iff : m.children l ≠ [] ↔ ∃ name, m.Occupied (l ++ [.normal name]) := by
  rw [ne_eq, List.eq_nil_iff_forall_not_mem, not_forall_not]
  simp only [mem_children]
  constructor
  · rintro ⟨_, ⟨name, bytes, hdata, _⟩ | ⟨name, hdir, _⟩⟩
    · exact ⟨name, .inl (Option.isSome_of_mem hdata)⟩
    · exact ⟨name, .inr hdir⟩
  · rintro ⟨name, hfile | hdir⟩
    · obtain ⟨bytes, hdata⟩ := Option.isSome_iff_exists.1 hfile
      exact ⟨_, .inl ⟨name, bytes, hdata, rfl⟩⟩
    · exact ⟨_, .inr ⟨name, hdir, rfl⟩⟩

section Tells

variable (htells : m.Tells l name)

include htells

/-- Under a name that it tells a listing shows the file or the directory of that name. -/
theorem mem_children_named {entry : Entry} :
    entry ∈ m.children l ∧ entry.name = PathText.shown name ↔
      (∃ bytes, m.data? (l ++ [.normal name]) = some bytes ∧
        Entry.file (PathText.shown name) bytes.length = entry) ∨
      m.isDir (l ++ [.normal name]) = true ∧ Entry.dir (PathText.shown name) = entry := by
  rw [mem_children]
  constructor
  · rintro ⟨⟨other, bytes, hdata, rfl⟩ | ⟨other, hdir, rfl⟩, heq⟩
    · obtain rfl := htells other (.inl (Option.isSome_of_mem hdata)) heq
      exact .inl ⟨bytes, hdata, rfl⟩
    · obtain rfl := htells other (.inr hdir) heq
      exact .inr ⟨hdir, rfl⟩
  · rintro (⟨bytes, hdata, rfl⟩ | ⟨hdir, rfl⟩)
    · exact ⟨.inl ⟨name, bytes, hdata, rfl⟩, rfl⟩
    · exact ⟨.inr ⟨name, hdir, rfl⟩, rfl⟩

theorem entry?_eq_some_iff {entry : Entry} (h : ¬ m.Mixed (l ++ [.normal name])) :
    m.entry? (l ++ [.normal name]) (PathText.shown name) = some entry ↔
      entry ∈ m.children l ∧ entry.name = PathText.shown name := by
  rw [mem_children_named htells, entry?]
  cases hdata : m.data? (l ++ [.normal name]) with
  | some bytes =>
    have hdir : m.isDir (l ++ [.normal name]) = false :=
      Bool.eq_false_iff.2 fun hdir => h ⟨hdir, by rw [hdata]; rfl⟩
    simp [hdir]
  | none => simp

theorem exists_mem_children_iff :
    (∃ entry ∈ m.children l, entry.name = PathText.shown name) ↔
      m.Occupied (l ++ [.normal name]) := by
  simp only [mem_children_named htells]
  constructor
  · rintro ⟨_, ⟨bytes, hdata, _⟩ | ⟨hdir, _⟩⟩
    · exact .inl (Option.isSome_of_mem hdata)
    · exact .inr hdir
  · rintro (hfile | hdir)
    · obtain ⟨bytes, hdata⟩ := Option.isSome_iff_exists.1 hfile
      exact ⟨_, .inl ⟨bytes, hdata, rfl⟩⟩
    · exact ⟨_, .inr ⟨hdir, rfl⟩⟩

theorem exists_file_mem_children_iff :
    (∃ entry ∈ m.children l, entry.name = PathText.shown name ∧ entry.isDir = false) ↔
      (m.data? (l ++ [.normal name])).isSome = true := by
  simp only [← and_assoc, mem_children_named htells]
  constructor
  · rintro ⟨_, ⟨bytes, hdata, rfl⟩ | ⟨hdir, rfl⟩, hkind⟩
    · exact Option.isSome_of_mem hdata
    · cases hkind
  · intro hfile
    obtain ⟨bytes, hdata⟩ := Option.isSome_iff_exists.1 hfile
    exact ⟨_, .inl ⟨bytes, hdata, rfl⟩, rfl⟩

end Tells

theorem mem_filter_namesIn {other : ν} :
    other ∈ (m.namesIn l).filter (PathText.shown · = PathText.shown name) ↔
      m.Occupied (l ++ [.normal other]) ∧ PathText.shown other = PathText.shown name := by
  rw [List.mem_filter, mem_namesIn, decide_eq_true_iff]

/-- Of the names in a directory only the one that is there is shown as it is. -/
theorem filter_namesIn (h : m.Unmixed) (htells : m.Tells l name)
    (hthere : m.Occupied (l ++ [.normal name])) :
    (m.namesIn l).filter (PathText.shown · = PathText.shown name) = [name] := by
  have hnodup : ((m.namesIn l).filter (PathText.shown · = PathText.shown name)).Nodup :=
    (nodup_namesIn_iff.2 fun other => h.not_mixed _).filter _
  refine List.perm_singleton.1
    ((List.perm_ext_iff_of_nodup hnodup (List.nodup_singleton _)).2 fun other => ?_)
  rw [mem_filter_namesIn, List.mem_singleton]
  constructor
  · rintro ⟨hother, hshown⟩
    exact htells other hother hshown
  · rintro rfl
    exact ⟨hthere, rfl⟩

/-- Under a text a listing has as many entries as names in the directory are shown as it. -/
theorem length_filter_children (m : Memory ν) (l : Location ν) (shown : String) :
    ((m.children l).filter (·.name = shown)).length =
      ((m.namesIn l).filter (PathText.shown · = shown)).length := by
  have hnames := congrArg (List.countP (· = shown)) (m.map_name_children l)
  rw [List.countP_map, List.countP_map, List.countP_eq_length_filter,
    List.countP_eq_length_filter] at hnames
  exact hnames

/-- What a listing has under a name that it tells is what is there, once. -/
theorem filter_children (h : m.Unmixed) (htells : m.Tells l name) :
    (m.children l).filter (·.name = PathText.shown name) =
      (m.entry? (l ++ [.normal name]) (PathText.shown name)).toList := by
  have hmem (entry : Entry) : entry ∈ (m.children l).filter (·.name = PathText.shown name) ↔
      m.entry? (l ++ [.normal name]) (PathText.shown name) = some entry := by
    rw [List.mem_filter, decide_eq_true_iff, entry?_eq_some_iff htells (h.not_mixed _)]
  cases hentry : m.entry? (l ++ [.normal name]) (PathText.shown name) with
  | none =>
    refine List.eq_nil_iff_forall_not_mem.2 fun entry hlisted => ?_
    rw [hmem, hentry] at hlisted
    cases hlisted
  | some entry =>
    have hlength := m.length_filter_children l (PathText.shown name)
    rw [filter_namesIn h htells (occupied_of_entry hentry), List.length_singleton] at hlength
    obtain ⟨only, honly⟩ := List.length_eq_one_iff.1 hlength
    have hlisted := (hmem entry).2 hentry
    rw [honly, List.mem_singleton] at hlisted
    rw [honly, hlisted]
    rfl

/-- Another name that is shown as this one would stand in the listing in its place or beside it. -/
theorem tells_of_filter_children (h : (m.children l).filter (·.name = PathText.shown name) =
    (m.entry? (l ++ [.normal name]) (PathText.shown name)).toList) : m.Tells l name := by
  intro other hthere hshown
  have hother := mem_filter_namesIn.2 ⟨hthere, hshown⟩
  have hlength := m.length_filter_children l (PathText.shown name)
  cases hentry : m.entry? (l ++ [.normal name]) (PathText.shown name) with
  | none =>
    rw [h, hentry] at hlength
    exact absurd (List.eq_nil_of_length_eq_zero hlength.symm) (List.ne_nil_of_mem hother)
  | some entry =>
    rw [h, hentry] at hlength
    obtain ⟨only, honly⟩ := List.length_eq_one_iff.1 hlength.symm
    have hname := mem_filter_namesIn.2 ⟨occupied_of_entry hentry, rfl⟩
    rw [honly, List.mem_singleton] at hother hname
    rw [hother, hname]

/-- A directory lists something exactly if something lies below it: what lies deeper shows by the
directory on the way to it. -/
theorem children_fromRoot_ne_nil_iff (hground : m.Grounded) (hroot : m.FromRoot)
    (names : List ν) : m.children (fromRoot names) ≠ [] ↔
      ∃ k, k.isWithin (fromRoot names) = true ∧ k ≠ fromRoot names ∧ m.Occupied k := by
  have hchild (name : ν) : (fromRoot (names ++ [name])).isWithin (fromRoot names) = true ∧
      fromRoot (names ++ [name]) ≠ fromRoot names := by
    rw [isWithin_fromRoot_iff, ne_eq, fromRoot_injective]
    exact ⟨List.prefix_append _ _, by simp⟩
  rw [children_ne_nil_iff]
  constructor
  · rintro ⟨name, hthere⟩
    rw [fromRoot_concat] at hthere
    exact ⟨_, (hchild name).1, (hchild name).2, hthere⟩
  · rintro ⟨k, hwithin, hne, hthere⟩
    obtain ⟨ms, rfl⟩ := hroot k hthere
    rw [isWithin_fromRoot_iff] at hwithin
    obtain ⟨rest, rfl⟩ := hwithin
    obtain ⟨name, rest, rfl⟩ := List.exists_cons_of_ne_nil fun hnil : rest = [] =>
      hne (by rw [hnil, List.append_nil])
    have hway : m.Occupied (fromRoot (names ++ [name])) := by
      by_cases hrest : rest = []
      · rwa [hrest] at hthere
      · refine .inr (hground _ hthere _ (mem_ancestors_fromRoot.2 ⟨_, ⟨rest, ?_⟩, ?_, rfl⟩))
        · rw [List.append_assoc]
          rfl
        · simpa using Ne.symm hrest
    rw [← fromRoot_concat] at hway
    exact ⟨name, hway⟩

/-! ## Calls -/

theorem list_eq_ok_iff (h : m.Unmixed) : (fileSystem.list p).run m = (.ok listing, m') ↔
    m' = m ∧ m.isDir p.components = true ∧ listing = m.children p.components := by
  have hrun : (fileSystem.list p).run m = (m.list p, m) := rfl
  rw [hrun, Prod.mk.injEq, list]
  cases hdir : m.isDir p.components with
  | true =>
    have hfile : m.file? p.components = none := Option.map_eq_none_iff.1 (h _ hdir)
    simp [hfile, eq_comm, and_comm]
  | false =>
    refine iff_of_false (fun h => ?_) fun h => Bool.false_ne_true h.2.1
    rw [if_neg Bool.false_ne_true] at h
    split at h
    · cases h.1
    · cases h.1

theorem openFile_ok_iff : (∃ content m', (fileSystem.openFile p).run m = (.ok content, m')) ↔
    (m.data? p.components).isSome = true := by
  rw [data?, Option.isSome_map]
  cases hfile : m.file? p.components with
  | some f => simp [Action.run, fileSystem, hfile]
  | none => simp [Action.run, fileSystem, hfile]

/-- Without recursion a deletion refuses a directory below which something lies. -/
theorem delete_refused_iff (h : m.Unmixed) :
    ((fileSystem.delete p false).run m).1 = .error (.directoryNotEmpty p) ↔
      m.isDir p.components = true ∧ m.isPopulated p.components = true := by
  cases hdir : m.isDir p.components with
  | true =>
    have hfile : m.file? p.components = none := Option.map_eq_none_iff.1 (h _ hdir)
    cases hpopulated : m.isPopulated p.components <;>
      simp [Action.run, fileSystem, hfile, hdir, hpopulated]
  | false =>
    cases hfile : m.file? p.components <;> simp [Action.run, fileSystem, hfile, hdir]

/-! ## Agreement -/

/-- The calls tell the same of a path. -/
structure Coherent (m : Memory ν) (p : Path ν) : Prop where
  /-- Where no other name in the directory above is shown as the name of the path is, the path is
  there if it is listed, and it opens if it is listed as a file. The root has nothing above it. -/
  above : ∀ above name, p.components.parent? = some above.components → p.fileName? = some name →
    m.Tells above.components name →
    (fileSystem.isPresent p m = true ↔ ∃ listing, (fileSystem.list above).run m = (.ok listing, m) ∧
      ∃ entry ∈ listing, entry.name = PathText.shown name) ∧
    ((∃ content m', (fileSystem.openFile p).run m = (.ok content, m')) ↔
      ∃ listing, (fileSystem.list above).run m = (.ok listing, m) ∧
        ∃ entry ∈ listing, entry.name = PathText.shown name ∧ entry.isDir = false)
  /-- There, and only there, the listing shows under that name what is at the path: nothing, or one
  entry with its kind and its length. -/
  once : ∀ above name listing, p.components.parent? = some above.components →
    p.fileName? = some name → (fileSystem.list above).run m = (.ok listing, m) →
    (listing.filter (·.name = PathText.shown name) =
      (m.entry? p.components (PathText.shown name)).toList ↔ m.Tells above.components name)
  opens : (∃ content m', (fileSystem.openFile p).run m = (.ok content, m')) ↔
    (m.read? p).isSome = true
  lists : (∃ listing m', (fileSystem.list p).run m = (.ok listing, m')) ↔
    m.isDir p.components = true
  refuses : ((fileSystem.delete p false).run m).1 = .error (.directoryNotEmpty p) ↔
    ∃ listing m', (fileSystem.list p).run m = (.ok listing, m') ∧ listing ≠ []

/-- The directory above something that is there is there, unless that is the root. -/
theorem Grounded.isDir_above (h : m.Grounded) (hne : l ≠ [])
    (hthere : m.Occupied (l ++ [.normal name])) : m.isDir l = true :=
  h _ hthere _ (mem_ancestors_iff.2 ⟨hne, _, List.cons_ne_nil _ _, rfl⟩)

theorem coherent_of_unmixed (hground : m.Grounded) (hroot : m.FromRoot) (hunmixed : m.Unmixed)
    (hp : p.FromRoot) : m.Coherent p where
  above above name habove hfile htells := by
    have hcomponents : p.components = above.components ++ [.normal name] :=
      childName_eq_some_iff.1 ((if_pos habove).trans hfile)
    have hne : above.components ≠ [] := by
      intro hnil
      obtain ⟨names, hnames⟩ := hp
      rw [hcomponents, hnil] at hnames
      cases hnames
    refine ⟨?_, ?_⟩
    · rw [isPresent_iff_occupied, hcomponents]
      constructor
      · intro hthere
        exact ⟨_, (list_eq_ok_iff hunmixed).2 ⟨rfl, hground.isDir_above hne hthere, rfl⟩,
          (exists_mem_children_iff htells).2 hthere⟩
      · rintro ⟨listing, hlist, hshown⟩
        obtain ⟨_, _, rfl⟩ := (list_eq_ok_iff hunmixed).1 hlist
        exact (exists_mem_children_iff htells).1 hshown
    · rw [openFile_ok_iff, hcomponents]
      constructor
      · intro hfile
        exact ⟨_, (list_eq_ok_iff hunmixed).2 ⟨rfl, hground.isDir_above hne (.inl hfile), rfl⟩,
          (exists_file_mem_children_iff htells).2 hfile⟩
      · rintro ⟨listing, hlist, hshown⟩
        obtain ⟨_, _, rfl⟩ := (list_eq_ok_iff hunmixed).1 hlist
        exact (exists_file_mem_children_iff htells).1 hshown
  once above name listing habove hfile hlist := by
    have hcomponents : p.components = above.components ++ [.normal name] :=
      childName_eq_some_iff.1 ((if_pos habove).trans hfile)
    obtain ⟨_, _, rfl⟩ := (list_eq_ok_iff hunmixed).1 hlist
    rw [hcomponents]
    exact ⟨tells_of_filter_children, filter_children hunmixed⟩
  opens := openFile_ok_iff
  lists := by
    simp only [list_eq_ok_iff hunmixed]
    constructor
    · rintro ⟨_, _, _, hdir, _⟩
      exact hdir
    · intro hdir
      exact ⟨_, _, rfl, hdir, rfl⟩
  refuses := by
    obtain ⟨names, hnames⟩ := hp
    have hpopulated (hdir : m.isDir p.components = true) :
        m.isPopulated p.components = true ↔ m.children p.components ≠ [] := by
      rw [isPopulated_iff (hunmixed _ hdir), hnames, children_fromRoot_ne_nil_iff hground hroot]
    rw [delete_refused_iff hunmixed]
    simp only [list_eq_ok_iff hunmixed]
    constructor
    · rintro ⟨hdir, hbelow⟩
      exact ⟨_, _, ⟨rfl, hdir, rfl⟩, (hpopulated hdir).1 hbelow⟩
    · rintro ⟨_, _, ⟨_, hdir, rfl⟩, hlisted⟩
      exact ⟨hdir, (hpopulated hdir).2 hlisted⟩

/-- Whatever has been done to a tree at absolute paths without `..`, everything but the root has a
directory above it, and if nothing is both a file and a directory, then the calls agree at every
such path, as far as no other name beside it is shown as its own. -/
theorem views_agree {edits : List (Edit ν)} (h : ∀ edit ∈ edits, edit.path.FromRoot) :
    (∀ p : Path ν, fileSystem.isPresent p (edited edits) = true →
      (∀ a ∈ p.components.ancestors, (edited edits).isDir a = true) ∧
      (p.components ≠ [.root] → ∃ above, p.components.parent? = some above ∧
        (edited edits).isDir above = true)) ∧
    ((edited edits).Unmixed → ∀ p : Path ν, p.FromRoot → (edited edits).Coherent p) := by
  have hground := (reachable_edited edits).grounded
  have hroot := fromRoot_edited h
  refine ⟨fun p hpresent => ?_, fun hunmixed p hp => ?_⟩
  · have hthere := isPresent_iff_occupied.1 hpresent
    refine ⟨hground _ hthere, fun hne => ?_⟩
    obtain ⟨names, name, hcomponents⟩ :=
      (Path.FromRoot.eq_root_or (hroot _ hthere)).resolve_left hne
    rw [hcomponents] at hthere
    refine ⟨fromRoot names, ?_, hground.isDir_above (List.cons_ne_nil _ _) hthere⟩
    rw [hcomponents, parent?, List.getLast?_concat, List.dropLast_concat]
  · exact coherent_of_unmixed hground hroot hunmixed hp

/-- A file is written beside an empty directory and copied, and another one comes and goes. -/
def desk : List Edit :=
  [.call (.create ⟨"/d/x"⟩), .call (.write ⟨"/d/x"⟩ [1, 2]), .addDir ⟨"/d/e"⟩,
    .call (.copy ⟨"/d/x"⟩ ⟨"/f"⟩), .addFile ⟨"/g"⟩ [], .call (.delete ⟨"/g"⟩ true)]

theorem views_agree_on_desk :
    (∀ edit ∈ desk, edit.path.isAbsolute = true ∧ edit.path.mentionsParent = false) ∧
      (edited desk).Unmixed ∧
      ((fileSystem.list ⟨"/d"⟩).run (edited desk)).1 = .ok [Entry.file "x" 2, Entry.dir "e"] ∧
      (edited desk).Coherent ⟨"/d/x"⟩ := by
  have hpaths : ∀ edit ∈ desk, edit.path.isAbsolute = true ∧ edit.path.mentionsParent = false := by
    decide
  have hunmixed : (edited desk).Unmixed := unmixed_of_keys (by decide)
  have hagree := views_agree fun edit hedit => Path.fromRoot_iff_isAbsolute.2 (hpaths edit hedit)
  exact ⟨hpaths, hunmixed, by decide, hagree.2 hunmixed _ (by decide)⟩

/-- In `/d` lies a file whose name is a byte that no text has, in `/e` such a file beside the one
whose name it is shown as. -/
def rawDesk : List (Edit RawText) :=
  [.addFile ⟨⟨[0x2F, 0x64, 0x2F, 0xFF]⟩⟩ [1], .addFile ⟨⟨[0x2F, 0x65, 0x2F, 0xFF]⟩⟩ [1],
    .addFile ⟨⟨[0x2F, 0x65, 0x2F, 0xEF, 0xBF, 0xBD]⟩⟩ [2, 3]]

/-- A listing shows a file under a name that nothing there has, or two files under one name. -/
theorem listed_name_is_absent :
    (∀ edit ∈ rawDesk, edit.path.FromRoot) ∧ (edited rawDesk).Unmixed ∧
      Path.FromRoot ⟨(⟨[0x2F, 0x64, 0x2F, 0xEF, 0xBF, 0xBD]⟩ : RawText)⟩ ∧
      Path.fileName? ⟨(⟨[0x2F, 0x64, 0x2F, 0xEF, 0xBF, 0xBD]⟩ : RawText)⟩ =
        some (PathText.ofText "\uFFFD") ∧
      ((fileSystem.list ⟨⟨[0x2F, 0x64]⟩⟩).run (edited rawDesk)).1 =
        .ok [Entry.file "\uFFFD" 1] ∧
      fileSystem.isPresent ⟨⟨[0x2F, 0x64, 0x2F, 0xEF, 0xBF, 0xBD]⟩⟩ (edited rawDesk) = false ∧
      ¬ (∃ content m', (fileSystem.openFile ⟨⟨[0x2F, 0x64, 0x2F, 0xEF, 0xBF, 0xBD]⟩⟩).run
        (edited rawDesk) = (.ok content, m')) ∧
      ((fileSystem.list ⟨⟨[0x2F, 0x65]⟩⟩).run (edited rawDesk)).1 =
        .ok [Entry.file "\uFFFD" 2, Entry.file "\uFFFD" 1] := by
  refine ⟨by decide, unmixed_of_keys (by decide), by decide, ?_, by decide, by decide, ?_,
    by decide⟩
  · rw [RawText.ofText_eq]
    decide
  · rw [openFile_ok_iff]
    decide

end Memory
end OffloadCheck
