import Mathlib.Data.List.DropRight
import OffloadCheck.Proofs.Entries
import OffloadCheck.Proofs.Roots

/-! # What calls do beneath a root

On a disk whose root starts as an empty directory, the calls of a filesystem with this root take
nothing from what lies outside it, and whatever lies at or below it is where the path made of its
names leads. Writing a file makes directories on the way from the root down to it and none
elsewhere. -/
namespace OffloadCheck

open OffloadCheck.Action

/-! ## Names put behind a path -/

theorem Disk.check_eq_ok_iff {p : Path} : Disk.check p = .ok () ↔
    '\x00' ∉ p.text.toList ∧ p.text ≠ "" ∧ p.text.utf8ByteSize ≤ Disk.maxPath := by
  unfold Disk.check
  grind

namespace Path

variable {p q root : Path} {names : List String}

/-- The path above another one is walked through the first of its pieces. -/
theorem pieces_parent? (h : p.parent? = some q) : Disk.pieces q <+: Disk.pieces p := by
  obtain ⟨_, _, rfl⟩ := Option.map_eq_some_iff.1 h
  have htrimmed := (trimPieces_isPrefix _).trans
    ((List.dropLast_prefix _).trans (trimPieces_isPrefix (Text.splitOn '/' p.text.toList)))
  generalize trimPieces (trimPieces (Text.splitOn '/' p.text.toList)).dropLast = above at htrimmed
  have hslash : ∀ word ∈ above, '/' ∉ word := fun word hword =>
    Text.not_mem_of_mem_splitOn (htrimmed.subset hword)
  split
  · exact List.nil_prefix
  · by_cases hnil : above = []
    · subst hnil
      exact List.nil_prefix
    · rw [Disk.pieces, String.toList_ofList, Text.splitOn_joinWith hnil hslash]
      exact htrimmed.filter _

theorem pieces_of_mem_upward (h : q ∈ p.upward) : Disk.pieces q <+: Disk.pieces p := by
  unfold upward at h
  generalize p.components.length = fuel at h
  induction fuel generalizing p with
  | zero => cases h
  | succ fuel ih =>
    unfold upwardFrom at h
    cases hparent : p.parent? with
    | none =>
      rw [hparent] at h
      cases h
    | some above =>
      rw [hparent] at h
      rcases List.mem_cons.1 h with rfl | habove
      · exact List.prefix_refl _
      · exact (ih habove).trans (pieces_parent? hparent)

/-- The path that some names lead to from a root. -/
def beneath (root : Path) (names : List String) : Path := names.foldl join root

/-- The place of what a path leads to on any disk where it leads somewhere. -/
abbrev place (p : Path) : List String := p.components.stack

theorem beneath_append (root : Path) (names more : List String) :
    root.beneath (names ++ more) = (root.beneath names).beneath more :=
  List.foldl_append

variable (hnames : ∀ name ∈ names, IsPlain name)

include hnames

theorem pieces_beneath (root : Path) :
    Disk.pieces (root.beneath names) = Disk.pieces root ++ names.map String.toList := by
  induction names generalizing root with
  | nil => exact (List.append_nil _).symm
  | cons name names ih =>
    rw [List.forall_mem_cons] at hnames
    change Disk.pieces ((root.join name).beneath names) = _
    rw [ih hnames.2, Disk.pieces_join root hnames.1, List.append_assoc]
    rfl

theorem place_beneath (root : Path) : (root.beneath names).place = root.place ++ names := by
  change Location.stackFrom [] (root.beneath names).components = _
  rw [beneath, components_foldl_join hnames, Location.stackFrom_append,
    Location.stackFrom_map_normal]
  rfl

theorem text_beneath (root : Path) : ∃ rest, (root.beneath names).text = root.text ++ rest := by
  induction names generalizing root with
  | nil => exact ⟨"", String.append_empty.symm⟩
  | cons name names ih =>
    rw [List.forall_mem_cons] at hnames
    obtain ⟨rest, hrest⟩ := ih hnames.2 (root.join name)
    change ∃ rest, ((root.join name).beneath names).text = _
    rw [hrest, join_eq, joinText, if_neg hnames.1.relative.notRooted]
    split
    · exact ⟨name ++ rest, String.append_assoc⟩
    · exact ⟨"/" ++ name ++ rest, by simp only [String.append_assoc]⟩

/-- What a system call does not refuse about a path it does not refuse about the root. -/
theorem check_of_beneath (hroot : root.text ≠ "")
    (h : Disk.check (root.beneath names) = .ok ()) : Disk.check root = .ok () := by
  obtain ⟨rest, htext⟩ := text_beneath hnames root
  rw [Disk.check_eq_ok_iff] at h ⊢
  rw [htext, String.toList_append, String.utf8ByteSize_append] at h
  exact ⟨fun hnul => h.1 (List.mem_append_left _ hnul), hroot, by omega⟩

end Path

namespace Disk

variable {origin d d' u : Disk} {root p : Path} {names ms : List String} {place q : List String}
  {node : DiskNode} {bytes : Bytes} {id : Nat}

/-! ## Paths beneath a root -/

/-- A sound disk on which the root leads to an empty directory. -/
structure EmptyAt (d : Disk) (root : Path) : Prop where
  sound : d.Sound
  find : d.find root = .ok (root.place, .dir)
  below : ∀ names, names ≠ [] → d.node? (root.place ++ names) = none

theorem EmptyAt.text_ne (h : origin.EmptyAt root) : root.text ≠ "" :=
  (check_eq_ok_iff.1 (find_eq_ok_iff.1 h.find).1).2.1

/-- A walk that goes on has come to a directory. -/
theorem isDirAt_of_walk {front rest : List (List Char)} (hrest : rest ≠ [])
    (h : d.walk place (front ++ rest) = .ok q) :
    ∃ mid, d.walk place front = .ok mid ∧ d.isDirAt mid = true := by
  obtain ⟨mid, hfront, hwalk⟩ := walk_append_eq_ok_iff.1 h
  obtain ⟨piece, rest, rfl⟩ := List.exists_cons_of_ne_nil hrest
  obtain ⟨next, hstep, _⟩ := walk_cons_eq_ok_iff.1 hwalk
  exact ⟨mid, hfront, (step_cases hstep).1⟩

/-- Where the first pieces of a path beneath the root lead: to a directory outside that was there
from the start, or to a place on the way down from the root. -/
theorem EmptyAt.place_of_front (h : origin.EmptyAt root)
    (hnames : ∀ name ∈ names, Path.IsPlain name) {front : List (List Char)}
    (hfront : front <+: pieces (root.beneath names))
    (hq : q = Location.stackFrom [] (front.filterMap Path.component?)) :
    (¬ root.place <+: q ∧ origin.isDirAt q = true) ∨ ∃ ms, ms <+: names ∧ q = root.place ++ ms := by
  obtain ⟨rest, hrest⟩ := hfront
  rw [Path.pieces_beneath hnames, List.append_eq_append_iff] at hrest
  rcases hrest with ⟨behind, hroot, _⟩ | ⟨front', rfl, hmap⟩
  · -- The pieces are some of the root's, so the walk to the root has come through this place.
    have hwalk := (find_eq_ok_iff.1 h.find).2.1
    rw [hroot] at hwalk
    have hempty : [] ∉ front := fun hmem =>
      nil_not_mem_pieces root (hroot ▸ List.mem_append_left _ hmem)
    by_cases hbehind : behind = []
    · rw [hbehind, List.append_nil] at hwalk
      exact .inr ⟨[], List.nil_prefix, by rw [hq, ← walk_eq_ok hempty hwalk, List.append_nil]⟩
    · obtain ⟨mid, hmid, hdir⟩ := isDirAt_of_walk hbehind hwalk
      rw [← walk_eq_ok hempty hmid] at hq
      subst hq
      by_cases hbelow : root.place <+: q
      · obtain ⟨names', rfl⟩ := hbelow
        by_cases hnil : names' = []
        · exact .inr ⟨[], List.nil_prefix, by rw [hnil]⟩
        · rw [isDirAt_iff, h.below names' hnil] at hdir
          cases hdir
      · exact .inl ⟨hbelow, hdir⟩
  · obtain ⟨ms, hms, rfl⟩ := List.prefix_map_iff.1 ⟨rest, hmap.symm⟩
    have hplain : ∀ name ∈ ms, Path.IsPlain name := fun name hname =>
      hnames name (hms.subset hname)
    refine .inr ⟨ms, hms, ?_⟩
    rw [hq, ← Path.pieces_beneath hplain, ← stack_eq]
    exact Path.place_beneath hplain root

/-- Above what a path beneath the root leads to, the paths on the way lead to directories. -/
theorem find_above (hroot : root.text ≠ "") (hnames : ∀ name ∈ names, Path.IsPlain name)
    (h : d.find (root.beneath names) = .ok (place, node)) (hms : ms <+: names) (hne : ms ≠ names) :
    d.find (root.beneath ms) = .ok (root.place ++ ms, .dir) := by
  obtain ⟨below, rfl⟩ := hms
  have hbelow : below ≠ [] := fun hnil => hne (by rw [hnil, List.append_nil])
  rw [List.forall_mem_append] at hnames
  obtain ⟨hcheck, hwalk, _, _⟩ := find_eq_ok_iff.1 h
  rw [Path.beneath_append] at hcheck hwalk
  rw [Path.pieces_beneath hnames.2] at hwalk
  obtain ⟨mid, hmid, hdir⟩ := isDirAt_of_walk (List.map_eq_nil_iff.not.2 hbelow) hwalk
  have htext : (root.beneath ms).text ≠ "" := by
    obtain ⟨rest, hrest⟩ := Path.text_beneath hnames.1 root
    rw [hrest]
    exact fun hempty => hroot (String.append_eq_empty_iff.1 hempty).1
  have hfind : d.find (root.beneath ms) = .ok (mid, .dir) :=
    find_eq_ok_iff.2 ⟨Path.check_of_beneath hnames.2 htext hcheck, hmid, isDirAt_iff.1 hdir,
      fun _ => rfl⟩
  rw [hfind, place_of_find hfind]
  exact congrArg (fun q => Except.ok (q, DiskNode.dir)) (Path.place_beneath hnames.1 root)

/-! ## What stays true beneath a root -/

/-- The disk has come from `origin` by calls beneath the root: outside nothing has gone, and what
lies at or below the root is where its path leads. -/
structure Beneath (origin : Disk) (root : Path) (d : Disk) : Prop where
  start : origin.EmptyAt root
  sound : d.Sound
  outside : ∀ q, ¬ root.place <+: q → (origin.node? q).isSome = true → (d.node? q).isSome = true
  plain : ∀ names, (d.node? (root.place ++ names)).isSome = true →
    ∀ name ∈ names, Path.IsPlain name
  leads : ∀ names node, d.node? (root.place ++ names) = some node →
    d.find (root.beneath names) = .ok (root.place ++ names, node)

theorem EmptyAt.beneath (h : origin.EmptyAt root) : Beneath origin root origin where
  start := h
  sound := h.sound
  outside _ _ hq := hq
  plain names hnode := by
    by_cases hnil : names = []
    · simp [hnil]
    · rw [h.below names hnil] at hnode
      cases hnode
  leads names node hnode := by
    by_cases hnil : names = []
    · subst hnil
      have hroot := (find_eq_ok_iff.1 h.find).2.2.1
      rw [List.append_nil] at hnode ⊢
      obtain rfl := Option.some.inj (hroot.symm.trans hnode)
      exact h.find
    · rw [h.below names hnil] at hnode
      cases hnode

namespace Beneath

/-- A path beneath the root leads to what lies at its place, and nowhere else. -/
theorem find_iff (h : Beneath origin root d) (hnames : ∀ name ∈ names, Path.IsPlain name) :
    d.find (root.beneath names) = .ok (q, node) ↔
      q = root.place ++ names ∧ d.node? (root.place ++ names) = some node := by
  constructor
  · intro hfind
    have hq : q = root.place ++ names :=
      (place_of_find hfind).trans (Path.place_beneath hnames root)
    exact ⟨hq, hq ▸ (find_eq_ok_iff.1 hfind).2.2.1⟩
  · rintro ⟨rfl, hnode⟩
    exact h.leads names node hnode

theorem isPresent_eq (h : Beneath origin root d) (hnames : ∀ name ∈ names, Path.IsPlain name) :
    d.isPresent (root.beneath names) = (d.node? (root.place ++ names)).isSome := by
  rw [Bool.eq_iff_iff, isPresent_iff, Option.isSome_iff_exists]
  simp only [h.find_iff hnames, exists_and_left, exists_eq_left]

/-- Above what lies below the root there are directories. -/
theorem isDirAt_above (h : Beneath origin root d)
    (hthere : (d.node? (root.place ++ names)).isSome = true) (hms : ms <+: names)
    (hne : ms ≠ names) : d.isDirAt (root.place ++ ms) = true := by
  obtain ⟨node, hnode⟩ := Option.isSome_iff_exists.1 hthere
  have hfind := find_above h.start.text_ne (h.plain names hthere) (h.leads names node hnode) hms hne
  exact isDirAt_iff.2 (find_eq_ok_iff.1 hfind).2.2.1

/-- Nothing lies below what is no directory. -/
theorem node?_below (h : Beneath origin root d) (hdir : d.isDirAt (root.place ++ names) = false)
    (hms : names <+: ms) (hne : ms ≠ names) : d.node? (root.place ++ ms) = none := by
  refine Option.not_isSome_iff_eq_none.1 fun hthere => ?_
  rw [h.isDirAt_above hthere hms hne.symm] at hdir
  cases hdir

theorem node?_below_of_none (h : Beneath origin root d)
    (hnone : d.node? (root.place ++ names) = none) (hms : names <+: ms) :
    d.node? (root.place ++ ms) = none := by
  by_cases hself : ms = names
  · rw [hself, hnone]
  · exact h.node?_below (by simp [isDirAt, hnone]) hms hself

end Beneath

/-! ## Files that are written -/

/-- The data of the file at a place. -/
def data? (d : Disk) (place : List String) : Option Bytes :=
  match d.node? place with
  | some (.file _ data) => some data
  | _ => none

theorem data?_eq_some_iff : d.data? q = some bytes ↔ ∃ id, d.node? q = some (.file id bytes) := by
  unfold data?
  split
  · next i b hnode => simp [hnode]
  · next hnode =>
    constructor
    · intro h
      cases h
    · rintro ⟨id, hfile⟩
      exact absurd hfile (hnode id bytes)

theorem isSome_node?_iff :
    (d.node? q).isSome = true ↔ (d.data? q).isSome = true ∨ d.isDirAt q = true := by
  rw [isDirAt_iff, data?]
  cases d.node? q with
  | none => simp
  | some node => cases node <;> simp

/-- The disk `u` is the disk `d` with a file beneath the root and directories on the way down to
it. -/
structure Files (d : Disk) (root : Path) (names : List String) (id : Nat) (bytes : Bytes)
    (u : Disk) : Prop where
  sound : u.Sound
  grows : Grows d u
  leads : u.find (root.beneath names) = .ok (root.place ++ names, .file id bytes)
  others : ∀ q, q ≠ root.place ++ names →
    ∀ i b, u.node? q = some (.file i b) ↔ d.node? q = some (.file i b)
  isDir : ∀ q, u.isDirAt q = true ↔
    d.isDirAt q = true ∨ ∃ ms, ms <+: names ∧ ms ≠ names ∧ q = root.place ++ ms

theorem data?_congr (h : ∀ i b, u.node? q = some (.file i b) ↔ d.node? q = some (.file i b)) :
    u.data? q = d.data? q := by
  refine Option.ext fun bytes => ?_
  rw [data?_eq_some_iff, data?_eq_some_iff]
  exact exists_congr fun id => h id bytes

theorem Files.node? (h : Files d root names id bytes u) :
    u.node? (root.place ++ names) = some (.file id bytes) :=
  (find_eq_ok_iff.1 h.leads).2.2.1

theorem Files.data? (h : Files d root names id bytes u) (q : List String) :
    u.data? q = if q = root.place ++ names then some bytes else d.data? q := by
  split
  · next heq => rw [heq, data?_eq_some_iff.2 ⟨id, h.node?⟩]
  · next hne => exact data?_congr (h.others q hne)

theorem isDirAt_eq_false (h : d.node? q = some (.file id bytes)) : d.isDirAt q = false := by
  simp [isDirAt, h]

/-- Other data in the place of the data of a file. -/
theorem Files.put (h : Files d root names id bytes u) (more : Bytes) :
    Files d root names id more (u.put (root.place ++ names) (.file id more)) := by
  have hne := ne_nil_of_file h.node?
  have hnode (q : List String) := @node?_insert u _ (.file id more) hne u.nextId q
  have hgrows : Grows u (u.put (root.place ++ names) (.file id more)) := by
    refine grows_insert hne (fun hdir => ?_) _
    rw [isDirAt_eq_false h.node?] at hdir
    cases hdir
  refine ⟨h.sound.put_file h.node? more, h.grows.trans hgrows, ?_, fun q hq i b => ?_, fun q => ?_⟩
  · obtain ⟨hcheck, hwalk, _, hslash⟩ := find_eq_ok_iff.1 h.leads
    refine find_eq_ok_iff.2 ⟨hcheck, hgrows.walk hwalk, ?_, fun hs => by cases hslash hs⟩
    rw [Disk.put, hnode, if_pos rfl]
  · rw [← h.others q hq, Disk.put, hnode, if_neg hq]
  · rw [← h.isDir, isDirAt_iff, isDirAt_iff, Disk.put, hnode]
    by_cases hq : q = root.place ++ names
    · simp [hq, h.node?]
    · rw [if_neg hq]

theorem Beneath.files (h : Beneath origin root d) (hnames : ∀ name ∈ names, Path.IsPlain name)
    (hfiles : Files d root names id bytes u) : Beneath origin root u := by
  -- What is new below the root is the file, or a directory on the way down to it.
  have hnew {ms : List String} (hthere : (u.node? (root.place ++ ms)).isSome = true) :
      (d.node? (root.place ++ ms)).isSome = true ∨ ms <+: names := by
    by_cases hms : ms = names
    · exact .inr (hms ▸ List.prefix_refl _)
    · rw [isSome_node?_iff, hfiles.data?, hfiles.isDir,
        if_neg fun heq => hms (List.append_cancel_left heq)] at hthere
      rcases hthere with hdata | hdir | ⟨ks, hks, _, heq⟩
      · exact .inl (isSome_node?_iff.2 (.inl hdata))
      · exact .inl (isSome_node?_iff.2 (.inr hdir))
      · exact .inr (List.append_cancel_left heq ▸ hks)
  refine ⟨h.start, hfiles.sound, fun q hq hthere => hfiles.grows.stays q (h.outside q hq hthere),
    fun ms hthere => ?_, fun ms node hnode => ?_⟩
  · rcases hnew hthere with hold | hms
    · exact h.plain ms hold
    · exact fun name hname => hnames name (hms.subset hname)
  · -- Once the path is known to lead to its place, it leads to what is there.
    have hfind {node' : DiskNode} (h' : u.find (root.beneath ms) = .ok (root.place ++ ms, node')) :
        u.find (root.beneath ms) = .ok (root.place ++ ms, node) := by
      rw [h', Option.some.inj ((find_eq_ok_iff.1 h').2.2.1.symm.trans hnode)]
    rcases hnew (Option.isSome_of_mem hnode) with hold | hms
    · obtain ⟨before, hbefore⟩ := Option.isSome_iff_exists.1 hold
      obtain ⟨after, hafter, _⟩ := hfiles.grows.find (h.leads ms before hbefore)
      exact hfind hafter
    · by_cases hself : ms = names
      · subst hself
        exact hfind hfiles.leads
      · exact hfind (find_above h.start.text_ne hnames hfiles.leads hms hself)

/-- Making the directories above a path beneath the root adds directories on the way down to it, and
nothing else. -/
structure Deepens (d : Disk) (root : Path) (names : List String) (u : Disk) : Prop
    extends Extends d u where
  dirs : ∀ q, u.isDirAt q = true →
    d.isDirAt q = true ∨ ∃ ms, ms <+: names ∧ q = root.place ++ ms

theorem Beneath.sustains_deepens_makeDir (h : Beneath origin root d)
    (hnames : ∀ name ∈ names, Path.IsPlain name) (hp : pieces p <+: pieces (root.beneath names)) :
    Sustains (Deepens d root names) (makeDir p) := by
  refine sustains_of_state fun u hu => ?_
  have hextends := sustains_extends_makeDir d p u hu.toExtends
  refine ⟨hextends.1, ?_⟩
  rcases run_makeDir p u with ⟨e, hrun⟩ | ⟨parent, name, hleads, hnone, hrun⟩
  · rw [hrun]
    exact hu.dirs
  · rw [hrun]
    intro q hq
    rw [isDirAt_iff, Disk.put, node?_insert (List.concat_ne_nil _ _)] at hq
    split at hq
    · next heq =>
      rw [hleads.eq_stack, stack_eq] at heq
      rcases h.start.place_of_front hnames hp heq with ⟨houtside, hdir⟩ | hway
      · -- Outside the root nothing was missing, so no directory is made there.
        have hthere : (origin.node? q).isSome = true := isSome_node?_iff.2 (.inr hdir)
        have hstays := hu.grows.stays q (h.outside q houtside hthere)
        rw [heq, ← stack_eq, ← hleads.eq_stack, hnone] at hstays
        cases hstays
      · exact .inr hway
    · exact hu.dirs q (isDirAt_iff.2 hq)

theorem Beneath.deepens_makeParents (h : Beneath origin root d)
    (hnames : ∀ name ∈ names, Path.IsPlain name) {outcome : Except IoFailure Unit}
    (hrun : (LocalStore.makeParents (root.beneath names)).run d = (outcome, u)) :
    Deepens d root names u := by
  have hkeeps : Sustains (Deepens d root names) (LocalStore.makeParents (root.beneath names)) := by
    unfold LocalStore.makeParents
    split
    · exact preserves_pure ()
    · next parent hparent =>
      refine sustains_makeDirs fun p hp => h.sustains_deepens_makeDir hnames ?_
      exact (Path.pieces_of_mem_upward hp).trans (Path.pieces_parent? hparent)
  have hstart : Deepens d root names d :=
    ⟨⟨h.sound, .refl d, fun _ _ _ => .rfl⟩, fun _ hq => .inl hq⟩
  have hstate := (hkeeps d hstart).1
  rwa [hrun] at hstate

/-- Opened for writing after the directories above it have been made, a file is empty. -/
theorem Deepens.opened (h : Deepens d root names u) (hroot : root.text ≠ "")
    (hnames : ∀ name ∈ names, Path.IsPlain name)
    (hopen : (openForWriting (root.beneath names)).run u = (.ok id, d')) :
    Files d root names id [] d' := by
  rcases run_openForWriting (root.beneath names) u with
    ⟨e, hrun⟩ | ⟨parent, name, id', u', _, hrun, hempties, hfind⟩
  · rw [hopen] at hrun
    cases hrun
  · rw [hopen] at hrun
    cases hrun
    rw [(place_of_find hfind).trans (Path.place_beneath hnames root)] at hempties hfind
    have hgrows := h.grows.trans hempties.grows
    refine ⟨h.sound.empties hempties, hgrows, hfind, fun q hq i b => ?_, fun q => ?_⟩
    · rw [← h.toExtends.files, hempties.node?, if_neg hq]
    · constructor
      · intro hq
        rw [isDirAt_iff, hempties.node?] at hq
        split at hq
        · cases hq
        · next hne =>
          rcases h.dirs q (isDirAt_iff.2 hq) with hold | ⟨ms, hms, rfl⟩
          · exact .inl hold
          · exact .inr ⟨ms, hms, fun heq => hne (by rw [heq]), rfl⟩
      · intro hq
        rcases hq with hold | ⟨ms, hms, hne, rfl⟩
        · exact hgrows.isDir q hold
        · have habove := find_above hroot hnames hfind hms hne
          exact isDirAt_iff.2 (find_eq_ok_iff.1 habove).2.2.1

/-- Writing into a file that is still empty gives it the data. -/
theorem Files.run_writeAt (h : Files d root names id [] u) (bytes : Bytes) :
    (writeAt id 0 bytes).run u = (.ok (), u.put (root.place ++ names) (.file id bytes)) := by
  have hall : overwrite [] 0 bytes = bytes := overwrite_length [] bytes
  rw [h.sound.run_writeAt h.node?, hall]

end Disk

namespace LocalStore

/-- The filesystem of a disk beneath a root. -/
abbrev rooted (root : Path) : FileSystem Disk := fileSystem ⟨some root⟩

variable {origin d d' : Disk} {root p src dst : Path} {bytes : Bytes}

theorem resolve_rooted (hp : .parent ∉ p.components) (root : Path) :
    resolve ⟨some root⟩ p = root.beneath p.place :=
  Path.resolveUnder_eq_foldl_join hp root

theorem isPresent_rooted (h : origin.Beneath root d) (hp : .parent ∉ p.components) :
    (rooted root).isPresent p d = (d.node? (root.place ++ p.place)).isSome := by
  rw [isPresent_fileSystem, resolve_rooted hp]
  exact h.isPresent_eq fun _ => Path.isPlain_of_mem_stack

theorem create_eq_ok (h : origin.Beneath root d) (hp : .parent ∉ p.components) {w : Writer Disk}
    (hrun : ((rooted root).create p).run d = (.ok w, d')) :
    ∃ id, w = ⟨0, fun position bytes => Disk.writeAt id position bytes⟩ ∧
      d.Files root p.place id [] d' := by
  simp only [rooted, fileSystem, resolve_rooted hp, run_mapError_eq_ok_iff] at hrun
  obtain ⟨_, u, hparents, hrest⟩ := run_bind_eq_ok_iff.1 hrun
  obtain ⟨id, v, hopen, hpure⟩ := run_bind_eq_ok_iff.1 hrest
  cases hpure
  have hnames : ∀ name ∈ p.place, Path.IsPlain name := fun _ => Path.isPlain_of_mem_stack
  exact ⟨id, rfl, (h.deepens_makeParents hnames hparents).opened h.start.text_ne hnames hopen⟩

theorem putFile_eq_ok (h : origin.Beneath root d) (hp : .parent ∉ p.components)
    (hrun : ((rooted root).putFile p bytes).run d = (.ok (), d')) :
    ∃ id, d.Files root p.place id bytes d' := by
  unfold FileSystem.putFile at hrun
  obtain ⟨w, u, hcreate, hwrite⟩ := run_bind_eq_ok_iff.1 hrun
  obtain ⟨id, rfl, hfiles⟩ := create_eq_ok h hp hcreate
  cases bytes with
  | nil =>
    cases hwrite
    exact ⟨id, hfiles⟩
  | cons b bs =>
    have hrun' : (Writer.write ⟨0, fun position bytes => Disk.writeAt id position bytes⟩
        (b :: bs)).run u = (.ok ⟨0 + (b :: bs).length, _⟩, u.put _ _) :=
      run_bind_of_ok (hfiles.run_writeAt (b :: bs))
    rw [run_discard_of_ok (run_mapError_of_ok hrun' StorageError.io)] at hwrite
    obtain ⟨_, rfl⟩ := Prod.mk.inj hwrite
    exact ⟨id, hfiles.put (b :: bs)⟩

/-- Copying beneath the root writes the data of one file into another one. -/
theorem copy_eq_ok (h : origin.Beneath root d) (hsrc : .parent ∉ src.components)
    (hdst : .parent ∉ dst.components) (hne : src.place ≠ dst.place)
    (hrun : ((rooted root).copy src dst).run d = (.ok (), d')) :
    ∃ id bytes, d.data? (root.place ++ src.place) = some bytes ∧
      d.Files root dst.place id bytes d' := by
  have hnames : ∀ name ∈ dst.place, Path.IsPlain name := fun _ => Path.isPlain_of_mem_stack
  simp only [rooted, fileSystem, resolve_rooted hsrc, resolve_rooted hdst] at hrun
  obtain ⟨_, _, hworld, hrun⟩ := run_bind_eq_ok_iff.1 hrun
  cases hworld
  split at hrun
  · cases hrun
  · obtain ⟨_, u, hparents, hrest⟩ := run_bind_eq_ok_iff.1 hrun
    have hdeepens := h.deepens_makeParents hnames (run_mapError_eq_ok_iff.1 hparents)
    have hsteps := run_mapError_eq_ok_iff.1 hrest
    obtain ⟨⟨place, node⟩, u', hlook, hrest⟩ := run_bind_eq_ok_iff.1 hsteps
    obtain ⟨hfind, rfl⟩ := Prod.mk.inj hlook
    cases node with
    | dir => cases hrest
    | file sourceId bytes =>
      obtain ⟨id, v, hopen, hrest⟩ := run_bind_eq_ok_iff.1 hrest
      obtain ⟨_, _, hworld, hwrite⟩ := run_bind_eq_ok_iff.1 hrest
      cases hworld
      have hfiles := hdeepens.opened h.start.text_ne hnames hopen
      -- The source is another file than the one that was opened, so it still holds its data.
      obtain rfl := (Disk.place_of_find hfind).trans
        (Path.place_beneath (fun _ => Path.isPlain_of_mem_stack) root)
      have hsource := (hdeepens.files _ _ _).1 (Disk.find_eq_ok_iff.1 hfind).2.2.1
      have hother : root.place ++ src.place ≠ root.place ++ dst.place := fun heq =>
        hne (List.append_cancel_left heq)
      have hshown := hfiles.sound.fileWithId? ((hfiles.others _ hother _ _).2 hsource)
      rw [hshown] at hwrite
      obtain ⟨_, rfl⟩ := Prod.mk.inj ((hfiles.run_writeAt bytes).symm.trans hwrite)
      exact ⟨id, bytes, Disk.data?_eq_some_iff.2 ⟨_, hsource⟩, hfiles.put bytes⟩

end LocalStore
end OffloadCheck
