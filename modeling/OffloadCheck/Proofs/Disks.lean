import OffloadCheck.Proofs.Invariants
import OffloadCheck.Storage.Local

/-! # What writing does to a disk

Making directories and writing files take nothing from a disk: what a path leads to stays where it
is. So a path under which a file was opened for writing leads to that file from then on. On a sound
disk the identity of a file belongs to one place, so writing through an identity changes the file at
that place and no other. Every disk that system calls have made is sound. -/
namespace OffloadCheck

open OffloadCheck.Action

namespace Disk

variable {d d' d'' : Disk} {p : Path} {place q : List String} {node : DiskNode} {id : Nat}
  {data : Bytes}

/-! ## Nodes -/

/-- The disk with a node at a place. -/
def put (d : Disk) (place : List String) (node : DiskNode) : Disk :=
  { d with nodes := d.nodes.insert place node }

theorem node?_insert (h : place ≠ []) (next : Nat) (q : List String) :
    node? ⟨d.nodes.insert place node, next⟩ q = if q = place then some node else d.node? q := by
  unfold node?
  by_cases hq : q = []
  · subst hq
    rw [if_pos rfl, if_neg (Ne.symm h), if_pos rfl]
  · simp only [hq, if_false, SortedMap.get?_insert, Std.LawfulEqOrd.compare_eq_iff_eq]

/-- The top is a directory whatever is entered for it. -/
theorem node?_insert_top (next : Nat) (q : List String) :
    node? ⟨d.nodes.insert [] node, next⟩ q = d.node? q := by
  unfold node?
  by_cases hq : q = []
  · rw [if_pos hq, if_pos hq]
  · simp only [hq, if_false, SortedMap.get?_insert, Std.LawfulEqOrd.compare_eq_iff_eq]

theorem isDirAt_iff : d.isDirAt place = true ↔ d.node? place = some .dir := decide_eq_true_iff

theorem ne_nil_of_file (h : d.node? place = some (.file id data)) : place ≠ [] := by
  intro heq
  subst heq
  cases h

/-! ## What a path leads to -/

theorem walk_append_of_ok {front : List (List Char)} (h : d.walk place front = .ok q)
    (rest : List (List Char)) : d.walk place (front ++ rest) = d.walk q rest := by
  unfold Disk.walk at h ⊢
  rw [List.foldlM_append, h]
  rfl

theorem walk_append_eq_ok_iff {front rest : List (List Char)} {r : List String} :
    d.walk place (front ++ rest) = .ok r ↔
      ∃ q, d.walk place front = .ok q ∧ d.walk q rest = .ok r := by
  cases hfront : d.walk place front with
  | error e =>
    unfold Disk.walk at hfront ⊢
    rw [List.foldlM_append, hfront]
    simp [bind, Except.bind]
  | ok q => simp [walk_append_of_ok hfront]

theorem walk_singleton (d : Disk) (place : List String) (piece : List Char) :
    d.walk place [piece] = d.step place piece :=
  bind_pure _

theorem walk_cons_eq_ok_iff {piece : List Char} {path : List (List Char)} :
    d.walk place (piece :: path) = .ok q ↔
      ∃ next, d.step place piece = .ok next ∧ d.walk next path = .ok q := by
  rw [← List.singleton_append, walk_append_eq_ok_iff]
  simp only [walk_singleton]

/-- A step leads from a directory to itself, to the directory above or to what lies in it. -/
theorem step_cases {piece : List Char} (h : d.step place piece = .ok q) :
    d.isDirAt place = true ∧ (q = place ∨ q = place.dropLast ∨
      ∃ name, q = place ++ [name] ∧ (d.node? q).isSome = true) := by
  simp only [Disk.step, ← Option.not_isSome] at h
  grind

theorem find_eq_ok_iff : d.find p = .ok (place, node) ↔
    check p = .ok () ∧ d.walk [] (pieces p) = .ok place ∧ d.node? place = some node ∧
      (endsWithSlash p = true → node = .dir) := by
  unfold find
  cases check p with
  | error e => simp [bind, Except.bind]
  | ok _ =>
    cases d.walk [] (pieces p) with
    | error e => simp [bind, Except.bind, mapError_error]
    | ok found =>
      simp only [bind, Except.bind, mapError_ok]
      cases hnode : d.node? found with
      | none => grind
      | some other => grind

/-- Nothing is taken from a disk, and directories stay directories. -/
structure Grows (d d' : Disk) : Prop where
  stays : ∀ q, (d.node? q).isSome = true → (d'.node? q).isSome = true
  isDir : ∀ q, d.isDirAt q = true → d'.isDirAt q = true

theorem Grows.refl (d : Disk) : Grows d d := ⟨fun _ h => h, fun _ h => h⟩

theorem Grows.trans (h : Grows d d') (h' : Grows d' d'') : Grows d d'' :=
  ⟨fun q hq => h'.stays q (h.stays q hq), fun q hq => h'.isDir q (h.isDir q hq)⟩

/-- A step of a walk leads to the same place on a disk that has more. -/
theorem Grows.step (h : Grows d d') {piece : List Char} (hstep : d.step place piece = .ok q) :
    d'.step place piece = .ok q := by
  unfold Disk.step at hstep ⊢
  by_cases hdir : d.isDirAt place = true
  · have hdir' := h.isDir place hdir
    by_cases hname : (d.node? (place ++ [String.ofList piece])).isSome = true
    · have hname' := h.stays _ hname
      simp only [hdir, hdir', ← Option.not_isSome, hname, hname'] at hstep ⊢
      exact hstep
    · -- Where the name leads nowhere, the step stays or goes up.
      simp only [hdir, hdir', ← Option.not_isSome, Bool.eq_false_iff.2 hname] at hstep ⊢
      grind
  · simp [hdir] at hstep

theorem Grows.walk (h : Grows d d') {path : List (List Char)} (hwalk : d.walk place path = .ok q) :
    d'.walk place path = .ok q := by
  induction path generalizing place with
  | nil => exact hwalk
  | cons piece path ih =>
    obtain ⟨next, hstep, hrest⟩ := walk_cons_eq_ok_iff.1 hwalk
    exact walk_cons_eq_ok_iff.2 ⟨next, h.step hstep, ih hrest⟩

/-- What a path leads to stays where it is. -/
theorem Grows.find (h : Grows d d') (hfind : d.find p = .ok (place, node)) :
    ∃ node', d'.find p = .ok (place, node') ∧ (node = .dir → node' = .dir) := by
  obtain ⟨hcheck, hwalk, hnode, hslash⟩ := find_eq_ok_iff.1 hfind
  obtain ⟨node', hnode'⟩ := Option.isSome_iff_exists.1 (h.stays place (by rw [hnode]; rfl))
  have hdir (heq : node = .dir) : node' = .dir := by
    subst heq
    have hstays := h.isDir place (isDirAt_iff.2 hnode)
    rw [isDirAt_iff, hnode'] at hstays
    exact Option.some.inj hstays
  exact ⟨node', find_eq_ok_iff.2 ⟨hcheck, h.walk hwalk, hnode', fun hs => hdir (hslash hs)⟩, hdir⟩

theorem isPresent_iff : d.isPresent p = true ↔ ∃ place node, d.find p = .ok (place, node) := by
  unfold isPresent
  cases d.find p with
  | error e => simp [Except.isOk, Except.toBool]
  | ok found =>
    obtain ⟨place, node⟩ := found
    simp [Except.isOk, Except.toBool]

theorem Grows.isPresent (h : Grows d d') (hp : d.isPresent p = true) : d'.isPresent p = true := by
  obtain ⟨place, node, hfind⟩ := isPresent_iff.1 hp
  obtain ⟨node', hfind', _⟩ := h.find hfind
  exact isPresent_iff.2 ⟨place, node', hfind'⟩

/-- A node put where nothing was, or a file in the place of a file. -/
theorem grows_insert (h : place ≠ []) (hdir : d.isDirAt place = true → node = .dir) (next : Nat) :
    Grows d ⟨d.nodes.insert place node, next⟩ := by
  constructor
  · intro q hq
    rw [node?_insert h]
    split
    · rfl
    · exact hq
  · intro q hq
    rw [isDirAt_iff, node?_insert h]
    split
    · next heq =>
      subst heq
      rw [hdir hq]
    · exact isDirAt_iff.1 hq

/-- The last piece of a path is a name, and the pieces before it lead to a directory. -/
structure LeadsTo (d : Disk) (p : Path) (place : List String) (name : String) : Prop where
  check : check p = .ok ()
  isDir : d.isDirAt place = true
  pieces : ∃ front last, pieces p = front ++ [last] ∧ d.walk [] front = .ok place ∧
    last ≠ ['.'] ∧ last ≠ ['.', '.'] ∧ name = String.ofList last

theorem findParent_eq_ok {name : String} (h : d.findParent p = .ok (place, .name name)) :
    d.LeadsTo p place name := by
  unfold findParent at h
  cases hcheck : Disk.check p with
  | error e => simp [hcheck, bind, Except.bind] at h
  | ok _ =>
    simp only [hcheck, bind, Except.bind] at h
    cases hlast : (Disk.pieces p).getLast? with
    | none => simp [hlast] at h
    | some last =>
      obtain ⟨front, hfront⟩ := List.getLast?_eq_some_iff.1 hlast
      rw [hlast, hfront, List.dropLast_concat] at h
      cases hwalk : d.walk [] front with
      | error e => simp [hwalk, mapError_error] at h
      | ok parent =>
        simp only [hwalk, mapError_ok] at h
        have hfound : d.isDirAt parent = true ∧ last ≠ ['.'] ∧ last ≠ ['.', '.'] ∧
            parent = place ∧ String.ofList last = name := by grind
        obtain ⟨hdir, hdot, hdots, rfl, rfl⟩ := hfound
        exact ⟨hcheck, hdir, front, last, hfront, hwalk, hdot, hdots, rfl⟩

/-- A path whose last piece is a name leads to what is given that name. -/
theorem LeadsTo.find {name : String} (h : d.LeadsTo p place name)
    (hname : name.utf8ByteSize ≤ maxName) (hslash : endsWithSlash p = false) (hgrows : Grows d d')
    (hnode : d'.node? (place ++ [name]) = some node) :
    d'.find p = .ok (place ++ [name], node) := by
  obtain ⟨front, last, hpieces, hwalk, hdot, hdots, rfl⟩ := h.pieces
  refine find_eq_ok_iff.2 ⟨h.check, ?_, hnode, by simp [hslash]⟩
  have hstep : d'.step place last = .ok (place ++ [String.ofList last]) := by
    simp [Disk.step, hgrows.isDir place h.isDir, hdot, hdots, hnode, Nat.not_lt.2 hname]
  rw [hpieces, walk_append_of_ok (hgrows.walk hwalk), walk_singleton]
  exact hstep

/-! ## What the calls do -/

/-- A directory is made where nothing was. -/
theorem run_makeDir (p : Path) (d : Disk) : (∃ e, (makeDir p).run d = (.error e, d)) ∨
    ∃ place name, d.LeadsTo p place name ∧ d.node? (place ++ [name]) = none ∧
      (makeDir p).run d = (.ok (), d.put (place ++ [name]) .dir) := by
  simp only [Action.run, makeDir]
  split
  · exact .inl ⟨_, rfl⟩
  · next hparent =>
    split
    · exact .inl ⟨_, rfl⟩
    · split
      · exact .inl ⟨_, rfl⟩
      · next hnode =>
        refine .inr ⟨_, _, findParent_eq_ok hparent, ?_, rfl⟩
        exact Option.not_isSome_iff_eq_none.1 hnode
  · exact .inl ⟨_, rfl⟩

/-- The disk `d'` is the disk `d` with an empty file at a place: one that was there is emptied, else
a file is made. -/
inductive Empties (d : Disk) (place : List String) : Nat → Disk → Prop
  | old {i : Nat} {b : Bytes} : d.node? place = some (.file i b) →
      Empties d place i (d.put place (.file i []))
  | fresh : place ≠ [] → d.node? place = none →
      Empties d place d.nextId ⟨d.nodes.insert place (.file d.nextId []), d.nextId + 1⟩

namespace Empties

theorem node? (h : Empties d place id d') (q : List String) :
    d'.node? q = if q = place then some (.file id []) else d.node? q := by
  cases h with
  | old hnode => exact node?_insert (ne_nil_of_file hnode) _ q
  | fresh hne _ => exact node?_insert hne _ q

theorem grows (h : Empties d place id d') : Grows d d' := by
  have hdir (hnode : d.isDirAt place = true) : DiskNode.file id [] = .dir := by
    rw [isDirAt_iff] at hnode
    cases h with
    | old hfile =>
      rw [hnode] at hfile
      cases hfile
    | fresh _ hnone =>
      rw [hnode] at hnone
      cases hnone
  cases h with
  | old hfile => exact grows_insert (ne_nil_of_file hfile) hdir _
  | fresh hne _ => exact grows_insert hne hdir _

end Empties

/-- From then on the path leads to the file that was opened. -/
theorem run_openForWriting (p : Path) (d : Disk) :
    (∃ e, (openForWriting p).run d = (.error e, d)) ∨
      ∃ place name id d', d.LeadsTo p place name ∧ (openForWriting p).run d = (.ok id, d') ∧
        Empties d (place ++ [name]) id d' ∧ d'.find p = .ok (place ++ [name], .file id []) := by
  simp only [Action.run, openForWriting]
  split
  · exact .inl ⟨_, rfl⟩
  · next parent name hparent =>
    have hleads := findParent_eq_ok hparent
    split
    · exact .inl ⟨_, rfl⟩
    · next hslash =>
      split
      · exact .inl ⟨_, rfl⟩
      · next hname =>
        have hopened {id : Nat} {d' : Disk} (h : Empties d (parent ++ [name]) id d') :
            d'.find p = .ok (parent ++ [name], .file id []) := by
          refine hleads.find (Nat.not_lt.1 hname) (Bool.eq_false_iff.2 hslash) h.grows ?_
          rw [h.node?, if_pos rfl]
        split
        · exact .inl ⟨_, rfl⟩
        · next hfile =>
          exact .inr ⟨_, _, _, _, hleads, rfl, .old hfile, hopened (.old hfile)⟩
        · next hnone =>
          have hempties := Empties.fresh (List.concat_ne_nil _ _) hnone
          exact .inr ⟨_, _, _, _, hleads, rfl, hempties, hopened hempties⟩
  · exact .inl ⟨_, rfl⟩

theorem get?_of_fileWithId? (h : d.fileWithId? id = some (place, data)) :
    d.nodes.get? place = some (.file id data) := by
  obtain ⟨⟨q, node⟩, hmem, hfound⟩ := List.exists_of_findSome?_eq_some h
  cases node with
  | dir => cases hfound
  | file i b =>
    dsimp only at hfound
    split at hfound
    · next heq =>
      cases hfound
      subst heq
      exact (SortedMap.mem_entries_iff _).1 hmem
    · cases hfound

/-- Writing changes the data of one file, if any. -/
theorem run_writeAt (id position : Nat) (bytes : Bytes) (d : Disk) :
    (writeAt id position bytes).run d = (.ok (), d) ∨
      ∃ place data, d.nodes.get? place = some (.file id data) ∧
        (writeAt id position bytes).run d =
          (.ok (), d.put place (.file id (overwrite data position bytes))) := by
  cases h : d.fileWithId? id with
  | none => exact .inl (by simp [Action.run, writeAt, h])
  | some found =>
    obtain ⟨place, data⟩ := found
    exact .inr ⟨place, data, get?_of_fileWithId? h, by simp [Action.run, writeAt, h, put]⟩

/-- Making a directory with those above it keeps what making one directory keeps. -/
theorem sustains_makeDirs {P : Disk → Prop} {paths : List Path}
    (h : ∀ p ∈ paths, Sustains P (makeDir p)) : Sustains P (makeDirs paths) := by
  have hsettle (p : Path) (outcome : Except IoFailure Unit) :
      Sustains P (makeDirs.settle p outcome) := by
    refine sustains_of_state fun d hd => ?_
    simp only [Action.run, makeDirs.settle]
    split
    · split
      · exact hd
      · exact hd
    · exact hd
  induction paths with
  | nil => exact preserves_pure ()
  | cons p above ih =>
    obtain ⟨hp, habove⟩ := List.forall_mem_cons.1 h
    refine hp.attempt.bind fun outcome => ?_
    -- Only a directory that is missing above asks for more than to settle the outcome.
    cases outcome with
    | ok _ => exact preserves_pure ()
    | error e =>
      cases e with
      | system failure =>
        cases failure with
        | noEntry => exact (ih habove).bind fun _ => hp.attempt.bind fun outcome => hsettle p outcome
        | busy | alreadyExists | notDirectory | isDirectory | invalidArgument | nameTooLong
        | notEmpty => exact hsettle p _
      | nulInPath | notText | notRegularFile | deletedWhileOpen | other => exact hsettle p _

theorem sustains_grows_makeDir (d : Disk) (p : Path) : Sustains (Grows d) (makeDir p) := by
  refine sustains_of_state fun u hu => ?_
  rcases run_makeDir p u with ⟨e, hrun⟩ | ⟨place, name, _, _, hrun⟩
  · rw [hrun]
    exact hu
  · rw [hrun]
    exact hu.trans (grows_insert (List.concat_ne_nil _ _) (fun _ => rfl) _)

theorem sustains_grows_openForWriting (d : Disk) (p : Path) :
    Sustains (Grows d) (openForWriting p) := by
  refine sustains_of_state fun u hu => ?_
  rcases run_openForWriting p u with ⟨e, hrun⟩ | ⟨place, name, id, v, _, hrun, hempties, _⟩
  · rw [hrun]
    exact hu
  · rw [hrun]
    exact hu.trans hempties.grows

theorem sustains_grows_writeAt (d : Disk) (id position : Nat) (bytes : Bytes) :
    Sustains (Grows d) (writeAt id position bytes) := by
  refine sustains_of_state fun u hu => ?_
  rcases run_writeAt id position bytes u with hrun | ⟨place, data, hfile, hrun⟩
  · rw [hrun]
    exact hu
  · rw [hrun]
    refine hu.trans ?_
    by_cases hplace : place = []
    · subst hplace
      constructor
      · intro q hq
        rw [put, node?_insert_top]
        exact hq
      · intro q hq
        rw [isDirAt_iff, put, node?_insert_top]
        exact isDirAt_iff.1 hq
    · refine grows_insert hplace (fun hdir => ?_) _
      rw [isDirAt_iff, node?, if_neg hplace, hfile] at hdir
      cases hdir

/-! ## Sound disks -/

/-- Every file has an identity of its own that was given out before, and the top is no file. -/
structure Sound (d : Disk) : Prop where
  top : d.nodes.get? [] = none
  given : ∀ {q i b}, d.node? q = some (.file i b) → i < d.nextId
  unique : ∀ {q r i b c}, d.node? q = some (.file i b) → d.node? r = some (.file i c) → q = r

theorem sound_empty : Sound .empty := by
  have hnone {q : List String} {i : Nat} {b : Bytes} : empty.node? q ≠ some (.file i b) := by
    unfold node?
    split
    · simp
    · simp [empty]
  exact ⟨rfl, fun h => absurd h hnone, fun h => absurd h hnone⟩

/-- Where no file is new, a disk stays sound. -/
theorem Sound.of_files (h : d.Sound) (htop : d'.nodes.get? [] = none) (hnext : d.nextId ≤ d'.nextId)
    (hfiles : ∀ q i b, d'.node? q = some (.file i b) → ∃ b', d.node? q = some (.file i b')) :
    d'.Sound where
  top := htop
  given hq := by
    obtain ⟨_, hold⟩ := hfiles _ _ _ hq
    exact Nat.lt_of_lt_of_le (h.given hold) hnext
  unique hq hr := by
    obtain ⟨_, hq⟩ := hfiles _ _ _ hq
    obtain ⟨_, hr⟩ := hfiles _ _ _ hr
    exact h.unique hq hr

/-- What is taken from a sound disk leaves a sound disk. -/
theorem Sound.of_fewer (h : d.Sound) (hnext : d.nextId = d'.nextId)
    (hnodes : ∀ q node, d'.nodes.get? q = some node → d.nodes.get? q = some node) : d'.Sound := by
  refine h.of_files ?_ (Nat.le_of_eq hnext) fun q i b hq => ⟨b, ?_⟩
  · cases htop : d'.nodes.get? [] with
    | none => rfl
    | some node =>
      have hthere := hnodes _ _ htop
      rw [h.top] at hthere
      cases hthere
  · have hplace := ne_nil_of_file hq
    rw [node?, if_neg hplace] at hq ⊢
    exact hnodes _ _ hq

theorem Sound.removeAt (h : d.Sound) (place : List String) : (d.removeAt place).Sound := by
  refine h.of_fewer rfl fun q node hq => ?_
  rw [Disk.removeAt, SortedMap.get?_erase] at hq
  split at hq
  · cases hq
  · exact hq

theorem Sound.removeBelow (h : d.Sound) (place : List String) : (d.removeBelow place).Sound := by
  refine h.of_fewer rfl fun q node hq => ?_
  rw [Disk.removeBelow, SortedMap.get?_filter] at hq
  exact (Option.filter_eq_some_iff.1 hq).1

theorem get?_top_insert (h : d.Sound) (hplace : place ≠ []) :
    (d.nodes.insert place node).get? [] = none := by
  rw [SortedMap.get?_insert, if_neg, h.top]
  rw [Std.LawfulEqOrd.compare_eq_iff_eq]
  exact hplace.symm

theorem Sound.put_dir (h : d.Sound) (hplace : place ≠ []) : (d.put place .dir).Sound := by
  refine h.of_files (get?_top_insert h hplace) (Nat.le_refl _) fun q i b hq => ?_
  rw [put, node?_insert hplace] at hq
  split at hq
  · cases hq
  · exact ⟨b, hq⟩

theorem Sound.put_file (h : d.Sound) (hfile : d.node? place = some (.file id data))
    (bytes : Bytes) : (d.put place (.file id bytes)).Sound := by
  have hplace := ne_nil_of_file hfile
  refine h.of_files (get?_top_insert h hplace) (Nat.le_refl _) fun q i b hq => ?_
  rw [put, node?_insert hplace] at hq
  split at hq
  · next heq =>
    cases hq
    exact ⟨data, heq ▸ hfile⟩
  · exact ⟨b, hq⟩

theorem Sound.empties (h : d.Sound) (hempties : Empties d place id d') : d'.Sound := by
  cases hempties with
  | old hfile => exact h.put_file hfile []
  | fresh hplace hnone =>
    have hnode := @node?_insert d place (.file d.nextId []) hplace (d.nextId + 1)
    refine ⟨get?_top_insert h hplace, fun {q i b} hq => ?_, fun {q r i b c} hq hr => ?_⟩
    · rw [hnode] at hq
      split at hq
      · cases hq
        exact Nat.lt_succ_self _
      · exact Nat.lt_succ_of_lt (h.given hq)
    · rw [hnode] at hq hr
      split at hq
      · split at hr
        · next hq' hr' => rw [hq', hr']
        · cases hq
          exact absurd (h.given hr) (Nat.lt_irrefl _)
      · split at hr
        · cases hr
          exact absurd (h.given hq) (Nat.lt_irrefl _)
        · exact h.unique hq hr

/-- On a sound disk an identity leads to its one file. -/
theorem Sound.fileWithId? (h : d.Sound) (hfile : d.node? place = some (.file id data)) :
    d.fileWithId? id = some (place, data) := by
  have hplace := ne_nil_of_file hfile
  have hget : d.nodes.get? place = some (.file id data) := by
    rwa [node?, if_neg hplace] at hfile
  cases hfound : d.fileWithId? id with
  | none =>
    have hnone := List.findSome?_eq_none_iff.1 hfound _ ((SortedMap.mem_entries_iff _).2 hget)
    simp at hnone
  | some found =>
    obtain ⟨q, b⟩ := found
    have hget' := get?_of_fileWithId? hfound
    have hq : q ≠ [] := by
      intro heq
      subst heq
      rw [h.top] at hget'
      cases hget'
    have hfile' : d.node? q = some (.file id b) := by
      rwa [node?, if_neg hq]
    obtain rfl := h.unique hfile' hfile
    rw [hfile] at hfile'
    cases hfile'
    rfl

/-- On a sound disk writing through the identity of a file changes that file only. -/
theorem Sound.run_writeAt (h : d.Sound) (hfile : d.node? place = some (.file id data))
    (position : Nat) (bytes : Bytes) : (writeAt id position bytes).run d =
      (.ok (), d.put place (.file id (overwrite data position bytes))) := by
  simp [Action.run, writeAt, h.fileWithId? hfile, put]

theorem sustains_sound_makeDir (p : Path) : Sustains Sound (makeDir p) := by
  refine sustains_of_state fun d hd => ?_
  rcases run_makeDir p d with ⟨e, hrun⟩ | ⟨place, name, _, _, hrun⟩
  · rw [hrun]
    exact hd
  · rw [hrun]
    exact hd.put_dir (List.concat_ne_nil _ _)

theorem sustains_sound_openForWriting (p : Path) : Sustains Sound (openForWriting p) := by
  refine sustains_of_state fun d hd => ?_
  rcases run_openForWriting p d with ⟨e, hrun⟩ | ⟨place, name, id, v, _, hrun, hempties, _⟩
  · rw [hrun]
    exact hd
  · rw [hrun]
    exact hd.empties hempties

theorem sustains_sound_writeAt (id position : Nat) (bytes : Bytes) :
    Sustains Sound (writeAt id position bytes) := by
  refine sustains_of_state fun d hd => ?_
  rcases Disk.run_writeAt id position bytes d with hrun | ⟨place, data, hfile, hrun⟩
  · rw [hrun]
    exact hd
  · have hplace : place ≠ [] := by
      intro heq
      subst heq
      rw [hd.top] at hfile
      cases hfile
    have hnode : d.node? place = some (.file id data) := by
      rwa [node?, if_neg hplace]
    rw [hrun]
    exact hd.put_file hnode _

/-! ## Invariants -/

/-- Every system call that changes a disk keeps the property. -/
structure Invariant (P : Disk → Prop) : Prop where
  makeDir : ∀ p, Sustains P (makeDir p)
  openForWriting : ∀ p, Sustains P (openForWriting p)
  writeAt : ∀ id i bytes, Sustains P (writeAt id i bytes)
  removeAt : ∀ {d : Disk}, P d → ∀ place, P (d.removeAt place)
  removeBelow : ∀ {d : Disk}, P d → ∀ place, P (d.removeBelow place)

theorem invariant_sound : Invariant Sound where
  makeDir := sustains_sound_makeDir
  openForWriting := sustains_sound_openForWriting
  writeAt := sustains_sound_writeAt
  removeAt h := h.removeAt
  removeBelow h := h.removeBelow

namespace Invariant

variable {P : Disk → Prop}

theorem removeDir (h : Invariant P) (p : Path) : Sustains P (removeDir p) := by
  refine sustains_of_state fun d hd => ?_
  simp only [Action.run, Disk.removeDir]
  split
  · exact hd
  · exact hd
  · exact hd
  · exact hd
  · split
    · exact hd
    · exact hd
    · split
      · exact h.removeAt hd _
      · exact hd

theorem removeTree (h : Invariant P) (p : Path) : Sustains P (removeTree p) := by
  refine preserves_world.bind fun d => (sustains_ofExcept _).bind fun found => ?_
  refine (preserves_change fun d hd => h.removeBelow hd found.1).bind fun _ => ?_
  refine (h.removeDir p).attempt.bind fun outcome => ?_
  split
  · exact preserves_pure ()
  · exact sustains_ofExcept _

end Invariant

end Disk

/-! ## Disks as filesystems -/

namespace LocalStore

variable (store : LocalStore)

theorem sustains_look {α : Type} {P : Disk → Prop} (f : Disk → Except IoFailure α) :
    Sustains P (look f) := sustains_of_state fun _ hd => hd

theorem sustains_makeParents {P : Disk → Prop} (h : ∀ p, Sustains P (Disk.makeDir p))
    (physical : Path) : Sustains P (makeParents physical) := by
  unfold makeParents
  split
  · exact preserves_pure ()
  · exact Disk.sustains_makeDirs fun p _ => h p

theorem sustains_list (P : Disk → Prop) (p : Path) : Sustains P (store.fileSystem.list p) := by
  refine (sustains_mapError (sustains_look _) _).bind fun found => ?_
  obtain ⟨place, node⟩ := found
  cases node with
  | file id data => exact preserves_fail trivial
  | dir => exact preserves_world.bind fun d => preserves_pure _

theorem sustains_openFile (P : Disk → Prop) (p : Path) :
    Sustains P (store.fileSystem.openFile p) := by
  refine preserves_world.bind fun d => ?_
  split
  · exact preserves_fail trivial
  · refine (sustains_mapError (sustains_look _) _).bind fun found => ?_
    obtain ⟨place, node⟩ := found
    cases node with
    | file id data => exact preserves_pure _
    | dir => exact preserves_fail trivial

/-- The calls for reading and writing keep what making directories, opening files for writing and
writing into them keep. -/
theorem sustains_fileSystem {P : Disk → Prop} (hdir : ∀ p, Sustains P (Disk.makeDir p))
    (hopen : ∀ p, Sustains P (Disk.openForWriting p))
    (hwrite : ∀ id i bytes, Sustains P (Disk.writeAt id i bytes)) :
    store.fileSystem.Sustains P where
  list := store.sustains_list P
  openFile := store.sustains_openFile P
  create p := by
    refine sustains_mapError ?_ _
    exact (sustains_makeParents hdir _).bind fun _ => (hopen _).bind fun id => preserves_pure _
  writeAt := by
    intro p s w t hcreate i bytes
    obtain ⟨_, _, _, h⟩ := run_bind_eq_ok_iff.1 (run_mapError_eq_ok_iff.1 hcreate)
    obtain ⟨id, _, _, h⟩ := run_bind_eq_ok_iff.1 h
    cases h
    exact hwrite id i bytes

theorem sustains_copy {P : Disk → Prop} (h : Disk.Invariant P) (src dst : Path) :
    Sustains P (store.fileSystem.copy src dst) := by
  refine preserves_world.bind fun d => ?_
  split
  · exact preserves_fail trivial
  · have hparents := sustains_makeParents h.makeDir (store.resolve dst)
    refine (sustains_mapError hparents _).bind fun _ => sustains_mapError ?_ _
    refine (sustains_look _).bind fun found => ?_
    obtain ⟨place, node⟩ := found
    cases node with
    | dir => exact preserves_fail trivial
    | file id data =>
      refine (h.openForWriting _).bind fun i => preserves_world.bind fun u => ?_
      exact h.writeAt i 0 _

theorem sustains_delete {P : Disk → Prop} (h : Disk.Invariant P) (p : Path) (recursive : Bool) :
    Sustains P (store.fileSystem.delete p recursive) := by
  refine preserves_world.bind fun d => ?_
  split
  · exact preserves_pure _
  · exact preserves_fail trivial
  · exact (preserves_change fun u hu => h.removeAt hu _).bind fun _ => preserves_pure _
  · split
    · have htree := h.removeTree (store.resolve p)
      exact (sustains_mapError htree _).bind fun _ => preserves_pure _
    · refine preserves_world.bind fun u => ?_
      split
      · exact preserves_fail trivial
      · have hdir := h.removeDir (store.resolve p)
        exact (sustains_mapError hdir _).bind fun _ => preserves_pure _

theorem sustains_grows_fileSystem (d : Disk) : store.fileSystem.Sustains (Disk.Grows d) :=
  store.sustains_fileSystem (Disk.sustains_grows_makeDir d) (Disk.sustains_grows_openForWriting d)
    (Disk.sustains_grows_writeAt d)

/-- What is on a disk disappears only when it is deleted. -/
theorem lasting_fileSystem : store.fileSystem.Lasting where
  created := by
    intro p d w d' h
    obtain ⟨_, u, _, h⟩ := run_bind_eq_ok_iff.1 (run_mapError_eq_ok_iff.1 h)
    obtain ⟨id, v, hopen, h⟩ := run_bind_eq_ok_iff.1 h
    cases h
    rcases Disk.run_openForWriting (store.resolve p) u with
      ⟨e, hrun⟩ | ⟨place, name, id', v', _, hrun, _, hfind⟩
    · rw [hopen] at hrun
      cases hrun
    · rw [hopen] at hrun
      cases hrun
      exact Disk.isPresent_iff.2 ⟨_, _, hfind⟩
  stays p := by
    -- What a call leaves has grown from what it found.
    have hstays {α ε : Type} {x : Action Disk ε α} (h : ∀ d, Sustains (Disk.Grows d) x) :
        Sustains (fun d => store.fileSystem.isPresent p d = true) x := by
      refine sustains_of_state fun d hd => ?_
      exact ((h d) d (.refl d)).1.isPresent hd
    constructor
    · exact fun q => hstays fun d => (store.sustains_grows_fileSystem d).list q
    · exact fun q => hstays fun d => (store.sustains_grows_fileSystem d).openFile q
    · exact fun q => hstays fun d => (store.sustains_grows_fileSystem d).create q
    · intro q s w t hcreate i bytes
      exact hstays fun d => (store.sustains_grows_fileSystem d).writeAt hcreate i bytes

end LocalStore

/-! ## Disks in use -/

namespace Disk

/-- The disks that come from the empty one. Listing and opening leave a disk as it is, so what is
created, written, copied and deleted is all that can have happened to it. -/
inductive Reachable : Disk → Prop
  | empty : Reachable .empty
  | create {d : Disk} (store : LocalStore) (p : Path) :
      Reachable d → Reachable ((store.fileSystem.create p).run d).2
  | write {d : Disk} (id position : Nat) (bytes : Bytes) :
      Reachable d → Reachable ((writeAt id position bytes).run d).2
  | copy {d : Disk} (store : LocalStore) (src dst : Path) :
      Reachable d → Reachable ((store.fileSystem.copy src dst).run d).2
  | delete {d : Disk} (store : LocalStore) (p : Path) (recursive : Bool) :
      Reachable d → Reachable ((store.fileSystem.delete p recursive).run d).2

/-- What holds of the empty disk and is kept by the system calls holds of every disk in use. -/
theorem Reachable.of_invariant {P : Disk → Prop} (hP : Invariant P) (hempty : P .empty)
    (h : Reachable d) : P d := by
  induction h with
  | empty => exact hempty
  | create store p _ ih =>
    have hcalls := store.sustains_fileSystem hP.makeDir hP.openForWriting hP.writeAt
    exact (hcalls.create p _ ih).1
  | write id position bytes _ ih => exact (hP.writeAt id position bytes _ ih).1
  | copy store src dst _ ih => exact (store.sustains_copy hP src dst _ ih).1
  | delete store p recursive _ ih => exact (store.sustains_delete hP p recursive _ ih).1

theorem Reachable.sound (h : Reachable d) : d.Sound := h.of_invariant invariant_sound sound_empty

end Disk
end OffloadCheck
