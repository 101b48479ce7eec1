import OffloadCheck.Proofs.Clashes
import OffloadCheck.Proofs.Entries
import OffloadCheck.Proofs.Roots

/-! # Paths that lead nowhere

Where nothing is in a memory tree, every call says so in the same way and leaves the tree as it is.
On a disk there are several reasons why a path leads nowhere, and a missing entry is only one of
them: a path that goes on behind a regular file is refused as no directory. Listing, opening and
deleting hand the reason on and leave the disk as it is, while a copy has made the directories above
its destination by the time it looks for its source. -/
namespace OffloadCheck

open OffloadCheck.Action

variable {σ : Type}

/-- Listing, opening and deleting a path fail for one reason and change nothing. A missing entry is
no failure for a deletion. -/
structure FileSystem.Refuses (fs : FileSystem σ) (p : Path) (failure : IoFailure) (s : σ) :
    Prop where
  list : (fs.list p).run s = (.error (.ofIo p failure), s)
  openFile : (fs.openFile p).run s = (.error (.ofIo p failure), s)
  delete : ∀ recursive, (fs.delete p recursive).run s =
    (if failure = .system .noEntry then .ok false else .error (.io failure), s)

namespace Memory

variable {m : Memory} {p : Path}

theorem lookups_of_absent (h : fileSystem.isPresent p m = false) :
    m.file? p.components = none ∧ m.isDir p.components = false := by
  obtain ⟨hdata, hdir⟩ := not_occupied_iff.1 (isPresent_eq_false_iff.1 h)
  exact ⟨Option.map_eq_none_iff.1 hdata, hdir⟩

theorem refuses_of_absent (h : fileSystem.isPresent p m = false) :
    fileSystem.Refuses p (.system .noEntry) m := by
  obtain ⟨hfile, hdir⟩ := lookups_of_absent h
  constructor
  · simp [Action.run, fileSystem, list, hfile, hdir, StorageError.ofIo]
  · simp [Action.run, fileSystem, missing, hfile, hdir, StorageError.ofIo]
  · intro recursive
    simp [Action.run, fileSystem, hfile, hdir]

theorem run_copy_of_absent (h : fileSystem.isPresent p m = false) (dst : Path) :
    (fileSystem.copy p dst).run m = (.error (.notFound p), m) := by
  obtain ⟨hfile, hdir⟩ := lookups_of_absent h
  simp [Action.run, fileSystem, missing, hfile, hdir]

end Memory

/-! ## Why a path leads nowhere -/

namespace Disk

variable {d : Disk} {p : Path} {place q : List String}

theorem step_eq_error {piece : List Char} {e : SystemFailure} (h : d.step place piece = .error e) :
    (e = .notDirectory ∧ d.isDirAt place = false) ∨
      (e = .nameTooLong ∧ maxName < (String.ofList piece).utf8ByteSize) ∨
      (e = .noEntry ∧ d.isDirAt place = true) := by
  simp only [Disk.step] at h
  grind

/-- A walk fails at one of its pieces, after those before it have led somewhere. -/
theorem walk_eq_error {path : List (List Char)} {e : SystemFailure}
    (h : d.walk place path = .error e) : ∃ front piece rest q, path = front ++ piece :: rest ∧
      d.walk place front = .ok q ∧ d.step q piece = .error e := by
  induction path generalizing place with
  | nil => cases h
  | cons piece path ih =>
    cases hstep : d.step place piece with
    | error e' =>
      unfold Disk.walk at h
      rw [List.foldlM_cons, hstep] at h
      cases h
      exact ⟨[], piece, path, place, rfl, rfl, hstep⟩
    | ok next =>
      rw [← List.singleton_append, walk_append_of_ok ((walk_singleton d place piece).trans hstep)]
        at h
      obtain ⟨front, other, rest, q, rfl, hwalk, hfails⟩ := ih h
      exact ⟨piece :: front, other, rest, q, rfl, walk_cons_eq_ok_iff.2 ⟨next, hstep, hwalk⟩,
        hfails⟩

/-- Something is where a walk from the top ends, and above it there are directories. -/
theorem standing_of_walk {path : List (List Char)} (h : d.walk [] path = .ok place) :
    (d.node? place).isSome = true ∧ ∀ q, q <+: place → q ≠ place → d.isDirAt q = true := by
  induction path using List.reverseRecOn generalizing place with
  | nil =>
    cases h
    exact ⟨rfl, fun q hq hne => absurd (List.prefix_nil.1 hq) hne⟩
  | append_singleton front piece ih =>
    obtain ⟨before, hfront, hstep⟩ := walk_append_eq_ok_iff.1 h
    rw [walk_singleton] at hstep
    obtain ⟨hthere, habove⟩ := ih hfront
    obtain ⟨hdir, rfl | rfl | ⟨name, rfl, hnode⟩⟩ := step_cases hstep
    · exact ⟨hthere, habove⟩
    · by_cases hnil : before = []
      · subst hnil
        exact ⟨rfl, fun q hq hne => absurd (List.prefix_nil.1 hq) hne⟩
      · have hshorter (q : List String) (hq : q <+: before.dropLast) : q ≠ before := by
          rintro rfl
          have hlength := hq.length_le
          rw [List.length_dropLast] at hlength
          have hpos := List.length_pos_iff.2 hnil
          omega
        have hprefix := List.dropLast_prefix before
        have hup := habove _ hprefix (hshorter _ (List.prefix_refl _))
        refine ⟨by rw [isDirAt_iff.1 hup]; rfl, fun q hq _ => ?_⟩
        exact habove q (hq.trans hprefix) (hshorter q hq)
    · refine ⟨hnode, fun q hq hne => ?_⟩
      rcases List.prefix_concat_iff.1 hq with heq | hbefore
      · exact absurd heq hne
      · by_cases hself : q = before
        · rwa [hself]
        · exact habove q hbefore hself

/-- A part of the path leads to a regular file, and the path goes on behind it. -/
def LeadsThroughFile (d : Disk) (p : Path) : Prop :=
  ∃ front rest place id data, pieces p = front ++ rest ∧ d.walk [] front = .ok place ∧
    d.node? place = some (.file id data) ∧ (rest ≠ [] ∨ endsWithSlash p = true)

theorem find_of_leadsThroughFile (hcheck : check p = .ok ()) (h : d.LeadsThroughFile p) :
    d.find p = .error (.system .notDirectory) := by
  obtain ⟨front, rest, place, id, data, hpieces, hwalk, hnode, hend⟩ := h
  have hdir : d.isDirAt place = false := by
    simp [isDirAt, hnode]
  unfold find
  rw [hcheck, hpieces, walk_append_of_ok hwalk]
  cases rest with
  | nil =>
    have hslash : endsWithSlash p = true := hend.resolve_left (absurd rfl)
    have hstay : d.walk place [] = .ok place := rfl
    simp [bind, Except.bind, hstay, mapError_ok, hnode, hslash]
  | cons piece rest =>
    have hstep : d.step place piece = .error .notDirectory := by
      simp [Disk.step, hdir]
    unfold Disk.walk
    rw [List.foldlM_cons, hstep]
    rfl

/-- The path or one of its names is longer than a disk admits. -/
def TooLong (p : Path) : Prop :=
  maxPath < p.text.utf8ByteSize ∨
    ∃ piece ∈ pieces p, maxName < (String.ofList piece).utf8ByteSize

/-- Why a path leads nowhere on a disk. -/
inductive Astray (d : Disk) (p : Path) : IoFailure → Prop
  | nul : '\x00' ∈ p.text.toList → Astray d p .nulInPath
  | tooLong : TooLong p → Astray d p (.system .nameTooLong)
  | throughFile : check p = .ok () → d.LeadsThroughFile p → Astray d p (.system .notDirectory)
  | missing : ¬ d.LeadsThroughFile p → Astray d p (.system .noEntry)

theorem astray_of_check {e : IoFailure} (h : check p = .error e) (d : Disk) : d.Astray p e := by
  unfold check at h
  split at h
  · next hnul =>
    cases h
    exact .nul (List.contains_iff_mem.1 hnul)
  · split at h
    · next hempty =>
      cases h
      refine .missing fun hfile => ?_
      obtain ⟨front, rest, place, id, data, hpieces, hwalk, hnode, _⟩ := hfile
      have hnil : pieces p = [] := by
        rw [pieces, hempty]
        rfl
      obtain ⟨rfl, rfl⟩ := List.append_eq_nil_iff.1 (hpieces.symm.trans hnil)
      cases hwalk
      cases hnode
    · split at h
      · next hlong =>
        cases h
        exact .tooLong (.inl hlong)
      · cases h

theorem astray_of_walk {e : SystemFailure} (hcheck : check p = .ok ())
    (h : d.walk [] (pieces p) = .error e) : d.Astray p (.system e) := by
  obtain ⟨front, piece, rest, q, hpieces, hwalk, hstep⟩ := walk_eq_error h
  rcases step_eq_error hstep with ⟨rfl, hdir⟩ | ⟨rfl, hlong⟩ | ⟨rfl, hdir⟩
  · -- What the pieces before have led to is there, so it is a file.
    obtain ⟨node, hnode⟩ := Option.isSome_iff_exists.1 (standing_of_walk hwalk).1
    cases node with
    | dir =>
      rw [isDirAt_iff.2 hnode] at hdir
      cases hdir
    | file id data =>
      exact .throughFile hcheck
        ⟨front, piece :: rest, q, id, data, hpieces, hwalk, hnode, .inl (List.cons_ne_nil _ _)⟩
  · exact .tooLong (.inr ⟨piece, by simp [hpieces], hlong⟩)
  · refine .missing fun hfile => ?_
    have hfind := find_of_leadsThroughFile hcheck hfile
    have hmissing : d.find p = .error (.system .noEntry) := by
      unfold find
      rw [hcheck, h]
      rfl
    rw [hmissing] at hfind
    cases hfind

/-- A path leads somewhere unless one of the reasons keeps it from doing so. -/
theorem astray_of_find {failure : IoFailure} (h : d.find p = .error failure) :
    d.Astray p failure := by
  cases hcheck : check p with
  | error e =>
    unfold find at h
    rw [hcheck] at h
    cases h
    exact astray_of_check hcheck d
  | ok _ =>
    cases hwalk : d.walk [] (pieces p) with
    | error e =>
      unfold find at h
      rw [hcheck, hwalk] at h
      cases h
      exact astray_of_walk hcheck hwalk
    | ok place =>
      obtain ⟨node, hnode⟩ := Option.isSome_iff_exists.1 (standing_of_walk hwalk).1
      unfold find at h
      simp only [hcheck, hwalk, bind, Except.bind, mapError_ok, hnode] at h
      split at h
      · next hslash =>
        cases h
        rw [Bool.and_eq_true, bne_iff_ne] at hslash
        cases node with
        | dir => exact absurd rfl hslash.2
        | file id data =>
          exact .throughFile hcheck ⟨pieces p, [], place, id, data, (List.append_nil _).symm, hwalk,
            hnode, .inr hslash.1⟩
      · cases h

theorem isPresent_eq_false_iff :
    d.isPresent p = false ↔ ∃ failure, d.find p = .error failure := by
  unfold isPresent
  cases d.find p with
  | error e => simp [Except.isOk, Except.toBool]
  | ok found => simp [Except.isOk, Except.toBool]

end Disk

/-! ## What the calls make of it -/

namespace LocalStore

variable (store : LocalStore) {d u : Disk} {p : Path} {failure : IoFailure}

theorem refuses_of_find (h : d.find (store.resolve p) = .error failure) :
    store.fileSystem.Refuses p failure d := by
  have hanswers : (store.answers d).list p = .error (.ofIo p failure) ∧
      (store.answers d).stream p = .error (.ofIo p failure) := by
    simp [answers, h]
  refine ⟨?_, store.run_openFile_of_error hanswers.2, fun recursive => ?_⟩
  · rw [run_list, hanswers.1]
  · refine (run_bind_of_ok (run_world d)).trans ?_
    rw [h]
    split
    · next heq =>
      cases heq
      rfl
    · next hne heq =>
      cases heq
      rw [if_neg hne]
      rfl
    · next heq => cases heq
    · next heq => cases heq

section

variable {store} {dst : Path} (h : d.isDir (store.resolve p) = false)

include h

theorem run_copy_of_parents_error {e : IoFailure}
    (hparents : (makeParents (store.resolve dst)).run d = (.error e, u)) :
    (store.fileSystem.copy p dst).run d = (.error (.io e), u) := by
  refine (run_bind_of_ok (run_world d)).trans ?_
  rw [h, if_neg Bool.false_ne_true]
  exact run_bind_of_error (run_mapError_of_error hparents _)

/-- A copy looks for its source once the directories above its destination have been made. -/
theorem run_copy_of_find (hparents : (makeParents (store.resolve dst)).run d = (.ok (), u))
    (hfind : u.find (store.resolve p) = .error failure) :
    (store.fileSystem.copy p dst).run d = (.error (.ofIo p failure), u) := by
  refine (run_bind_of_ok (run_world d)).trans ?_
  rw [h, if_neg Bool.false_ne_true]
  refine (run_bind_of_ok (run_mapError_of_ok hparents _)).trans ?_
  exact run_mapError_of_error (run_bind_of_error (congrArg (·, u) hfind)) _

theorem run_copy_of_isDir (hparents : (makeParents (store.resolve dst)).run d = (.ok (), u))
    (hdir : u.isDir (store.resolve p) = true) :
    (store.fileSystem.copy p dst).run d = (.error (.io .notRegularFile), u) := by
  obtain ⟨place, hfind⟩ := Disk.isDir_iff.1 hdir
  refine (run_bind_of_ok (run_world d)).trans ?_
  rw [h, if_neg Bool.false_ne_true]
  refine (run_bind_of_ok (run_mapError_of_ok hparents _)).trans ?_
  refine run_mapError_of_error (e := IoFailure.notRegularFile) ?_ _
  exact run_bind_of_ok (congrArg (·, u) hfind)

end

end LocalStore

/-- At a path where nothing is, the calls on a memory tree say that it is not found, a deletion says
that there was nothing, and the tree stays as it is. On a disk listing, opening and deleting tell
why the path leads nowhere and leave the disk as it is; only the reason of a missing entry is told
as the path not being found, and a path behind a regular file has another one. A copy from the path
leaves the disk as making the directories above its destination does, and tells what this failed
with, or why the path leads nowhere then, or that the path has become a directory; it goes through
only if these directories have opened a way to a file. -/
theorem FileSystem.absent_path_is_refused (p dst : Path) :
    (∀ m, Memory.fileSystem.isPresent p m = false →
      Memory.fileSystem.Refuses p (.system .noEntry) m ∧
        (Memory.fileSystem.copy p dst).run m = (.error (.notFound p), m)) ∧
    ∀ (store : LocalStore) (d : Disk), store.fileSystem.isPresent p d = false →
      ∃ failure, d.Astray (store.resolve p) failure ∧ store.fileSystem.Refuses p failure d ∧
        ∀ outcome u, (LocalStore.makeParents (store.resolve dst)).run d = (outcome, u) →
          (∀ e, outcome = .error e → (store.fileSystem.copy p dst).run d = (.error (.io e), u)) ∧
          (outcome = .ok () → store.fileSystem.isPresent p u = false →
            ∃ failure', u.Astray (store.resolve p) failure' ∧
              (store.fileSystem.copy p dst).run d = (.error (.ofIo p failure'), u)) ∧
          (outcome = .ok () → u.isDir (store.resolve p) = true →
            (store.fileSystem.copy p dst).run d = (.error (.io .notRegularFile), u)) := by
  refine ⟨fun m h => ⟨Memory.refuses_of_absent h, Memory.run_copy_of_absent h dst⟩, ?_⟩
  intro store d h
  obtain ⟨failure, hfind⟩ := Disk.isPresent_eq_false_iff.1 h
  have hdir : d.isDir (store.resolve p) = false := by rw [Disk.isDir, hfind]
  refine ⟨failure, Disk.astray_of_find hfind, store.refuses_of_find hfind, fun outcome u hrun =>
    ⟨fun e he => ?_, fun hok h' => ?_, fun hok hdir' => ?_⟩⟩
  · subst he
    exact LocalStore.run_copy_of_parents_error hdir hrun
  · subst hok
    obtain ⟨failure', hfind'⟩ := Disk.isPresent_eq_false_iff.1 h'
    exact ⟨failure', Disk.astray_of_find hfind', LocalStore.run_copy_of_find hdir hrun hfind'⟩
  · subst hok
    exact LocalStore.run_copy_of_isDir hdir hrun hdir'

namespace LocalStore

/-- The disk with a root below the top, on which a file has been made. -/
def filedDisk : Disk := ((yardStore.fileSystem.create ⟨"/f"⟩).run yardDisk).2

/-- Behind a regular file nothing is there, and yet neither listing nor opening says that the path
is not found, and a deletion fails. A copy whose source is not found leaves a directory. -/
theorem path_behind_file_is_not_missing :
    yardStore.fileSystem.isPresent ⟨"/f/x"⟩ filedDisk = false ∧
      ((yardStore.fileSystem.list ⟨"/f/x"⟩).run filedDisk).1 =
        .error (.io (.system .notDirectory)) ∧
      ((yardStore.fileSystem.openFile ⟨"/f/x"⟩).run filedDisk).1 =
        .error (.io (.system .notDirectory)) ∧
      ((yardStore.fileSystem.delete ⟨"/f/x"⟩ false).run filedDisk).1 =
        .error (.io (.system .notDirectory)) ∧
      yardStore.fileSystem.isPresent ⟨"/g"⟩ filedDisk = false ∧
      ((yardStore.fileSystem.copy ⟨"/g"⟩ ⟨"/new/g"⟩).run filedDisk).1 =
        .error (.notFound ⟨"/g"⟩) ∧
      yardStore.fileSystem.isPresent ⟨"/new"⟩ filedDisk = false ∧
      yardStore.fileSystem.isPresent ⟨"/new"⟩
        ((yardStore.fileSystem.copy ⟨"/g"⟩ ⟨"/new/g"⟩).run filedDisk).2 = true := by
  refine ⟨by decide, rfl, rfl, rfl, by decide, rfl, by decide, by decide⟩

end LocalStore
end OffloadCheck
