import OffloadCheck.Proofs.Absence
import OffloadCheck.Proofs.Beneath
import OffloadCheck.Proofs.Effects
import OffloadCheck.Proofs.Layouts
import OffloadCheck.Storage.Scripted

/-! # What a transfer leaves in its destination

A transfer opens its source, creates its destination and writes what the stream then delivers, so
whatever was delivered before the end or a failure is what the destination holds, however it was cut
into pieces. A source that cannot be opened leaves everything as it was. A destination that cannot
be created is left as it was in a memory tree; on a disk the directories above it are made first,
and those that could be made are left. -/
namespace OffloadCheck

open OffloadCheck.Action

variable {σ : Type} {s t u v : σ} {src dst p : Path} {bytes : Bytes}

/-! ## The three steps -/

namespace FileSystem

variable {source target : FileSystem σ} {stream : σ → ByteStream} {e : StorageError}

theorem run_transfer_of_open_error (h : (source.openFile src).run s = (.error e, t)) :
    (source.transfer src target dst).run s = (.error e, t) :=
  run_bind_of_error h

theorem run_transfer_of_create_error (hopen : (source.openFile src).run s = (.ok stream, u))
    (hcreate : (target.create dst).run u = (.error e, v)) :
    (source.transfer src target dst).run s = (.error e, v) :=
  (run_bind_of_ok hopen).trans (run_bind_of_error hcreate)

/-- All that the stream delivers is written, and then the transfer ends as the stream does. -/
theorem run_transfer_of_stream (hopen : (source.openFile src).run s = (.ok stream, u))
    {w : Writer σ} (hcreate : (target.create dst).run u = (.ok w, v))
    {Holds : Bytes → σ → Prop} (hfills : w.Fills Holds) (hv : Holds [] v) :
    ∃ t, Holds (stream v).content t ∧
      ((stream v).failure? = none →
        (source.transfer src target dst).run s = (.ok (stream v).content.length, t)) ∧
      ∀ f, (stream v).failure? = some f →
        (source.transfer src target dst).run s = (.error (.io f), t) := by
  obtain ⟨t, hwrite, ht⟩ := hfills.run_writeRefills hv (stream v)
  refine ⟨t, ht, fun hend => run_transfer_of_ok hopen hcreate hend hwrite, fun f hend => ?_⟩
  unfold transfer
  rw [run_bind_of_ok hopen, run_bind_of_ok hcreate, run_bind_of_ok (run_world v)]
  refine run_mapError_of_error ?_ StorageError.io
  rw [run_bind_of_ok hwrite, hend]
  rfl

end FileSystem

/-! ## Disks -/

namespace Disk

variable {d d' : Disk} {place : List String} {id : Nat}

/-- The disk `u` has the file with these data where the path leads, the directories above it, and
every other file as `d` has it. -/
structure Receives (d : Disk) (p : Path) (bytes : Bytes) (u : Disk) : Prop where
  leads : ∃ id, u.find p = .ok (p.place, .file id bytes)
  above : ∀ q, q <+: p.place → q ≠ p.place → u.isDirAt q = true
  others : ∀ q, q ≠ p.place → u.data? q = d.data? q
  grows : Grows d u

theorem Written.receives (h : Written d p place id bytes d') : Receives d p bytes d' := by
  obtain rfl := place_of_find h.leads
  exact ⟨⟨id, h.leads⟩, (standing_of_walk (find_eq_ok_iff.1 h.leads).2.1).2,
    fun q hq => data?_congr fun _ _ => h.others hq, h.grows⟩

/-- The disk `u` has the same files as `d` and may have more directories, all of them at places of
paths above `p`. -/
structure Prepares (d : Disk) (p : Path) (u : Disk) : Prop extends Extends d u where
  dirs : ∀ q, u.isDirAt q = true →
    d.isDirAt q = true ∨ ∃ parent above, p.parent? = some parent ∧ above ∈ parent.upward ∧
      q = above.place

theorem Prepares.refl (h : d.Sound) (p : Path) : Prepares d p d :=
  ⟨⟨h, .refl d, fun _ _ _ => .rfl⟩, fun _ hq => .inl hq⟩

theorem sustains_prepares_makeDir {parent above : Path} (hparent : p.parent? = some parent)
    (habove : above ∈ parent.upward) (d : Disk) : Sustains (Prepares d p) (makeDir above) := by
  refine sustains_of_state fun u hu => ?_
  refine ⟨(sustains_extends_makeDir d above u hu.toExtends).1, ?_⟩
  rcases run_makeDir above u with ⟨e, hrun⟩ | ⟨place, name, hleads, _, hrun⟩
  · rw [hrun]
    exact hu.dirs
  · rw [hrun]
    intro q hq
    rw [isDirAt_iff, Disk.put, node?_insert (List.concat_ne_nil _ _)] at hq
    split at hq
    · next heq => exact .inr ⟨parent, above, hparent, habove, heq.trans hleads.eq_stack⟩
    · exact hu.dirs q (isDirAt_iff.2 hq)

theorem sustains_prepares_makeParents (d : Disk) (p : Path) :
    Sustains (Prepares d p) (LocalStore.makeParents p) := by
  unfold LocalStore.makeParents
  split
  · exact preserves_pure ()
  · next parent hparent =>
    exact sustains_makeDirs fun above habove => sustains_prepares_makeDir hparent habove d

end Disk

namespace LocalStore

variable (store : LocalStore) {d d' : Disk} {e : StorageError}

/-- A file that cannot be created leaves the directories above it that could be made. -/
theorem prepares_of_create_error (hd : d.Sound)
    (h : (store.fileSystem.create p).run d = (.error e, d')) :
    d.Prepares (store.resolve p) d' := by
  obtain ⟨_, h, _⟩ := run_mapError_eq_error_iff.1 h
  have hparents := Disk.sustains_prepares_makeParents d (store.resolve p) d (.refl hd _)
  rcases hrun : (makeParents (store.resolve p)).run d with ⟨outcome, u⟩
  rw [hrun] at hparents
  cases outcome with
  | error _ =>
    rw [run_bind_of_error hrun] at h
    cases h
    exact hparents.1
  | ok _ =>
    rw [run_bind_of_ok hrun] at h
    rcases Disk.run_openForWriting (store.resolve p) u with ⟨_, hopen⟩ | ⟨_, _, _, _, _, hopen, _⟩
    · rw [run_bind_of_error hopen] at h
      cases h
      exact hparents.1
    · rw [run_bind_of_ok hopen] at h
      cases h

end LocalStore

/-! ## Stores -/

namespace Store

variable {store : Store σ} {e : StorageError}

/-- The files and directories are the same in two worlds. -/
def Kept : Store σ → σ → σ → Prop
  | .memory part, s, t => Memory.Same (part.get s) (part.get t)
  | .disk part _, s, t => part.get t = part.get s

/-- Nothing but the tree or the disk is another one. -/
def Changed : Store σ → σ → σ → Prop
  | .memory part, s, t => ∃ m, t = part.put m s
  | .disk part _, s, t => ∃ d, t = part.put d s

/-- The path leads to a file with these data, with directories above it, and every other file is as
it was. -/
def Receives : Store σ → Path → Bytes → σ → σ → Prop
  | .memory part, p, bytes, s, t => Memory.Puts p.components bytes (part.get s) (part.get t)
  | .disk part store, p, bytes, s, t => (part.get s).Receives (store.resolve p) bytes (part.get t)

/-- What is left when a file cannot be created: a memory tree is as it was, a disk may have more
directories above the path. -/
def Refuses : Store σ → Path → σ → σ → Prop
  | .memory part, _, s, t => Memory.Same (part.get s) (part.get t)
  | .disk part store, p, s, t => (part.get s).Prepares (store.resolve p) (part.get t)

theorem Untouched.kept (h : store.Untouched s t) : store.Kept s t := by
  cases store with
  | memory part =>
    have hget : part.get t = part.get s := h
    exact ⟨by rw [hget], by rw [hget]⟩
  | disk part store => exact h

theorem Kept.sound (h : store.Kept s t) (hs : store.Sound s) : store.Sound t := by
  cases store with
  | memory part => trivial
  | disk part store =>
    have huntouched : Untouched (.disk part store) s t := h
    exact sound_of_untouched huntouched hs

theorem Receives.of_kept (hkept : store.Kept s u) (h : store.Receives p bytes u t) :
    store.Receives p bytes s t := by
  cases store with
  | memory part =>
    refine ⟨fun k => ?_, fun k => ?_⟩
    · rw [h.data, hkept.data?]
    · rw [h.isDir, hkept.eq]
      rfl
  | disk part store =>
    have hget : part.get u = part.get s := hkept
    rw [Receives, ← hget]
    exact h

theorem Refuses.of_kept (hkept : store.Kept s u) (h : store.Refuses p u t) :
    store.Refuses p s t := by
  cases store with
  | memory part => exact ⟨h.1.trans hkept.1, h.2.trans hkept.2⟩
  | disk part store =>
    have hget : part.get u = part.get s := hkept
    rw [Refuses, ← hget]
    exact h

theorem refuses_of_create_error (hs : store.Sound s)
    (h : (store.fileSystem.create p).run s = (.error e, t)) : store.Refuses p s t := by
  cases store with
  | memory part =>
    obtain ⟨m, hcreate, rfl⟩ := part.eq_error ((part.follows_fileSystem _ s).create p) h
    obtain rfl := Memory.atomic_create p _ _ _ hcreate
    rw [part.put_get]
    exact ⟨rfl, rfl⟩
  | disk part store =>
    obtain ⟨d, hcreate, rfl⟩ := part.eq_error ((part.follows_fileSystem _ s).create p) h
    rw [Refuses, part.get_put]
    exact store.prepares_of_create_error hs hcreate

theorem changed_of_create {w : Writer σ}
    (h : (store.fileSystem.create p).run s = (.ok w, t)) : store.Changed s t := by
  cases store with
  | memory part =>
    obtain ⟨_, _, _, ht⟩ := part.create_eq_ok h
    exact ⟨_, ht⟩
  | disk part store =>
    obtain ⟨_, _, _, ht⟩ := part.create_eq_ok h
    exact ⟨_, ht⟩

/-- What a writer has written into a created file is what has been received. -/
theorem fills_receives (hs : store.Sound s) {w : Writer σ}
    (h : (store.fileSystem.create p).run s = (.ok w, t)) :
    ∃ Holds : Bytes → σ → Prop, w.Fills Holds ∧ Holds [] t ∧
      ∀ {data u}, Holds data u → store.Receives p data s u := by
  cases store with
  | memory part =>
    obtain ⟨v, hcreate, hfills⟩ := part.fills_create h
    obtain ⟨hv, ht⟩ := Memory.fills_create hcreate
    exact ⟨_, hfills hv, ht, fun hu => hu⟩
  | disk part store =>
    obtain ⟨v, hcreate, hfills⟩ := part.fills_create h
    obtain ⟨place, id, hv, ht⟩ := store.fills_create hs hcreate
    exact ⟨_, hfills hv, ht, fun hu => hu.receives⟩

end Store

/-! ## Sources -/

/-- Where the source of a transfer is, seen from the destination. -/
inductive Feeds (target : Store σ) (dst : Path) : FileSystem σ → Path → Prop
  /-- Any filesystem that leaves the destination alone and whose streams do not depend on it. -/
  | apart {source : FileSystem σ} {src : Path} :
      (∀ s, target.Untouched s ((source.openFile src).run s).2) →
      (∀ s stream u v, (source.openFile src).run s = (.ok stream, u) → target.Changed u v →
        stream v = stream u) →
      Feeds target dst source src
  /-- The memory tree of the destination itself, whatever the two paths are. -/
  | inMemory {tree : Part σ Memory} {src : Path} : target = .memory tree →
      Feeds target dst (tree.fileSystem Memory.fileSystem) src
  /-- The disk of the destination, where the two paths lead to different places. -/
  | onDisk {disk : Part σ Disk} {source store : LocalStore} {src : Path} :
      target = .disk disk store → (source.resolve src).place ≠ (store.resolve dst).place →
      Feeds target dst (disk.fileSystem source.fileSystem) src

namespace Feeds

variable {target : Store σ} {source : FileSystem σ} {stream : σ → ByteStream} {e : StorageError}
  {w : Writer σ}

/-- A tree or a disk that is kept apart from the destination is a source for it. -/
theorem of_spares {store : Store σ} (hstore : store.Spares target)
    (htarget : target.Spares store) : Feeds target dst store.fileSystem src := by
  refine .apart (fun s => ?_) fun s stream u v hopen hchanged => ?_
  · exact ((Store.sustains_untouched hstore s).openFile src s (.refl target s)).1
  · have huntouched : store.Untouched u v := by
      cases target with
      | memory part =>
        obtain ⟨m, rfl⟩ := hchanged
        exact htarget m u
      | disk part _ =>
        obtain ⟨d, rfl⟩ := hchanged
        exact htarget d u
    cases store with
    | memory part =>
      obtain ⟨shown, _, rfl⟩ := part.openFile_eq_ok hopen
      exact congrArg shown huntouched
    | disk part store =>
      obtain ⟨shown, _, rfl⟩ := part.openFile_eq_ok hopen
      exact congrArg shown huntouched

theorem untouched_of_error (h : Feeds target dst source src)
    (hopen : (source.openFile src).run s = (.error e, t)) : target.Untouched s t := by
  cases h with
  | apart hspares _ =>
    have hs := hspares s
    rwa [hopen] at hs
  | @inMemory tree _ htarget =>
    subst htarget
    obtain ⟨m, hfails, rfl⟩ := tree.eq_error ((tree.follows_fileSystem _ s).openFile src) hopen
    obtain rfl := Memory.atomic_openFile src _ _ _ hfails
    exact tree.get_put _ s
  | @onDisk disk source store _ htarget _ =>
    subst htarget
    obtain ⟨d, hfails, rfl⟩ := disk.eq_error ((disk.follows_fileSystem _ s).openFile src) hopen
    have hsame := (source.sustains_openFile (· = disk.get s) src (disk.get s) rfl).1
    rw [hfails] at hsame
    exact (disk.get_put _ s).trans hsame

theorem kept_of_ok (h : Feeds target dst source src)
    (hopen : (source.openFile src).run s = (.ok stream, u)) : target.Kept s u := by
  cases h with
  | apart hspares _ =>
    have hs := hspares s
    rw [hopen] at hs
    exact hs.kept
  | @inMemory tree _ htarget =>
    subst htarget
    obtain ⟨_, hshown, _⟩ := tree.openFile_eq_ok hopen
    obtain ⟨_, _, _, hsame⟩ := Memory.openFile_eq_ok hshown
    exact hsame
  | @onDisk disk source store _ htarget _ =>
    subst htarget
    obtain ⟨_, hshown, _⟩ := disk.openFile_eq_ok hopen
    exact (source.openFile_eq_ok hshown).1

/-- Creating the destination does not change what the stream delivers. -/
theorem stream_eq (h : Feeds target dst source src) (hs : target.Sound s)
    (hopen : (source.openFile src).run s = (.ok stream, u))
    (hcreate : (target.fileSystem.create dst).run u = (.ok w, v)) : stream v = stream u := by
  cases h with
  | apart _ hsteady => exact hsteady s stream u v hopen (Store.changed_of_create hcreate)
  | @inMemory tree _ htarget =>
    obtain ⟨_, hshown, rfl⟩ := tree.openFile_eq_ok hopen
    obtain ⟨_, _, rfl, _⟩ := Memory.openFile_eq_ok hshown
    rfl
  | @onDisk disk source store _ htarget hplaces =>
    subst htarget
    obtain ⟨_, hshown, rfl⟩ := disk.openFile_eq_ok hopen
    obtain ⟨hsame, place, id, data, hfind, rfl⟩ := source.openFile_eq_ok hshown
    obtain ⟨_, hcreated, _⟩ := disk.create_eq_ok hcreate
    rw [hsame] at hcreated
    obtain ⟨place', id', _, hwritten⟩ := store.fills_create hs hcreated
    -- The file of the source is another one than the file that was created.
    have hne : place ≠ place' := by
      rw [Disk.place_of_find hfind, Disk.place_of_find hwritten.leads]
      exact hplaces
    have hstays := hwritten.find_of_ne hfind hne
    have hbefore := Disk.Sound.fileWithId? hs (Disk.find_eq_ok_iff.1 hfind).2.2.1
    have hafter := hwritten.sound.fileWithId? (Disk.find_eq_ok_iff.1 hstays).2.2.1
    simp only [hsame, hbefore, hafter]

/-- A transfer ends with what fails first, and the destination holds what the source has delivered:
nothing at all changes where the source cannot be opened; where the destination cannot be created,
no file changes and nothing goes, and on a disk there may be more directories above it; else the
destination holds exactly the bytes of the stream, also when the stream fails behind them, and if it
does not fail their number is the answer. -/
theorem transfer_exact (h : Feeds target dst source src) (hs : target.Sound s) :
    (∀ e t, (source.openFile src).run s = (.error e, t) →
      (source.transfer src target.fileSystem dst).run s = (.error e, t) ∧
        target.Untouched s t) ∧
    ∀ stream u, (source.openFile src).run s = (.ok stream, u) →
      (∀ e v, (target.fileSystem.create dst).run u = (.error e, v) →
        (source.transfer src target.fileSystem dst).run s = (.error e, v) ∧
          target.Refuses dst s v) ∧
      ∀ w v, (target.fileSystem.create dst).run u = (.ok w, v) →
        ∃ t, target.Receives dst (stream u).content s t ∧
          ((stream u).failure? = none →
            (source.transfer src target.fileSystem dst).run s =
              (.ok (stream u).content.length, t)) ∧
          ∀ f, (stream u).failure? = some f →
            (source.transfer src target.fileSystem dst).run s = (.error (.io f), t) := by
  refine ⟨fun e t hopen => ?_, fun stream u hopen => ⟨fun e v hcreate => ?_, fun w v hcreate => ?_⟩⟩
  · exact ⟨FileSystem.run_transfer_of_open_error hopen, h.untouched_of_error hopen⟩
  · have hkept := h.kept_of_ok hopen
    have hrefuses := Store.refuses_of_create_error (hkept.sound hs) hcreate
    exact ⟨FileSystem.run_transfer_of_create_error hopen hcreate, hrefuses.of_kept hkept⟩
  · have hkept := h.kept_of_ok hopen
    obtain ⟨Holds, hfills, hv, hreceives⟩ := Store.fills_receives (hkept.sound hs) hcreate
    obtain ⟨t, ht, hends⟩ := FileSystem.run_transfer_of_stream hopen hcreate hfills hv
    rw [h.stream_eq hs hopen hcreate] at ht hends
    exact ⟨t, (hreceives ht).of_kept hkept, hends⟩

/-- A source whose only file breaks off before its last byte. -/
def brokenScript : Script := ⟨[], [("/f", ⟨[1, 2, 3, 4], 2, some 3⟩)]⟩

/-- A memory tree next to a disk. -/
def besideDisk : Store (Memory × Disk) := .memory Part.beside

def behindMemory : Store (Memory × Disk) := .disk Part.behind LocalStore.yardStore

/-- The bytes before the failure are in the destination, in the place of those that were there. From
a memory tree to a disk that is kept apart all bytes go. -/
theorem broken_stream_is_kept :
    (∃ m, (brokenScript.fileSystem.transfer ⟨"/f"⟩ (Part.whole.fileSystem Memory.fileSystem)
        ⟨"/d/g"⟩).run (Memory.empty.addFile ⟨"/d/g"⟩ [9]) =
          (.error (.io (.other "scripted read failure")), m) ∧
      m.read? ⟨"/d/g"⟩ = some [1, 2, 3]) ∧
    ∃ t, (besideDisk.fileSystem.transfer ⟨"/a"⟩ behindMemory.fileSystem ⟨"/out/a"⟩).run
        (Memory.empty.addFile ⟨"/a"⟩ [1, 2, 3], LocalStore.yardDisk) = (.ok 3, t) ∧
      ∃ id, t.2.find ⟨"/data/out/a"⟩ = .ok (["data", "out", "a"], .file id [1, 2, 3]) := by
  constructor
  · have hfeeds : Feeds (.memory Part.whole) ⟨"/d/g"⟩ (brokenScript.fileSystem (σ := Memory))
        ⟨"/f"⟩ := by
      refine .apart (fun s => .refl _ s) fun s stream u v hopen _ => ?_
      cases hopen
      rfl
    obtain ⟨_, hexact⟩ := hfeeds.transfer_exact (s := Memory.empty.addFile ⟨"/d/g"⟩ [9]) trivial
    obtain ⟨_, hexact⟩ := hexact _ _ rfl
    obtain ⟨m, hreceives, _, hfails⟩ := hexact _ _ rfl
    have hcontent : (ScriptedFile.stream ⟨[1, 2, 3, 4], 2, some 3⟩).content = [1, 2, 3] :=
      Refill.flatMap_cut 2 [1, 2, 3]
    exact ⟨m, hfails _ rfl, (hreceives.data _).trans (congrArg some hcontent)⟩
  · have hfeeds : Feeds behindMemory ⟨"/out/a"⟩ besideDisk.fileSystem ⟨"/a"⟩ :=
      of_spares (fun _ _ => rfl) fun _ _ => rfl
    have hsound : LocalStore.yardDisk.Sound := Memory.emptyAt_yardDisk.sound
    obtain ⟨_, hexact⟩ := hfeeds.transfer_exact
      (s := (Memory.empty.addFile ⟨"/a"⟩ [1, 2, 3], LocalStore.yardDisk)) hsound
    obtain ⟨_, hexact⟩ := hexact _ _ rfl
    obtain ⟨t, hreceives, hends, _⟩ := hexact _ _ rfl
    obtain ⟨id, hleads⟩ := hreceives.leads
    rw [ByteStream.content_ofBytes] at hleads
    exact ⟨t, hends rfl, id, hleads⟩

/-- On a disk a destination that cannot be created leaves the directory that was made above it. -/
theorem refused_destination_leaves_directory :
    let store := LocalStore.yardStore
    let copied := (store.fileSystem.transfer ⟨"/f"⟩ store.fileSystem ⟨"/new/\x00"⟩).run
      LocalStore.filedDisk
    (store.resolve ⟨"/f"⟩).place ≠ (store.resolve ⟨"/new/\x00"⟩).place ∧
      ((store.fileSystem.create ⟨"/new/\x00"⟩).run LocalStore.filedDisk).1 =
        .error (.io .nulInPath) ∧
      copied.1 = .error (.io .nulInPath) ∧
      store.fileSystem.isPresent ⟨"/new"⟩ LocalStore.filedDisk = false ∧
      store.fileSystem.isPresent ⟨"/new"⟩ copied.2 = true :=
  ⟨by decide, rfl, rfl, by decide, by decide⟩

end Feeds
end OffloadCheck
