import OffloadCheck.Proofs.Stores

/-! # What a copy leaves

A writer fills a file when what it writes behind the data of the file goes behind it. So a copy that
ends well leaves in its destination what its source held once the destination had been created. On a
memory tree a stream is fixed when it is opened; on a disk it shows what the file holds when it is
read, so there it matters whether source and destination are one file. -/
namespace OffloadCheck

open OffloadCheck.Action

variable {σ τ : Type}

/-! ## Filling a file -/

/-- The file that the predicate speaks of grows by what is written at its end. -/
structure Writer.Fills (w : Writer σ) (Holds : Bytes → σ → Prop) : Prop where
  position : w.position = 0
  writeAt : ∀ {data s} (bytes : Bytes), Holds data s →
    ∃ t, (w.writeAt data.length bytes).run s = (.ok (), t) ∧ Holds (data ++ bytes) t

/-- Refills go one behind the other, and their bytes are counted. -/
theorem Writer.run_writeRefills {w : Writer σ} {Holds : Bytes → σ → Prop}
    (hwrite : ∀ {data s} (bytes : Bytes), Holds data s →
      ∃ t, (w.writeAt data.length bytes).run s = (.ok (), t) ∧ Holds (data ++ bytes) t)
    {data : Bytes} {s : σ} (hposition : w.position = data.length) (h : Holds data s) (copied : Nat)
    (refills : List Refill) :
    ∃ t, (w.writeRefills copied refills).run s =
        (.ok (copied + (refills.flatMap Refill.bytes).length), t) ∧
      Holds (data ++ refills.flatMap Refill.bytes) t := by
  induction refills generalizing w data s copied with
  | nil => exact ⟨s, rfl, by simpa using h⟩
  | cons r rs ih =>
    obtain ⟨u, hrun, hu⟩ := hwrite r.bytes h
    have hfirst : (w.write r.bytes).run s =
        (.ok { w with position := w.position + r.bytes.length }, u) := by
      have hne : r.bytes.isEmpty = false := rfl
      rw [Writer.write, hne, hposition]
      exact run_bind_of_ok hrun
    have hnext : w.position + r.bytes.length = (data ++ r.bytes).length := by
      rw [hposition, List.length_append]
    obtain ⟨t, hrest, ht⟩ := ih (w := { w with position := w.position + r.bytes.length })
      hwrite hnext hu (copied + r.bytes.length)
    refine ⟨t, (run_bind_of_ok hfirst).trans ?_, ?_⟩
    · rw [hrest, List.flatMap_cons, List.length_append, Nat.add_assoc]
    · rw [List.flatMap_cons, ← List.append_assoc]
      exact ht

/-- A file that is filled with a stream holds the content of the stream, whose bytes are counted. -/
theorem Writer.Fills.run_writeRefills {w : Writer σ} {Holds : Bytes → σ → Prop} (h : w.Fills Holds)
    {s : σ} (hs : Holds [] s) (stream : ByteStream) :
    ∃ t, (w.writeRefills 0 stream.refills).run s = (.ok stream.content.length, t) ∧
      Holds stream.content t := by
  have hposition : w.position = ([] : Bytes).length := h.position
  have hrun := w.run_writeRefills h.writeAt hposition hs 0 stream.refills
  rw [Nat.zero_add, List.nil_append] at hrun
  exact hrun

theorem Writer.Fills.of_writeRefills {w : Writer σ} {Holds : Bytes → σ → Prop} (h : w.Fills Holds)
    {s t : σ} (hs : Holds [] s) {stream : ByteStream} {n : Nat}
    (hrun : (w.writeRefills 0 stream.refills).run s = (.ok n, t)) : Holds stream.content t := by
  obtain ⟨u, hrun', hu⟩ := h.run_writeRefills hs stream
  obtain ⟨_, rfl⟩ := Prod.mk.inj (hrun.symm.trans hrun')
  exact hu

/-- What is read from a path. -/
def FileSystem.Reads (fs : FileSystem σ) (p : Path) (s : σ) (bytes : Bytes) : Prop :=
  ((fs.contents p).run s).1 = .ok bytes

theorem FileSystem.Reads.eq {fs : FileSystem σ} {p : Path} {s : σ} {a b : Bytes}
    (ha : fs.Reads p s a) (hb : fs.Reads p s b) : a = b :=
  Except.ok.inj (ha.symm.trans hb)

/-! ## Memory trees -/

namespace Memory

variable {m m' : Memory} {p : Path} {bytes : Bytes}

theorem run_contents (h : m.data? p.components = some bytes) :
    (fileSystem.contents p).run m = (.ok bytes, { m with opens := m.opens + 1 }) := by
  obtain ⟨f, hfile, rfl⟩ := Option.map_eq_some_iff.1 h
  have hopen : (fileSystem.openFile p).run m =
      (.ok fun _ => ByteStream.ofBytes f.data, { m with opens := m.opens + 1 }) := by
    simp [Action.run, fileSystem, hfile]
  unfold FileSystem.contents
  rw [run_bind_of_ok hopen, run_bind_of_ok (run_world _), run_ofExcept]
  simp [ByteStream.readAll, ByteStream.ofBytes, ByteStream.content, mapError_ok]

theorem reads_iff : fileSystem.Reads p m bytes ↔ m.data? p.components = some bytes := by
  unfold FileSystem.Reads
  cases hdata : m.data? p.components with
  | none =>
    have hfile : m.file? p.components = none := Option.map_eq_none_iff.1 hdata
    have hopen : (fileSystem.openFile p).run m = (.error (m.missing p), m) := by
      simp [Action.run, fileSystem, hfile]
    rw [FileSystem.contents, run_bind_of_error hopen]
    simp
  | some data => simp [run_contents hdata]

/-- An opened stream shows what the file held when it was opened. -/
theorem openFile_eq_ok {stream : Memory → ByteStream}
    (h : (fileSystem.openFile p).run m = (.ok stream, m')) :
    ∃ data, m.data? p.components = some data ∧ (stream = fun _ => ByteStream.ofBytes data) ∧
      Same m m' := by
  cases hfile : m.file? p.components with
  | none => simp [Action.run, fileSystem, hfile] at h
  | some f =>
    simp only [Action.run, fileSystem, hfile, Prod.mk.injEq, Except.ok.injEq] at h
    obtain ⟨rfl, rfl⟩ := h
    exact ⟨f.data, by rw [data?, hfile]; rfl, rfl, rfl, rfl⟩

/-- A created file is empty, and its writer fills it. -/
theorem fills_create {w : Writer Memory} (h : (fileSystem.create p).run m = (.ok w, m')) :
    (w.Fills fun data u => Puts p.components data m u) ∧ Puts p.components [] m m' := by
  simp only [Action.run, fileSystem] at h
  split at h
  · cases h
  · cases h
    refine ⟨⟨rfl, fun {data s} bytes hs => ?_⟩, puts_addFile m p []⟩
    have hold : s.data? p.components = some data := by rw [hs.data, if_pos rfl]
    obtain ⟨t, hrun, hdata, hdirs⟩ := run_append hold bytes
    exact ⟨t, hrun, hs.append hdata hdirs⟩

/-- Within a tree a copy is faithful, onto the source itself too. -/
theorem transfer_eq_ok {src dst : Path} {n : Nat}
    (h : (fileSystem.transfer src fileSystem dst).run m = (.ok n, m')) :
    ∃ bytes, fileSystem.Reads src m bytes ∧ fileSystem.Reads src m' bytes ∧
      fileSystem.Reads dst m' bytes := by
  obtain ⟨stream, u, w, v, hopen, hcreate, hwrite⟩ := FileSystem.transfer_eq_ok h
  obtain ⟨data, hdata, rfl, hsame⟩ := openFile_eq_ok hopen
  obtain ⟨hfills, hv⟩ := fills_create hcreate
  have hwritten := hfills.of_writeRefills hv hwrite
  rw [ByteStream.content_ofBytes] at hwritten
  refine ⟨data, reads_iff.2 hdata, reads_iff.2 ?_, reads_iff.2 ?_⟩
  · rw [hwritten.data, hsame.data?, hdata]
    exact ite_self _
  · rw [hwritten.data, if_pos rfl]

end Memory

/-! ## Disks -/

namespace Disk

variable {d d' : Disk} {p : Path} {place : List String} {id : Nat} {data : Bytes}

/-- Two paths lead to one place. -/
def Alias (p q : Path) (d : Disk) : Prop :=
  ∃ place node node', d.find p = .ok (place, node) ∧ d.find q = .ok (place, node')

/-- The disk has more directories than `d` and the same files. -/
structure Extends (d d' : Disk) : Prop where
  sound : d'.Sound
  grows : Grows d d'
  files : ∀ q i b, d'.node? q = some (.file i b) ↔ d.node? q = some (.file i b)

theorem sustains_extends_makeDir (d : Disk) (p : Path) : Sustains (Extends d) (makeDir p) := by
  refine sustains_of_state fun u hu => ?_
  rcases run_makeDir p u with ⟨e, hrun⟩ | ⟨parent, name, _, hnone, hrun⟩
  · rw [hrun]
    exact hu
  · have hplace : parent ++ [name] ≠ [] := List.concat_ne_nil _ _
    rw [hrun]
    refine ⟨hu.sound.put_dir hplace, hu.grows.trans (grows_insert hplace (fun _ => rfl) _), ?_⟩
    intro q i b
    rw [← hu.files, put, node?_insert hplace]
    split
    · next heq =>
      rw [heq, hnone]
      simp
    · rfl

/-- The disk `u` has come from `d` by opening a path for writing, which leads to a file that holds
the data now; no other file has changed. -/
structure Written (d : Disk) (p : Path) (place : List String) (id : Nat) (data : Bytes)
    (u : Disk) : Prop where
  sound : u.Sound
  grows : Grows d u
  leads : u.find p = .ok (place, .file id data)
  others : ∀ {q i b}, q ≠ place →
    (u.node? q = some (.file i b) ↔ d.node? q = some (.file i b))
  same : ∀ {i b}, d.node? place = some (.file i b) → i = id

theorem written_empties {u : Disk} (hu : Extends d u) (h : Empties u place id d')
    (hfind : d'.find p = .ok (place, .file id [])) : Written d p place id [] d' where
  sound := hu.sound.empties h
  grows := hu.grows.trans h.grows
  leads := hfind
  others {q i b} hq := by
    rw [h.node?, if_neg hq]
    exact hu.files q i b
  same {i b} hfile := by
    have hthere := (hu.files place i b).2 hfile
    cases h with
    | old hold =>
      rw [hold] at hthere
      cases hthere
      rfl
    | fresh _ hnone =>
      rw [hnone] at hthere
      cases hthere

theorem overwrite_length (data bytes : Bytes) :
    overwrite data data.length bytes = data ++ bytes := by
  simp [overwrite]

theorem Written.put {u : Disk} (h : Written d p place id data u) (bytes : Bytes) :
    Written d p place id bytes (u.put place (.file id bytes)) := by
  obtain ⟨hcheck, hwalk, hnode, hslash⟩ := find_eq_ok_iff.1 h.leads
  have hplace := ne_nil_of_file hnode
  have hput (q : List String) := @node?_insert u place (.file id bytes) hplace u.nextId q
  have hgrows : Grows u (u.put place (.file id bytes)) := by
    refine grows_insert hplace (fun hdir => ?_) _
    rw [isDirAt_iff, hnode] at hdir
    cases hdir
  refine ⟨h.sound.put_file hnode bytes, h.grows.trans hgrows, ?_, ?_, h.same⟩
  · refine find_eq_ok_iff.2 ⟨hcheck, hgrows.walk hwalk, ?_, fun hs => by cases hslash hs⟩
    rw [Disk.put, hput, if_pos rfl]
  · intro q i b hq
    rw [Disk.put, hput, if_neg hq]
    exact h.others hq

/-- What a path leads to besides what has been written is as it was. -/
theorem Written.find_of_ne {u : Disk} (h : Written d p place id data u) {q : Path}
    {other : List String} {i : Nat} {b : Bytes} (hfind : d.find q = .ok (other, .file i b))
    (hne : other ≠ place) : u.find q = .ok (other, .file i b) := by
  obtain ⟨hcheck, hwalk, hnode, hslash⟩ := find_eq_ok_iff.1 hfind
  exact find_eq_ok_iff.2 ⟨hcheck, h.grows.walk hwalk, (h.others hne).2 hnode, hslash⟩

theorem Written.find_of_eq {u : Disk} (h : Written d p place id data u) {q : Path} {i : Nat}
    {b : Bytes} (hfind : d.find q = .ok (place, .file i b)) :
    u.find q = .ok (place, .file id data) := by
  obtain ⟨hcheck, hwalk, _, hslash⟩ := find_eq_ok_iff.1 hfind
  obtain ⟨_, _, hnode, _⟩ := find_eq_ok_iff.1 h.leads
  exact find_eq_ok_iff.2 ⟨hcheck, h.grows.walk hwalk, hnode, fun hs => by cases hslash hs⟩

end Disk

namespace LocalStore

open Disk

variable (store : LocalStore) {d d' : Disk} {p : Path} {bytes : Bytes}

/-- An opened stream shows what the file holds when it is read. -/
theorem openFile_eq_ok {stream : Disk → ByteStream}
    (h : (store.fileSystem.openFile p).run d = (.ok stream, d')) :
    d' = d ∧ ∃ place id data, d.find (store.resolve p) = .ok (place, .file id data) ∧
      stream = fun u => ByteStream.ofBytes (((u.fileWithId? id).map (·.2)).getD data) := by
  obtain ⟨_, _, hworld, h⟩ := run_bind_eq_ok_iff.1 h
  cases hworld
  split at h
  · cases h
  · obtain ⟨⟨place, node⟩, u, hlook, h⟩ := run_bind_eq_ok_iff.1 h
    rw [run_mapError_eq_ok_iff] at hlook
    obtain ⟨hfind, rfl⟩ := Prod.mk.inj hlook
    cases node with
    | dir => cases h
    | file id data =>
      cases h
      exact ⟨rfl, place, id, data, hfind, rfl⟩

theorem run_openFile {place : List String} {id : Nat} {data : Bytes}
    (h : d.find (store.resolve p) = .ok (place, .file id data)) :
    (store.fileSystem.openFile p).run d =
      (.ok fun u => ByteStream.ofBytes (((u.fileWithId? id).map (·.2)).getD data), d) := by
  have hdir : d.isDir (store.resolve p) = false := by
    rw [isDir, h]
    rfl
  simp [Action.run, fileSystem, bind, Action.world, look, Action.mapError, pure, hdir, h]

theorem reads_of_find (hd : d.Sound) {place : List String} {id : Nat}
    (h : d.find (store.resolve p) = .ok (place, .file id bytes)) :
    store.fileSystem.Reads p d bytes := by
  have hfile := hd.fileWithId? (find_eq_ok_iff.1 h).2.2.1
  rw [FileSystem.Reads, FileSystem.contents, run_bind_of_ok (store.run_openFile h),
    run_bind_of_ok (run_world d), run_ofExcept]
  simp [ByteStream.readAll, ByteStream.ofBytes, ByteStream.content, mapError_ok, hfile]

theorem contents_eq_ok (hd : d.Sound)
    (h : (store.fileSystem.contents p).run d = (.ok bytes, d')) :
    d' = d ∧ ∃ place id, d.find (store.resolve p) = .ok (place, .file id bytes) := by
  obtain ⟨stream, u, hopen, hread⟩ := run_bind_eq_ok_iff.1 h
  obtain ⟨_, _, hworld, hread⟩ := run_bind_eq_ok_iff.1 hread
  cases hworld
  obtain ⟨rfl, place, id, data, hfind, _⟩ := store.openFile_eq_ok hopen
  obtain ⟨_, rfl⟩ := Prod.mk.inj hread
  have hreads : store.fileSystem.Reads p u bytes := congrArg Prod.fst h
  obtain rfl := (store.reads_of_find hd hfind).eq hreads
  exact ⟨rfl, place, id, hfind⟩

theorem reads_iff (hd : d.Sound) : store.fileSystem.Reads p d bytes ↔
    ∃ place id, d.find (store.resolve p) = .ok (place, .file id bytes) := by
  constructor
  · intro h
    exact (store.contents_eq_ok hd (Prod.ext h rfl)).2
  · rintro ⟨place, id, hfind⟩
    exact store.reads_of_find hd hfind

/-- A created file is empty, and its writer fills it. -/
theorem fills_create (hd : d.Sound) {w : Writer Disk}
    (h : (store.fileSystem.create p).run d = (.ok w, d')) :
    ∃ place id, w.Fills (Written d (store.resolve p) place id) ∧
      Written d (store.resolve p) place id [] d' := by
  obtain ⟨_, u, hparents, h⟩ := run_bind_eq_ok_iff.1 (run_mapError_eq_ok_iff.1 h)
  obtain ⟨id, v, hopen, h⟩ := run_bind_eq_ok_iff.1 h
  cases h
  have hextends := sustains_makeParents (sustains_extends_makeDir d) (store.resolve p) d
    ⟨hd, .refl d, fun _ _ _ => .rfl⟩
  rw [hparents] at hextends
  rcases run_openForWriting (store.resolve p) u with
    ⟨e, hrun⟩ | ⟨parent, name, id', v', _, hrun, hempties, hfind⟩
  · rw [hopen] at hrun
    cases hrun
  · rw [hopen] at hrun
    cases hrun
    refine ⟨parent ++ [name], id, ⟨rfl, ?_⟩, written_empties hextends.1 hempties hfind⟩
    intro data s bytes hs
    obtain ⟨_, _, hnode, _⟩ := find_eq_ok_iff.1 hs.leads
    have hwrite := hs.sound.run_writeAt hnode data.length bytes
    rw [overwrite_length] at hwrite
    exact ⟨_, hwrite, hs.put _⟩

/-- On a disk a copy is faithful as long as source and destination are different files. If the two
paths lead to one file, that file is empty afterwards. -/
theorem transfer_eq_ok (source target : LocalStore) (hd : d.Sound) {src dst : Path} {n : Nat}
    (h : (source.fileSystem.transfer src target.fileSystem dst).run d = (.ok n, d')) :
    ∃ bytes, source.fileSystem.Reads src d bytes ∧
      (Alias (source.resolve src) (target.resolve dst) d' →
        source.fileSystem.Reads src d' [] ∧ target.fileSystem.Reads dst d' []) ∧
      (¬ Alias (source.resolve src) (target.resolve dst) d' →
        source.fileSystem.Reads src d' bytes ∧ target.fileSystem.Reads dst d' bytes) := by
  obtain ⟨stream, u, w, v, hopen, hcreate, hwrite⟩ := FileSystem.transfer_eq_ok h
  obtain ⟨rfl, place, id, data, hfind, rfl⟩ := source.openFile_eq_ok hopen
  obtain ⟨place', id', hfills, hv⟩ := target.fills_create hd hcreate
  have hwritten := hfills.of_writeRefills hv hwrite
  have hnode := (find_eq_ok_iff.1 hfind).2.2.1
  refine ⟨data, source.reads_of_find hd hfind, ?_⟩
  by_cases hplace : place = place'
  · -- The stream shows the one file as creating the destination has left it.
    subst hplace
    obtain rfl := hv.same hnode
    have hshown := hv.sound.fileWithId? (find_eq_ok_iff.1 hv.leads).2.2.1
    simp only [hshown, Option.map_some, Option.getD_some, ByteStream.content_ofBytes] at hwritten
    have hsrc := hwritten.find_of_eq hfind
    refine ⟨fun _ => ?_, fun hne => absurd ⟨_, _, _, hsrc, hwritten.leads⟩ hne⟩
    exact ⟨source.reads_of_find hwritten.sound hsrc,
      target.reads_of_find hwritten.sound hwritten.leads⟩
  · have hopened := hv.find_of_ne hfind hplace
    have hshown := hv.sound.fileWithId? (find_eq_ok_iff.1 hopened).2.2.1
    simp only [hshown, Option.map_some, Option.getD_some, ByteStream.content_ofBytes] at hwritten
    have hsrc := hwritten.find_of_ne hfind hplace
    refine ⟨fun halias => ?_, fun _ => ?_⟩
    · obtain ⟨q, _, _, hq, hq'⟩ := halias
      rw [hsrc] at hq
      rw [hwritten.leads] at hq'
      cases hq
      cases hq'
      exact absurd rfl hplace
    · exact ⟨source.reads_of_find hwritten.sound hsrc,
        target.reads_of_find hwritten.sound hwritten.leads⟩

end LocalStore
end OffloadCheck
