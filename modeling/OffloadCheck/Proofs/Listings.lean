import OffloadCheck.Proofs.Comparison
import OffloadCheck.Proofs.Embedding
import OffloadCheck.Storage.Scripted

/-! # Listings in another order

A filesystem lists a directory in whatever order it likes, and a finished job may or may not have
left its empty marker. The comparison looks at a listing through two things only: the names of its
outputs in order, and its summed lengths. Both are the same for a listing in another order and with
more or fewer empty markers. Entries of one name come out of the stable sort in the order of the
listing, with their lengths and kinds, but nothing of them except the name is looked at. -/
namespace OffloadCheck

open OffloadCheck.Action

variable {σ : Type}

namespace Entry

/-- An entry under the marker's name that has no length. -/
structure IsEmptyMarker (e : Entry) : Prop where
  name : e.name = markerName
  length : e.length = 0

/-- One listing after another: the entries in another order, with empty markers added and left out
any number of times. -/
inductive Relisted : List Entry → List Entry → Prop
  | reordered {xs ys : List Entry} : xs.Perm ys → Relisted xs ys
  | marked {e : Entry} (xs : List Entry) : e.IsEmptyMarker → Relisted xs (e :: xs)
  | unmarked {e : Entry} (xs : List Entry) : e.IsEmptyMarker → Relisted (e :: xs) xs
  | trans {xs ys zs : List Entry} : Relisted xs ys → Relisted ys zs → Relisted xs zs

variable {e : Entry} {xs ys : List Entry}

theorem IsEmptyMarker.outputNames_cons (h : e.IsEmptyMarker) (xs : List Entry) :
    ((e :: xs).map (·.name)).filter (· != markerName) =
      (xs.map (·.name)).filter (· != markerName) := by
  rw [List.map_cons, h.name, List.filter_cons_of_neg (by simp)]

theorem IsEmptyMarker.total_cons (h : e.IsEmptyMarker) (xs : List Entry) :
    total (e :: xs) = total xs := by
  rw [Entry.total_cons, h.length, Nat.zero_add]

theorem total_eq_of_perm (h : xs.Perm ys) : total xs = total ys :=
  (h.map Entry.length).sum_nat

/-- The names that take part are the same, up to their order in the listing. -/
theorem Relisted.names_perm (h : Relisted xs ys) :
    ((ys.map (·.name)).filter (· != markerName)).Perm
      ((xs.map (·.name)).filter (· != markerName)) := by
  induction h with
  | reordered hperm => exact ((hperm.map (·.name)).filter _).symm
  | marked xs hmarker => rw [hmarker.outputNames_cons]
  | unmarked xs hmarker => rw [hmarker.outputNames_cons]
  | trans _ _ ih ih' => exact ih'.trans ih

theorem Relisted.total_eq (h : Relisted xs ys) : total ys = total xs := by
  induction h with
  | reordered hperm => exact (total_eq_of_perm hperm).symm
  | marked xs hmarker => exact hmarker.total_cons xs
  | unmarked xs hmarker => exact (hmarker.total_cons xs).symm
  | trans _ _ ih ih' => exact ih'.trans ih

end Entry

/-! ## Manifests -/

namespace Manifest

/-- What a comparison looks at is the same in two manifests. -/
structure Alike (m m' : Manifest) : Prop where
  names : m'.names = m.names
  totalLength : m'.totalLength = m.totalLength

variable {m m' n n' : Manifest}

theorem alike_ofListing {xs ys : List Entry} (h : Entry.Relisted xs ys) :
    Alike (ofListing xs) (ofListing ys) where
  names := by
    -- Names in order that are the same up to their order are the same.
    have hys := outputNames_names ys
    have hnames : Entry.OutputNames xs (ofListing ys).names :=
      ⟨hys.ordered, hys.perm.trans h.names_perm⟩
    exact hnames.eq (outputNames_names xs)
  totalLength := h.total_eq

theorem Alike.size (h : Alike m m') : m'.size = m.size := by
  rw [size_eq, size_eq, h.names]

theorem Alike.shapeMismatch? (hm : Alike m m') (hn : Alike n n') :
    m'.shapeMismatch? n' = m.shapeMismatch? n := by
  simp only [Manifest.shapeMismatch?, firstNameDifference_eq, nameAt_eq, hm.size, hn.size, hm.names,
    hn.names]

end Manifest

/-! ## Comparisons -/

namespace FileSystem

variable {fs fs' : FileSystem σ}

theorem compareFiles_congr (h : fs'.openFile = fs.openFile) (r c : Path) (index : Nat)
    (names : List String) : fs'.compareFiles r c index names = fs.compareFiles r c index names := by
  induction names generalizing index with
  | nil => rfl
  | cons name names ih => simp only [compareFiles, h, ih]

/-- Once the directories are listed, what follows is settled by what manifests have in common. -/
theorem settle_congr (h : fs'.openFile = fs.openFile) (r c : Path) {m m' n n' : Manifest}
    (hm : m.Alike m') (hn : n.Alike n') : fs'.settle r c m' n' = fs.settle r c m n := by
  unfold settle
  rw [hm.shapeMismatch? hn, hm.names, hm.size, hm.totalLength, hn.totalLength,
    compareFiles_congr h]

theorem follows_manifest {dir : Path}
    (h : Action.Follows id Entry.Relisted (fs.list dir) (fs'.list dir)) :
    Action.Follows id Manifest.Alike (fs.manifest dir) (fs'.manifest dir) :=
  h.bind fun _ _ hlisting => follows_pure (Manifest.alike_ofListing hlisting)

/-- A comparison does not depend on the order in which directories are listed, nor on empty markers
in them: with the listings of the two directories exchanged for others of that kind, and the same
files, it ends the same way, whether in a verdict or in an error, and in the same world. -/
theorem compare_eq_of_relisted {reference candidate : Option Path}
    (hopen : fs'.openFile = fs.openFile)
    (hlist : ∀ dir, dir ∈ reference ∨ dir ∈ candidate →
      Action.Follows id Entry.Relisted (fs.list dir) (fs'.list dir)) :
    fs'.compare reference candidate = fs.compare reference candidate := by
  cases reference with
  | none => cases candidate <;> rfl
  | some r =>
    cases candidate with
    | none => rfl
    | some c =>
      have hdirs : Action.Follows id Eq (fs.compareDirs r c) (fs'.compareDirs r c) := by
        refine (follows_manifest (hlist r (.inl rfl))).bind fun m m' hm => ?_
        refine (follows_manifest (hlist c (.inr rfl))).bind fun n n' hn => ?_
        have hsettle := settle_congr hopen r c hm hn
        exact follows_of_run_eq fun s => congrArg (Action.run · s) hsettle
      funext s
      exact hdirs.run_eq s

/-- Two outputs, the first of which holds a file and a directory of one name. -/
def twins : Script where
  listings := [("/r", [.file "b" 2, .dir "b", .file "a" 1]), ("/c", [.file "a" 1, .file "b" 3])]
  files := [("/r/a", ⟨[7], 1, none⟩), ("/r/b", ⟨[8, 9], 1, none⟩), ("/c/a", ⟨[7], 1, none⟩)]

/-- The same outputs as they might be listed another time, with markers of both kinds. -/
def twinsRelisted : Script :=
  { twins with listings :=
      [("/r", [.file "_SUCCESS" 0, .dir "b", .file "a" 1, .file "b" 2]),
        ("/c", [.dir "_SUCCESS", .file "b" 3, .file "a" 1])] }

theorem compare_twins_relisted :
    (∀ dir, dir = Path.mk "/r" ∨ dir = Path.mk "/c" → Action.Follows id Entry.Relisted
      (twins.fileSystem.list dir : Action Unit StorageError _)
      (twinsRelisted.fileSystem.list dir)) ∧
    (twinsRelisted.fileSystem.compare (some ⟨"/r"⟩) (some ⟨"/c"⟩) : Action Unit StorageError _) =
      twins.fileSystem.compare (some ⟨"/r"⟩) (some ⟨"/c"⟩) := by
  have hreference : Entry.Relisted [.file "b" 2, .dir "b", .file "a" 1]
      [.file "_SUCCESS" 0, .dir "b", .file "a" 1, .file "b" 2] :=
    .trans (.reordered (by decide)) (.marked _ ⟨rfl, rfl⟩)
  have hcandidate : Entry.Relisted [.file "a" 1, .file "b" 3]
      [.dir "_SUCCESS", .file "b" 3, .file "a" 1] :=
    .trans (.reordered (by decide)) (.marked _ ⟨rfl, rfl⟩)
  have hlist (dir : Path) (h : dir = ⟨"/r"⟩ ∨ dir = ⟨"/c"⟩) : Action.Follows id Entry.Relisted
      (twins.fileSystem.list dir : Action Unit StorageError _)
      (twinsRelisted.fileSystem.list dir) := by
    rcases h with rfl | rfl
    · exact fun _ => .ok hreference
    · exact fun _ => .ok hcandidate
  refine ⟨hlist, compare_eq_of_relisted rfl fun dir hdir => hlist dir ?_⟩
  exact hdir.imp (fun h => (Option.some.inj h).symm) fun h => (Option.some.inj h).symm

end FileSystem
end OffloadCheck
