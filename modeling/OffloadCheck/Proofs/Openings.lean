import OffloadCheck.Proofs.Outputs
import OffloadCheck.Proofs.Writers

/-! # What a comparison opens

On a memory tree a comparison leaves everything but the count of opened files as it was, and it opens
no more than it needs: nothing before the shapes of the outputs are settled, then the two files of a
pair after each other, and nothing behind the pair that settles the result. -/
namespace OffloadCheck

open OffloadCheck.Action

theorem Manifest.names_eq_of_shape {m n : Manifest} (h : m.shapeMismatch? n = none) :
    m.names = n.names := by
  by_cases hlen : m.names.length = n.names.length
  · obtain ⟨before, as, bs, hm, hn, hend⟩ := exists_common_start m.names n.names
    rw [hm, hn, List.length_append, List.length_append, Nat.add_left_cancel_iff] at hlen
    rcases hend with rfl | rfl | ⟨x, y, as, bs, rfl, rfl, hxy⟩
    · obtain rfl := List.eq_nil_of_length_eq_zero hlen.symm
      rw [hm, hn]
    · obtain rfl := List.eq_nil_of_length_eq_zero hlen
      rw [hm, hn]
    · rw [shapeMismatch?_of_name hm hn (by simpa using hlen) hxy] at h
      cases h
  · rw [shapeMismatch?_of_count hlen] at h
    cases h

namespace Memory

/-- The tree after so many more files have been opened. -/
def opened (m : Memory) (n : Nat) : Memory := { m with opens := m.opens + n }

theorem opened_opened (m : Memory) (n k : Nat) : (m.opened n).opened k = m.opened (n + k) := by
  rw [opened, opened, opened, Nat.add_assoc]

/-- Both outputs hold a file of the name, and these have the same bytes. -/
def Identical (m : Memory) (r c : Path) (name : String) : Prop :=
  ∃ bytes, m.read? (r.join name) = some bytes ∧ m.read? (c.join name) = some bytes

/-- Both directories can be listed, and the names to compare are the same. -/
def Paired (m : Memory) (r c : Path) (names : List String) : Prop :=
  ∃ rs cs, m.answers.Listed r c rs cs names names

/-- What a comparison comes to and how many files it has opened until then. -/
inductive Looks (m : Memory) :
    Option Path → Option Path → Except StorageError Verdict → Nat → Prop
  | noOutput : Looks m none none (.ok .noOutput) 0
  | shape (reference candidate : Option Path) (mismatch : ShapeMismatch) :
      Looks m reference candidate (.ok (.fail (.shape mismatch))) 0
  | unlistedReference {r c : Path} {e : StorageError} :
      m.list r = .error e → Looks m (some r) (some c) (.error e) 0
  | unlistedCandidate {r c : Path} {rs : List Entry} {e : StorageError} :
      m.list r = .ok rs → m.list c = .error e → Looks m (some r) (some c) (.error e) 0
  | unopenedReference {r c : Path} {before after : List String} {name : String} :
      m.Paired r c (before ++ name :: after) → (∀ n ∈ before, m.Identical r c n) →
      m.read? (r.join name) = none →
      Looks m (some r) (some c) (.error (m.missing (r.join name))) (2 * before.length)
  | unopenedCandidate {r c : Path} {before after : List String} {name : String} {as : Bytes} :
      m.Paired r c (before ++ name :: after) → (∀ n ∈ before, m.Identical r c n) →
      m.read? (r.join name) = some as → m.read? (c.join name) = none →
      Looks m (some r) (some c) (.error (m.missing (c.join name))) (2 * before.length + 1)
  | content {r c : Path} {before after : List String} {name : String} {as bs : Bytes}
      {offset : Nat} {divergence : Divergence} :
      m.Paired r c (before ++ name :: after) → (∀ n ∈ before, m.Identical r c n) →
      m.read? (r.join name) = some as → m.read? (c.join name) = some bs → as ≠ bs →
      Looks m (some r) (some c) (.ok (.fail (.content before.length name offset divergence)))
        (2 * (before.length + 1))
  | aggregate {r c : Path} {names : List String} {a b : Nat} :
      m.Paired r c names → (∀ n ∈ names, m.Identical r c n) →
      Looks m (some r) (some c) (.ok (.fail (.aggregate a b))) (2 * names.length)
  | pass {r c : Path} {names : List String} {bytes : Nat} :
      m.Paired r c names → (∀ n ∈ names, m.Identical r c n) →
      Looks m (some r) (some c) (.ok (.pass names.length bytes)) (2 * names.length)

variable {m : Memory} {r c : Path} {name : String} {before : List String}

/-! ## One pair -/

theorem run_openFile_of_read {p : Path} {data : Bytes} (h : m.read? p = some data) :
    (fileSystem.openFile p).run m = (.ok fun _ => ByteStream.ofBytes data, m.opened 1) :=
  Shared.run_openFile_of_file h

theorem run_openFile_of_unread {p : Path} (h : m.read? p = none) :
    (fileSystem.openFile p).run m = (.error (m.missing p), m) :=
  Shared.run_openFile_of_missing h

variable {as bs : Bytes}

/-- Both files of a pair are opened before they are compared. -/
theorem run_compareFiles_cons (hr : m.read? (r.join name) = some as)
    (hc : m.read? (c.join name) = some bs) (i : Nat) (names : List String) :
    (fileSystem.compareFiles r c i (name :: names)).run m =
      match (ByteStream.ofBytes as).firstDivergence (ByteStream.ofBytes bs) with
      | .error f => (.error (.io f), m.opened 2)
      | .ok (some d) => (.ok (some (.content i name d.offset d.divergence)), m.opened 2)
      | .ok none => (fileSystem.compareFiles r c (i + 1) names).run (m.opened 2) := by
  rw [FileSystem.compareFiles, run_bind_of_ok (run_openFile_of_read hr),
    run_bind_of_ok (run_openFile_of_read (m := m.opened 1) hc), opened_opened,
    run_bind_of_ok (run_world (m.opened 2))]
  cases hd : (ByteStream.ofBytes as).firstDivergence (ByteStream.ofBytes bs) with
  | error f => exact run_bind_of_error rfl
  | ok d => cases d <;> exact run_bind_of_ok rfl

theorem run_compareFiles_of_identical (h : m.Identical r c name) (i : Nat)
    (names : List String) : (fileSystem.compareFiles r c i (name :: names)).run m =
      (fileSystem.compareFiles r c (i + 1) names).run (m.opened 2) := by
  obtain ⟨bytes, hr, hc⟩ := h
  rw [run_compareFiles_cons hr hc, ByteStream.firstDivergence_of_matches ⟨rfl, rfl, rfl⟩]

/-- Files of different bytes diverge, since the data of a tree can be read to its end. -/
theorem run_compareFiles_of_ne (hr : m.read? (r.join name) = some as)
    (hc : m.read? (c.join name) = some bs) (hne : as ≠ bs) (i : Nat) (names : List String) :
    ∃ offset divergence, (fileSystem.compareFiles r c i (name :: names)).run m =
      (.ok (some (.content i name offset divergence)), m.opened 2) := by
  rw [run_compareFiles_cons hr hc]
  rcases (ByteStream.ofBytes as).matches_or_diverges_or_fails (ByteStream.ofBytes bs) with
    h | ⟨d, h⟩ | ⟨f, h⟩
  · have hcontent := h.content
    rw [ByteStream.content_ofBytes, ByteStream.content_ofBytes] at hcontent
    exact absurd hcontent hne
  · rw [ByteStream.firstDivergence_of_divergesAt h]
    exact ⟨d.offset, d.divergence, rfl⟩
  · cases h with
    | reference _ hf => cases hf
    | candidate _ hf _ => cases hf

/-! ## All pairs -/

/-- Identical pairs are passed over, two opened files for each. -/
theorem run_compareFiles_append (h : ∀ n ∈ before, m.Identical r c n) (i : Nat)
    (rest : List String) : (fileSystem.compareFiles r c i (before ++ rest)).run m =
      (fileSystem.compareFiles r c (i + before.length) rest).run
        (m.opened (2 * before.length)) := by
  induction before generalizing m i with
  | nil => rfl
  | cons name before ih =>
    obtain ⟨hname, hbefore⟩ := List.forall_mem_cons.1 h
    rw [List.cons_append, run_compareFiles_of_identical hname, ih (m := m.opened 2) hbefore,
      opened_opened, List.length_cons]
    have hindex : i + 1 + before.length = i + (before.length + 1) := by omega
    have hcount : 2 + 2 * before.length = 2 * (before.length + 1) := by omega
    rw [hindex, hcount]

/-- The comparison of files goes on to the first pair that is not identical. -/
theorem run_settle {M N : Manifest} (hpaired : m.Paired r c M.names)
    (hshape : M.shapeMismatch? N = none) :
    ∃ result n, (fileSystem.settle r c M N).run m = (result, m.opened n) ∧
      m.Looks (some r) (some c) result n := by
  rw [FileSystem.settle, hshape]
  rcases forall_or_exists_first (m.Identical r c) M.names with
    hall | ⟨before, name, after, hsplit, hbefore, hname⟩
  · have hfiles := run_compareFiles_append hall 0 []
    rw [List.append_nil] at hfiles
    rw [run_bind_of_ok hfiles]
    by_cases htotal : M.totalLength = N.totalLength
    · refine ⟨_, _, by rw [if_neg (not_not.2 htotal)]; rfl, ?_⟩
      rw [M.size_eq]
      exact .pass hpaired hall
    · exact ⟨_, _, by rw [if_pos htotal]; rfl, .aggregate hpaired hall⟩
  · rw [hsplit] at hpaired ⊢
    have hfiles := run_compareFiles_append hbefore 0 (name :: after)
    rw [Nat.zero_add] at hfiles
    cases hr : m.read? (r.join name) with
    | none =>
      have hopen := run_openFile_of_unread (m := m.opened (2 * before.length)) hr
      exact ⟨_, _, run_bind_of_error (hfiles.trans (run_bind_of_error hopen)),
        .unopenedReference hpaired hbefore hr⟩
    | some as =>
      have hopen := run_openFile_of_read (m := m.opened (2 * before.length)) hr
      cases hc : m.read? (c.join name) with
      | none =>
        have hrefused := run_openFile_of_unread
          (m := (m.opened (2 * before.length)).opened 1) hc
        rw [opened_opened] at hrefused
        refine ⟨_, _, run_bind_of_error (hfiles.trans ?_), .unopenedCandidate hpaired hbefore hr hc⟩
        rw [FileSystem.compareFiles, run_bind_of_ok hopen, opened_opened]
        exact run_bind_of_error hrefused
      | some bs =>
        have hne : as ≠ bs := by
          rintro rfl
          exact hname ⟨as, hr, hc⟩
        obtain ⟨offset, divergence, hpair⟩ :=
          run_compareFiles_of_ne (m := m.opened (2 * before.length)) hr hc hne before.length after
        rw [opened_opened] at hpair
        exact ⟨_, _, run_bind_of_ok (hfiles.trans hpair),
          .content hpaired hbefore hr hc hne⟩

theorem run_manifest_of_ok {p : Path} {listing : List Entry} (h : m.list p = .ok listing) :
    (fileSystem.manifest p).run m = (.ok (Manifest.ofListing listing), m) := by
  have hlist : (fileSystem.list p).run m = (.ok listing, m) := by
    rw [← h]
    rfl
  exact run_bind_of_ok hlist

theorem run_manifest_of_error {p : Path} {e : StorageError} (h : m.list p = .error e) :
    (fileSystem.manifest p).run m = (.error e, m) := by
  have hlist : (fileSystem.list p).run m = (.error e, m) := by
    rw [← h]
    rfl
  exact run_bind_of_error hlist

theorem run_compareDirs (m : Memory) (r c : Path) :
    ∃ result n, (fileSystem.compareDirs r c).run m = (result, m.opened n) ∧
      m.Looks (some r) (some c) result n := by
  cases hr : m.list r with
  | error e => exact ⟨_, 0, run_bind_of_error (run_manifest_of_error hr), .unlistedReference hr⟩
  | ok rs =>
    cases hc : m.list c with
    | error e =>
      refine ⟨_, 0, ?_, .unlistedCandidate hr hc⟩
      rw [FileSystem.compareDirs, run_bind_of_ok (run_manifest_of_ok hr)]
      exact run_bind_of_error (run_manifest_of_error hc)
    | ok cs =>
      rw [FileSystem.compareDirs, run_bind_of_ok (run_manifest_of_ok hr),
        run_bind_of_ok (run_manifest_of_ok hc)]
      cases hshape : (Manifest.ofListing rs).shapeMismatch? (Manifest.ofListing cs) with
      | some mismatch => exact ⟨_, 0, rfl, .shape _ _ mismatch⟩
      | none =>
        have hnames := Manifest.outputNames_names cs
        rw [← Manifest.names_eq_of_shape hshape] at hnames
        have hpaired : m.Paired r c (Manifest.ofListing rs).names :=
          ⟨rs, cs, hr, hc, Manifest.outputNames_names rs, hnames⟩
        obtain ⟨result, n, hrun, hlooks⟩ := run_settle hpaired hshape
        rw [FileSystem.settle, hshape] at hrun
        exact ⟨result, n, hrun, hlooks⟩

/-- A comparison only looks, and no further than it needs. It changes no file and no directory, and
opens no file for a verdict on the shape of the outputs, both files of each pair up to the one that
diverges, and all files for a verdict on the whole. When it fails, either a directory could not be
listed and no file was opened, or a file of some pair could not be opened, and those opened before
belong to this pair or to identical pairs before it. -/
theorem compare_only_looks (m : Memory) (reference candidate : Option Path) :
    ∃ result n, (fileSystem.compare reference candidate).run m = (result, m.opened n) ∧
      m.Looks reference candidate result n := by
  cases reference with
  | none =>
    cases candidate with
    | none => exact ⟨_, 0, rfl, .noOutput⟩
    | some c => exact ⟨_, 0, rfl, .shape _ _ _⟩
  | some r =>
    cases candidate with
    | none => exact ⟨_, 0, rfl, .shape _ _ _⟩
    | some c => exact run_compareDirs m r c

end Memory
end OffloadCheck
