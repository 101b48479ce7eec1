import OffloadCheck.Comparison
import OffloadCheck.Proofs.Streams

/-! # What a comparison of two outputs finds

A filesystem is looked at through its answers: one listing for each directory and one stream for
each file, whatever else it does to its world. `Finding` says in the words of these answers what a
comparison comes to. The rules exclude each other by what they ask for, they leave no case out
(`exists_finding`), and the comparison follows them (`compare_of_finding`); together they determine
its result. -/

-- What is assumed of names is assumed together, also where a lemma needs less.
set_option linter.unusedSectionVars false

namespace OffloadCheck

variable {σ : Type}

/-! ## Names in order -/

/-- The names of a listing that take part in a comparison, in order: all but the marker's. -/
structure Entry.OutputNames (listing : List Entry) (names : List String) : Prop where
  ordered : names.Pairwise (· ≤ ·)
  perm : names.Perm ((listing.map (·.name)).filter (· != Entry.markerName))

theorem Entry.OutputNames.eq {listing : List Entry} {xs ys : List String}
    (hx : OutputNames listing xs) (hy : OutputNames listing ys) : xs = ys :=
  (hx.perm.trans hy.perm.symm).eq_of_pairwise (fun _ _ _ _ => String.le_antisymm)
    hx.ordered hy.ordered

/-- The summed lengths of a listing. -/
def Entry.total (listing : List Entry) : Nat := (listing.map (·.length)).foldr (· + ·) 0

theorem Entry.total_cons (e : Entry) (listing : List Entry) :
    total (e :: listing) = e.length + total listing := rfl

namespace Manifest

/-- The names of the files that take part. -/
def names (m : Manifest) : List String := m.entries.map (·.name)

theorem isLE_compare_iff (a b : String) : (compare a b).isLE = true ↔ a ≤ b :=
  isLE_compareOfLessAndEq String.le_antisymm String.not_le String.le_total

theorem isLE_compare_total (a b : Entry) :
    ((compare a.name b.name).isLE || (compare b.name a.name).isLE) = true := by
  have h := String.le_total a.name b.name
  simpa only [Bool.or_eq_true, isLE_compare_iff] using h

theorem pairwise_byName (entries : List Entry) :
    (byName entries).Pairwise fun a b => a.name ≤ b.name := by
  have hsort : (byName entries).Pairwise fun a b => (compare a.name b.name).isLE = true :=
    List.pairwise_mergeSort (fun _ _ _ => Std.TransCmp.isLE_trans) isLE_compare_total _
  exact hsort.imp fun h => (isLE_compare_iff _ _).1 h

theorem byName_perm (entries : List Entry) : (byName entries).Perm entries :=
  List.mergeSort_perm entries _

theorem outputNames_names (listing : List Entry) :
    Entry.OutputNames listing (ofListing listing).names := by
  constructor
  · rw [names, List.pairwise_map]
    exact pairwise_byName _
  · have hp := (byName_perm (listing.filter fun e => !Entry.isMarkerName e.name)).map (·.name)
    rw [List.filter_map]
    exact hp

theorem size_eq (m : Manifest) : m.size = m.names.length := by simp [size, names]

theorem firstNameDifference_eq (m n : Manifest) :
    m.firstNameDifference n = firstDifference m.names n.names := rfl

theorem nameAt_eq (m : Manifest) (i : Nat) : shapeMismatch?.nameAt m i = m.names[i]?.getD "" := by
  simp [shapeMismatch?.nameAt, names]

variable {α : Type} [DecidableEq α]

theorem firstDifference_self (xs : List α) : firstDifference xs xs = none := by
  induction xs with
  | nil => rfl
  | cons x xs ih => simp [firstDifference, ih]

theorem firstDifference_append (before as bs : List α) {x y : α} (h : x ≠ y) :
    firstDifference (before ++ x :: as) (before ++ y :: bs) = some before.length := by
  induction before with
  | nil => simp [firstDifference, h]
  | cons b before ih => simp [firstDifference, ih]

theorem shapeMismatch?_of_count {m n : Manifest} (h : m.names.length ≠ n.names.length) :
    m.shapeMismatch? n = some (.fileCount m.names.length n.names.length) := by
  simp [shapeMismatch?, size_eq, h]

theorem shapeMismatch?_of_name {m n : Manifest} {before as bs : List String} {x y : String}
    (hm : m.names = before ++ x :: as) (hn : n.names = before ++ y :: bs)
    (hlen : as.length = bs.length) (hxy : x ≠ y) :
    m.shapeMismatch? n = some (.fileName before.length x y) := by
  have hd : m.firstNameDifference n = some before.length := by
    rw [firstNameDifference_eq, hm, hn, firstDifference_append before as bs hxy]
  simp [shapeMismatch?, size_eq, nameAt_eq, hd, hm, hn, hlen]

theorem shapeMismatch?_of_eq {m n : Manifest} (h : m.names = n.names) :
    m.shapeMismatch? n = none := by
  have hd : m.firstNameDifference n = none := by
    rw [firstNameDifference_eq, h, firstDifference_self]
  simp [shapeMismatch?, size_eq, hd, h]

end Manifest

/-! ## Answers of a filesystem -/

variable {ν : Type}

/-- What a filesystem says of its directories and files. -/
structure Answers (ν : Type := String) where
  list : Path ν → Except (StorageError ν) (List Entry)
  stream : Path ν → Except (StorageError ν) ByteStream

/-- In each of the given worlds the filesystem gives these answers, and it stays in one of them. -/
structure FileSystem.Shows (fs : FileSystem σ ν) (worlds : σ → Prop) (v : Answers ν) : Prop where
  list : ∀ {s}, worlds s → ∀ p, ∃ t, (fs.list p).run s = (v.list p, t) ∧ worlds t
  opened : ∀ {s}, worlds s → ∀ {p b}, v.stream p = .ok b →
    ∃ f t, (fs.openFile p).run s = (.ok f, t) ∧ worlds t ∧ ∀ u, worlds u → f u = b
  refused : ∀ {s}, worlds s → ∀ {p e}, v.stream p = .error e →
    ∃ t, (fs.openFile p).run s = (.error e, t) ∧ worlds t

variable [PathText ν]

namespace Answers

variable (v : Answers ν) (reference candidate : Path ν)

/-- The files of one name match. -/
def PairMatches (name : String) : Prop :=
  ∃ a b, v.stream (reference.join name) = .ok a ∧ v.stream (candidate.join name) = .ok b ∧
    a.Matches b

/-- The files of one name diverge. -/
def PairDiverges (name : String) (d : DivergenceAt) : Prop :=
  ∃ a b, v.stream (reference.join name) = .ok a ∧ v.stream (candidate.join name) = .ok b ∧
    a.DivergesAt b d

/-- The files of one name cannot be compared: one of them does not open, the reference being opened
first, or reading fails before they diverge. -/
inductive PairFails (name : String) : StorageError ν → Prop
  | reference {e : StorageError ν} :
      v.stream (reference.join name) = .error e → PairFails name e
  | candidate {a : ByteStream} {e : StorageError ν} :
      v.stream (reference.join name) = .ok a → v.stream (candidate.join name) = .error e →
      PairFails name e
  | reading {a b : ByteStream} {f : IoFailure} :
      v.stream (reference.join name) = .ok a → v.stream (candidate.join name) = .ok b →
      a.FailsWith b f → PairFails name (.io f)

/-- Both directories can be listed; the listings and the names to compare. -/
structure Listed (rs cs : List Entry) (xs ys : List String) : Prop where
  reference : v.list reference = .ok rs
  candidate : v.list candidate = .ok cs
  referenceNames : Entry.OutputNames rs xs
  candidateNames : Entry.OutputNames cs ys

/-- What the comparison of two outputs comes to. -/
inductive Finding : Option (Path ν) → Option (Path ν) → Except (StorageError ν) Verdict → Prop
  | noOutput : Finding none none (.ok .noOutput)
  | referenceOnly (r : Path ν) :
      Finding (some r) none (.ok (.fail (.shape (.outputPresence true false))))
  | candidateOnly (c : Path ν) :
      Finding none (some c) (.ok (.fail (.shape (.outputPresence false true))))
  | referenceUnlisted {r c : Path ν} {e : StorageError ν} :
      v.list r = .error e → Finding (some r) (some c) (.error e)
  | candidateUnlisted {r c : Path ν} {rs : List Entry} {e : StorageError ν} :
      v.list r = .ok rs → v.list c = .error e → Finding (some r) (some c) (.error e)
  | fileCount {r c : Path ν} {rs cs : List Entry} {xs ys : List String} :
      v.Listed r c rs cs xs ys → xs.length ≠ ys.length →
      Finding (some r) (some c) (.ok (.fail (.shape (.fileCount xs.length ys.length))))
  | fileName {r c : Path ν} {rs cs : List Entry} {before as bs : List String} {x y : String} :
      v.Listed r c rs cs (before ++ x :: as) (before ++ y :: bs) → as.length = bs.length → x ≠ y →
      Finding (some r) (some c) (.ok (.fail (.shape (.fileName before.length x y))))
  | unreadable {r c : Path ν} {rs cs : List Entry} {before after : List String} {name : String}
      {e : StorageError ν} :
      v.Listed r c rs cs (before ++ name :: after) (before ++ name :: after) →
      (∀ n ∈ before, v.PairMatches r c n) → v.PairFails r c name e →
      Finding (some r) (some c) (.error e)
  | content {r c : Path ν} {rs cs : List Entry} {before after : List String} {name : String}
      {d : DivergenceAt} :
      v.Listed r c rs cs (before ++ name :: after) (before ++ name :: after) →
      (∀ n ∈ before, v.PairMatches r c n) → v.PairDiverges r c name d →
      Finding (some r) (some c)
        (.ok (.fail (.content before.length name d.offset d.divergence)))
  | aggregate {r c : Path ν} {rs cs : List Entry} {xs : List String} :
      v.Listed r c rs cs xs xs → (∀ n ∈ xs, v.PairMatches r c n) →
      Entry.total rs ≠ Entry.total cs →
      Finding (some r) (some c) (.ok (.fail (.aggregate (Entry.total rs) (Entry.total cs))))
  | pass {r c : Path ν} {rs cs : List Entry} {xs : List String} :
      v.Listed r c rs cs xs xs → (∀ n ∈ xs, v.PairMatches r c n) →
      Entry.total rs = Entry.total cs →
      Finding (some r) (some c) (.ok (.pass xs.length (Entry.total rs)))

end Answers

/-! ## The comparison follows the rules -/

namespace FileSystem

variable {fs : FileSystem σ ν} {worlds : σ → Prop} {v : Answers ν} {r c : Path ν} {s : σ}

/-- A pair of streams decides how the comparison of files goes on. -/
theorem Shows.run_compareFiles_cons (h : fs.Shows worlds v) (hs : worlds s) {name : String}
    {a b : ByteStream} (ha : v.stream (r.join name) = .ok a) (hb : v.stream (c.join name) = .ok b)
    (i : Nat) (names : List String) :
    ∃ t, worlds t ∧ (fs.compareFiles r c i (name :: names)).run s =
      match a.firstDivergence b with
      | .error f => (.error (.io f), t)
      | .ok (some d) => (.ok (some (.content i name d.offset d.divergence)), t)
      | .ok none => (fs.compareFiles r c (i + 1) names).run t := by
  obtain ⟨f, t, hf, ht, hfa⟩ := h.opened hs ha
  obtain ⟨g, u, hg, hu, hgb⟩ := h.opened ht hb
  refine ⟨u, hu, ?_⟩
  rw [compareFiles, Action.run_bind_of_ok hf, Action.run_bind_of_ok hg,
    Action.run_bind_of_ok (Action.run_world u), hfa u hu, hgb u hu]
  cases hd : a.firstDivergence b with
  | error e => exact Action.run_bind_of_error rfl
  | ok d => cases d <;> exact Action.run_bind_of_ok rfl

/-- Pairs that match are passed over. -/
theorem Shows.run_compareFiles_append (h : fs.Shows worlds v) (hs : worlds s)
    {before : List String} (hb : ∀ n ∈ before, v.PairMatches r c n) (i : Nat)
    (rest : List String) :
    ∃ t, worlds t ∧ (fs.compareFiles r c i (before ++ rest)).run s =
      (fs.compareFiles r c (i + before.length) rest).run t := by
  induction before generalizing i s with
  | nil => exact ⟨s, hs, rfl⟩
  | cons name before ih =>
    obtain ⟨a, b, ha, hb', hab⟩ := hb name List.mem_cons_self
    obtain ⟨t, ht, hrun⟩ := h.run_compareFiles_cons hs ha hb' i (before ++ rest)
    rw [ByteStream.firstDivergence_of_matches hab] at hrun
    obtain ⟨u, hu, hrest⟩ := ih ht (fun n hn => hb n (List.mem_cons_of_mem _ hn)) (i + 1)
    refine ⟨u, hu, ?_⟩
    rw [List.cons_append, hrun, hrest, List.length_cons, Nat.add_assoc, Nat.add_comm 1]

theorem Shows.compareFiles_of_matches (h : fs.Shows worlds v) (hs : worlds s)
    {names : List String} (hn : ∀ n ∈ names, v.PairMatches r c n) (i : Nat) :
    ∃ t, worlds t ∧ (fs.compareFiles r c i names).run s = (.ok none, t) := by
  obtain ⟨t, ht, hrun⟩ := h.run_compareFiles_append hs hn i []
  rw [List.append_nil] at hrun
  exact ⟨t, ht, hrun⟩

/-- The first pair that diverges is the mismatch that is reported. -/
theorem Shows.compareFiles_of_diverges (h : fs.Shows worlds v) (hs : worlds s)
    {before after : List String} {name : String} {d : DivergenceAt}
    (hb : ∀ n ∈ before, v.PairMatches r c n) (hd : v.PairDiverges r c name d) (i : Nat) :
    ∃ t, worlds t ∧ (fs.compareFiles r c i (before ++ name :: after)).run s =
      (.ok (some (.content (i + before.length) name d.offset d.divergence)), t) := by
  obtain ⟨t, ht, hrun⟩ := h.run_compareFiles_append hs hb i (name :: after)
  obtain ⟨a, b, ha, hb', hab⟩ := hd
  obtain ⟨u, hu, hpair⟩ := h.run_compareFiles_cons ht ha hb' (i + before.length) after
  rw [ByteStream.firstDivergence_of_divergesAt hab] at hpair
  exact ⟨u, hu, hrun.trans hpair⟩

/-- The first pair that cannot be compared ends the comparison. -/
theorem Shows.compareFiles_of_fails (h : fs.Shows worlds v) (hs : worlds s)
    {before after : List String} {name : String} {e : StorageError ν}
    (hb : ∀ n ∈ before, v.PairMatches r c n) (he : v.PairFails r c name e) (i : Nat) :
    ∃ t, worlds t ∧ (fs.compareFiles r c i (before ++ name :: after)).run s = (.error e, t) := by
  obtain ⟨t, ht, hrun⟩ := h.run_compareFiles_append hs hb i (name :: after)
  rw [hrun]
  cases he with
  | reference ha =>
    obtain ⟨u, hu, hw⟩ := h.refused ht ha
    exact ⟨u, hw, Action.run_bind_of_error hu⟩
  | candidate ha hc =>
    obtain ⟨f, u, hf, hu, _⟩ := h.opened ht ha
    obtain ⟨w, hw, hworlds⟩ := h.refused hu hc
    refine ⟨w, hworlds, ?_⟩
    rw [compareFiles, Action.run_bind_of_ok hf, Action.run_bind_of_error hw]
  | reading ha hc hab =>
    obtain ⟨u, hu, hpair⟩ := h.run_compareFiles_cons ht ha hc (i + before.length) after
    rw [ByteStream.firstDivergence_of_failsWith hab] at hpair
    exact ⟨u, hu, hpair⟩

theorem Shows.manifest_of_ok (h : fs.Shows worlds v) (hs : worlds s) {p : Path ν}
    {listing : List Entry} (hl : v.list p = .ok listing) :
    ∃ t, worlds t ∧ (fs.manifest p).run s = (.ok (Manifest.ofListing listing), t) := by
  obtain ⟨t, hrun, ht⟩ := h.list hs p
  rw [hl] at hrun
  exact ⟨t, ht, Action.run_bind_of_ok hrun⟩

theorem Shows.manifest_of_error (h : fs.Shows worlds v) (hs : worlds s) {p : Path ν}
    {e : StorageError ν} (hl : v.list p = .error e) :
    ∃ t, worlds t ∧ (fs.manifest p).run s = (.error e, t) := by
  obtain ⟨t, hrun, ht⟩ := h.list hs p
  rw [hl] at hrun
  exact ⟨t, ht, Action.run_bind_of_error hrun⟩

/-- What a comparison does once both directories are listed. -/
def settle (fs : FileSystem σ ν) (reference candidate : Path ν) (r c : Manifest) :
    Action σ (StorageError ν) Verdict := do
  match r.shapeMismatch? c with
  | some m => return .fail (.shape m)
  | none =>
    match ← fs.compareFiles reference candidate 0 r.names with
    | some m => return .fail m
    | none =>
      if r.totalLength ≠ c.totalLength then
        return .fail (.aggregate r.totalLength c.totalLength)
      else return .pass r.size r.totalLength

theorem Shows.run_compareDirs (h : fs.Shows worlds v) (hs : worlds s) {rs cs : List Entry}
    {xs ys : List String} (hl : v.Listed r c rs cs xs ys) :
    ∃ m n t, worlds t ∧ m.names = xs ∧ n.names = ys ∧ m.totalLength = Entry.total rs ∧
      n.totalLength = Entry.total cs ∧
      (fs.compareDirs r c).run s = (fs.settle r c m n).run t := by
  obtain ⟨t, ht, hr⟩ := h.manifest_of_ok hs hl.reference
  obtain ⟨u, hu, hc⟩ := h.manifest_of_ok ht hl.candidate
  refine ⟨Manifest.ofListing rs, Manifest.ofListing cs, u, hu,
    (Manifest.outputNames_names rs).eq hl.referenceNames,
    (Manifest.outputNames_names cs).eq hl.candidateNames, rfl, rfl, ?_⟩
  rw [compareDirs, Action.run_bind_of_ok hr, Action.run_bind_of_ok hc]
  rfl

/-- Outputs of the same names whose files all match are left to their summed lengths. -/
theorem Shows.run_compare_of_matches (h : fs.Shows worlds v) (hs : worlds s) {rs cs : List Entry}
    {xs : List String} (hl : v.Listed r c rs cs xs xs) (hm : ∀ n ∈ xs, v.PairMatches r c n) :
    ((fs.compare (some r) (some c)).run s).1 =
      .ok (if Entry.total rs ≠ Entry.total cs then
        .fail (.aggregate (Entry.total rs) (Entry.total cs))
      else .pass xs.length (Entry.total rs)) := by
  obtain ⟨m, n, t, ht, hmx, hnx, hmt, hnt, hrun⟩ := h.run_compareDirs hs hl
  obtain ⟨u, _, hfiles⟩ := h.compareFiles_of_matches ht hm 0
  rw [compare, hrun, settle, Manifest.shapeMismatch?_of_eq (hmx.trans hnx.symm), hmx, hmt, hnt]
  rw [Action.run_bind_of_ok hfiles, Manifest.size_eq, hmx]
  by_cases htotal : Entry.total rs = Entry.total cs
  · simp [htotal]
  · simp [htotal]

/-- A finding is what the comparison gives. -/
theorem Shows.compare_of_finding (h : fs.Shows worlds v) (hs : worlds s)
    {reference candidate : Option (Path ν)} {result : Except (StorageError ν) Verdict}
    (hf : v.Finding reference candidate result) :
    ((fs.compare reference candidate).run s).1 = result := by
  cases hf with
  | noOutput => rfl
  | referenceOnly => rfl
  | candidateOnly => rfl
  | referenceUnlisted hl =>
    obtain ⟨t, _, hr⟩ := h.manifest_of_error hs hl
    rw [compare, compareDirs, Action.run_bind_of_error hr]
  | candidateUnlisted hl hc =>
    obtain ⟨t, ht, hr⟩ := h.manifest_of_ok hs hl
    obtain ⟨u, _, hc⟩ := h.manifest_of_error ht hc
    rw [compare, compareDirs, Action.run_bind_of_ok hr, Action.run_bind_of_error hc]
  | fileCount hl hlen =>
    obtain ⟨m, n, t, _, rfl, rfl, _, _, hrun⟩ := h.run_compareDirs hs hl
    rw [compare, hrun, settle, Manifest.shapeMismatch?_of_count hlen]
    rfl
  | fileName hl hlen hxy =>
    obtain ⟨m, n, t, _, hm, hn, _, _, hrun⟩ := h.run_compareDirs hs hl
    rw [compare, hrun, settle, Manifest.shapeMismatch?_of_name hm hn hlen hxy]
    rfl
  | unreadable hl hb he =>
    obtain ⟨m, n, t, ht, hm, hn, _, _, hrun⟩ := h.run_compareDirs hs hl
    obtain ⟨u, _, hfiles⟩ := h.compareFiles_of_fails ht hb he 0
    rw [compare, hrun, settle, Manifest.shapeMismatch?_of_eq (hm.trans hn.symm), hm]
    rw [Action.run_bind_of_error hfiles]
  | content hl hb hd =>
    obtain ⟨m, n, t, ht, hm, hn, _, _, hrun⟩ := h.run_compareDirs hs hl
    obtain ⟨u, _, hfiles⟩ := h.compareFiles_of_diverges ht hb hd 0
    rw [compare, hrun, settle, Manifest.shapeMismatch?_of_eq (hm.trans hn.symm), hm]
    rw [Action.run_bind_of_ok hfiles, Nat.zero_add]
    rfl
  | aggregate hl hm hne => rw [h.run_compare_of_matches hs hl hm, if_pos hne]
  | pass hl hm heq => rw [h.run_compare_of_matches hs hl hm, if_neg fun hne => hne heq]

end FileSystem

/-! ## The rules leave no case out -/

/-- Either all elements have a property or there is a first one without it. -/
theorem forall_or_exists_first {α : Type} (P : α → Prop) (xs : List α) :
    (∀ x ∈ xs, P x) ∨
      ∃ before x after, xs = before ++ x :: after ∧ (∀ y ∈ before, P y) ∧ ¬ P x := by
  induction xs with
  | nil => exact .inl (by simp)
  | cons x xs ih =>
    by_cases hx : P x
    · rcases ih with hall | ⟨before, y, after, rfl, hb, hy⟩
      · exact .inl (List.forall_mem_cons.2 ⟨hx, hall⟩)
      · exact .inr ⟨x :: before, y, after, rfl, List.forall_mem_cons.2 ⟨hx, hb⟩, hy⟩
    · exact .inr ⟨[], x, xs, rfl, by simp, hx⟩

namespace Answers

variable (v : Answers ν) (r c : Path ν)

/-- A pair of files matches, diverges or cannot be compared. -/
theorem matches_or_diverges_or_fails (name : String) :
    v.PairMatches r c name ∨ (∃ d, v.PairDiverges r c name d) ∨
      ∃ e, v.PairFails r c name e := by
  cases ha : v.stream (r.join name) with
  | error e => exact .inr (.inr ⟨e, .reference ha⟩)
  | ok a =>
    cases hb : v.stream (c.join name) with
    | error e => exact .inr (.inr ⟨e, .candidate ha hb⟩)
    | ok b =>
      rcases a.matches_or_diverges_or_fails b with h | ⟨d, h⟩ | ⟨f, h⟩
      · exact .inl ⟨a, b, ha, hb, h⟩
      · exact .inr (.inl ⟨d, a, b, ha, hb, h⟩)
      · exact .inr (.inr ⟨.io f, .reading ha hb h⟩)

variable {v r c}

/-- Outputs with the same names come to a finding. -/
theorem Listed.exists_finding_of_same {rs cs : List Entry} {xs : List String}
    (h : v.Listed r c rs cs xs xs) : ∃ result, v.Finding (some r) (some c) result := by
  rcases forall_or_exists_first (v.PairMatches r c) xs with
    hall | ⟨before, name, after, rfl, hb, hname⟩
  · by_cases ht : Entry.total rs = Entry.total cs
    · exact ⟨_, .pass h hall ht⟩
    · exact ⟨_, .aggregate h hall ht⟩
  · rcases v.matches_or_diverges_or_fails r c name with hm | ⟨d, hd⟩ | ⟨e, he⟩
    · exact absurd hm hname
    · exact ⟨_, .content h hb hd⟩
    · exact ⟨_, .unreadable h hb he⟩

/-- Outputs that can be listed come to a finding. -/
theorem Listed.exists_finding {rs cs : List Entry} {xs ys : List String}
    (h : v.Listed r c rs cs xs ys) : ∃ result, v.Finding (some r) (some c) result := by
  by_cases hlen : xs.length = ys.length
  · obtain ⟨before, as, bs, rfl, rfl, hend⟩ := exists_common_start xs ys
    simp only [List.length_append, Nat.add_left_cancel_iff] at hlen
    rcases hend with rfl | rfl | ⟨x, y, as, bs, rfl, rfl, hxy⟩
    · obtain rfl := List.eq_nil_of_length_eq_zero hlen.symm
      exact h.exists_finding_of_same
    · obtain rfl := List.eq_nil_of_length_eq_zero hlen
      exact h.exists_finding_of_same
    · exact ⟨_, .fileName h (by simpa using hlen) hxy⟩
  · exact ⟨_, .fileCount h hlen⟩

/-- Any two outputs come to a finding. -/
theorem exists_finding (v : Answers ν) (reference candidate : Option (Path ν)) :
    ∃ result, v.Finding reference candidate result := by
  cases reference with
  | none =>
    cases candidate with
    | none => exact ⟨_, .noOutput⟩
    | some c => exact ⟨_, .candidateOnly c⟩
  | some r =>
    cases candidate with
    | none => exact ⟨_, .referenceOnly r⟩
    | some c =>
      cases hr : v.list r with
      | error e => exact ⟨_, .referenceUnlisted hr⟩
      | ok rs =>
        cases hc : v.list c with
        | error e => exact ⟨_, .candidateUnlisted hr hc⟩
        | ok cs =>
          exact Listed.exists_finding ⟨hr, hc, Manifest.outputNames_names rs,
            Manifest.outputNames_names cs⟩

/-- The filesystem that gives some answers and has nothing to change. -/
def fileSystem (v : Answers ν) : FileSystem σ ν where
  list p := Action.ofExcept (v.list p)
  openFile p := Action.ofExcept ((v.stream p).map fun b _ => b)
  create p := Action.fail (.notFound p)
  copy src _ := Action.fail (.notFound src)
  delete _ _ := pure false
  isPresent _ _ := false

/-- Any answers are those of some filesystem. -/
theorem shows_fileSystem (v : Answers ν) :
    (v.fileSystem : FileSystem σ ν).Shows (fun _ => True) v where
  list _ p := ⟨_, rfl, trivial⟩
  opened {s} _ {p b} hb := ⟨fun _ => b, s, by simp [fileSystem, hb, Except.map], trivial,
    fun _ _ => rfl⟩
  refused {s} _ {p e} he := ⟨s, by simp [fileSystem, he, Except.map], trivial⟩

end Answers

/-- What the comparison gives is a finding. -/
theorem FileSystem.Shows.finding_of_compare {fs : FileSystem σ ν} {worlds : σ → Prop}
    {v : Answers ν} (h : fs.Shows worlds v) {s : σ} (hs : worlds s)
    {reference candidate : Option (Path ν)} {result : Except (StorageError ν) Verdict}
    (heq : ((fs.compare reference candidate).run s).1 = result) :
    v.Finding reference candidate result := by
  obtain ⟨found, hf⟩ := v.exists_finding reference candidate
  rw [h.compare_of_finding hs hf] at heq
  exact heq ▸ hf

/-- The comparison of two outputs gives exactly what the rules say, for any listings, any files and
any cut of their bytes into refills. -/
theorem FileSystem.compare_eq_iff_finding {fs : FileSystem σ ν} {worlds : σ → Prop}
    {v : Answers ν} (h : fs.Shows worlds v) {s : σ} (hs : worlds s)
    (reference candidate : Option (Path ν)) (result : Except (StorageError ν) Verdict) :
    ((fs.compare reference candidate).run s).1 = result ↔ v.Finding reference candidate result := by
  constructor
  · intro heq
    obtain ⟨found, hf⟩ := v.exists_finding reference candidate
    rw [h.compare_of_finding hs hf] at heq
    exact heq ▸ hf
  · exact h.compare_of_finding hs

/-- Two outputs of two files, listed in different orders. The files `b` diverge within a refill of
the reference, before the candidate's reading fails. -/
def Answers.sample : Answers where
  list p :=
    if p.text = "/r" then .ok [.file "b" 2, .file "_SUCCESS" 0, .file "a" 1]
    else if p.text = "/c" then .ok [.file "a" 1, .file "b" 2]
    else .error (.notFound p)
  stream p :=
    if p.text = "/r/b" then .ok ⟨[⟨7, [8]⟩], none⟩
    else if p.text = "/c/b" then .ok ⟨[⟨7, []⟩, ⟨9, []⟩], some .notText⟩
    else .ok (.ofBytes [1])

theorem FileSystem.compare_sample :
    (Answers.sample.fileSystem : FileSystem Unit).Shows (fun _ => True) Answers.sample ∧
      ((Answers.sample.fileSystem.compare (some ⟨"/r"⟩) (some ⟨"/c"⟩)).run ()).1 =
        .ok (.fail (.content 1 "b" 1 (.byteDiffers 8 9))) := by
  refine ⟨Answers.shows_fileSystem _, ?_⟩
  rw [FileSystem.compare_eq_iff_finding (Answers.shows_fileSystem _) trivial]
  have hlisted : Answers.sample.Listed ⟨"/r"⟩ ⟨"/c"⟩
      [.file "b" 2, .file "_SUCCESS" 0, .file "a" 1] [.file "a" 1, .file "b" 2]
      (["a"] ++ "b" :: []) (["a"] ++ "b" :: []) :=
    ⟨rfl, rfl, ⟨by decide, by decide⟩, ⟨by decide, by decide⟩⟩
  have hdiverges : Answers.sample.PairDiverges ⟨"/r"⟩ ⟨"/c"⟩ "b" ⟨1, .byteDiffers 8 9⟩ :=
    ⟨_, _, rfl, rfl, @ByteStream.DivergesAt.byteDiffers _ _ [7] [] [] 8 9 rfl rfl (by decide)⟩
  refine .content hlisted ?_ hdiverges
  intro n hn
  obtain rfl := List.mem_singleton.1 hn
  exact ⟨_, _, rfl, rfl, rfl, rfl, rfl⟩

end OffloadCheck
