import OffloadCheck.Proofs.Comparison

/-! # Comparing the other way round

A verdict does not favour the reference: with the two outputs exchanged the comparison comes to the
mirrored verdict. Each rule of `Finding` that ends in a verdict has its mirror image among the
rules, because it only asks for what both streams hold up to the point where they diverge. A failure
has none, since the reference is read first. That outputs match is moreover transitive, so two
outputs that match a third one match each other. All rules speak of the bytes and the ends of
streams only, so what a comparison comes to does not depend on how its reads are cut. -/
namespace OffloadCheck

variable {σ : Type}

/-! ## Mirrored verdicts -/

def Divergence.mirror : Divergence → Divergence
  | .byteDiffers r c => .byteDiffers c r
  | .referenceLonger => .candidateLonger
  | .candidateLonger => .referenceLonger

def DivergenceAt.mirror (d : DivergenceAt) : DivergenceAt := ⟨d.offset, d.divergence.mirror⟩

def ShapeMismatch.mirror : ShapeMismatch → ShapeMismatch
  | .outputPresence r c => .outputPresence c r
  | .fileCount r c => .fileCount c r
  | .fileName i r c => .fileName i c r

def Mismatch.mirror : Mismatch → Mismatch
  | .shape m => .shape m.mirror
  | .content i name offset d => .content i name offset d.mirror
  | .aggregate r c => .aggregate c r

/-- The verdict with the reference and the candidate exchanged. -/
def Verdict.mirror : Verdict → Verdict
  | .fail m => .fail m.mirror
  | verdict => verdict

@[simp] theorem Divergence.mirror_mirror (d : Divergence) : d.mirror.mirror = d := by
  cases d <;> rfl

@[simp] theorem ShapeMismatch.mirror_mirror (m : ShapeMismatch) : m.mirror.mirror = m := by
  cases m <;> rfl

@[simp] theorem Mismatch.mirror_mirror (m : Mismatch) : m.mirror.mirror = m := by
  cases m <;> simp [mirror]

@[simp] theorem Verdict.mirror_mirror (verdict : Verdict) : verdict.mirror.mirror = verdict := by
  cases verdict <;> simp [mirror]

/-! ## Streams and pairs of files -/

namespace ByteStream

variable {a b c : ByteStream} {d : DivergenceAt}

theorem Matches.symm (h : a.Matches b) : b.Matches a := ⟨h.content.symm, h.candidate, h.reference⟩

theorem Matches.trans (h : a.Matches b) (h' : b.Matches c) : a.Matches c :=
  ⟨h.content.trans h'.content, h.reference, h'.candidate⟩

/-- Where two streams diverge they diverge seen from either side, whether or not one of them fails
further on. -/
theorem DivergesAt.symm (h : a.DivergesAt b d) : b.DivergesAt a d.mirror := by
  cases h with
  | byteDiffers ha hb hxy => exact .byteDiffers hb ha hxy.symm
  | referenceLonger ha has hb => exact .candidateLonger ha has hb
  | candidateLonger hb hbs ha => exact .referenceLonger hb hbs ha

/-- The streams hold the same bytes and end the same way. -/
structure Alike (a b : ByteStream) : Prop where
  content : b.content = a.content
  failure : b.failure? = a.failure?

theorem Matches.congr {a' b' : ByteStream} (h : a.Matches b) (ha : a.Alike a') (hb : b.Alike b') :
    a'.Matches b' where
  content := by rw [ha.content, hb.content, h.content]
  reference := by rw [ha.failure, h.reference]
  candidate := by rw [hb.failure, h.candidate]

theorem DivergesAt.congr {a' b' : ByteStream} (h : a.DivergesAt b d) (ha : a.Alike a')
    (hb : b.Alike b') : a'.DivergesAt b' d := by
  cases h with
  | byteDiffers hac hbc hxy =>
    exact .byteDiffers (ha.content.trans hac) (hb.content.trans hbc) hxy
  | referenceLonger hac has hbf =>
    rw [← ha.content, ← hb.content] at hac
    rw [← hb.content]
    exact .referenceLonger hac has (hb.failure.trans hbf)
  | candidateLonger hbc hbs haf =>
    rw [← ha.content, ← hb.content] at hbc
    rw [← ha.content]
    exact .candidateLonger hbc hbs (ha.failure.trans haf)

theorem FailsWith.congr {a' b' : ByteStream} {f : IoFailure} (h : a.FailsWith b f)
    (ha : a.Alike a') (hb : b.Alike b') : a'.FailsWith b' f := by
  cases h with
  | reference hbc haf =>
    rw [← ha.content, ← hb.content] at hbc
    exact .reference hbc (ha.failure.trans haf)
  | candidate hac hbf hend =>
    rw [← ha.content, ← hb.content] at hac
    exact .candidate hac (hb.failure.trans hbf) fun has => ha.failure.trans (hend has)

end ByteStream

namespace Answers

variable {v v' : Answers} {a b c r : Path} {name : String} {d : DivergenceAt}

/-- The same listings and the same files, read in refills of any sizes. -/
structure Alike (v v' : Answers) : Prop where
  list : ∀ p, v'.list p = v.list p
  opened : ∀ {p b}, v.stream p = .ok b → ∃ b', v'.stream p = .ok b' ∧ b.Alike b'
  refused : ∀ {p e}, v.stream p = .error e → v'.stream p = .error e

theorem PairMatches.symm (h : v.PairMatches r c name) : v.PairMatches c r name := by
  obtain ⟨x, y, hx, hy, hxy⟩ := h
  exact ⟨y, x, hy, hx, hxy.symm⟩

theorem PairMatches.trans (h : v.PairMatches a b name) (h' : v.PairMatches b c name) :
    v.PairMatches a c name := by
  obtain ⟨x, y, hx, hy, hxy⟩ := h
  obtain ⟨y', z, hy', hz, hyz⟩ := h'
  obtain rfl := Except.ok.inj (hy.symm.trans hy')
  exact ⟨x, z, hx, hz, hxy.trans hyz⟩

theorem PairDiverges.symm (h : v.PairDiverges r c name d) : v.PairDiverges c r name d.mirror := by
  obtain ⟨x, y, hx, hy, hxy⟩ := h
  exact ⟨y, x, hy, hx, hxy.symm⟩

theorem Listed.symm {rs cs : List Entry} {xs ys : List String} (h : v.Listed r c rs cs xs ys) :
    v.Listed c r cs rs ys xs :=
  ⟨h.candidate, h.reference, h.candidateNames, h.referenceNames⟩

/-- A directory is listed in one way only. -/
theorem Listed.middle_eq {as bs bs' cs : List Entry} {xs ys ys' zs : List String}
    (h : v.Listed a b as bs xs ys) (h' : v.Listed b c bs' cs ys' zs) : bs' = bs ∧ ys' = ys := by
  obtain rfl := Except.ok.inj (h.candidate.symm.trans h'.reference)
  exact ⟨rfl, h'.referenceNames.eq h.candidateNames⟩

theorem PairMatches.congr (h : v.PairMatches r c name) (hv : v.Alike v') :
    v'.PairMatches r c name := by
  obtain ⟨x, y, hx, hy, hxy⟩ := h
  obtain ⟨x', hx', hxx'⟩ := hv.opened hx
  obtain ⟨y', hy', hyy'⟩ := hv.opened hy
  exact ⟨x', y', hx', hy', hxy.congr hxx' hyy'⟩

theorem PairDiverges.congr (h : v.PairDiverges r c name d) (hv : v.Alike v') :
    v'.PairDiverges r c name d := by
  obtain ⟨x, y, hx, hy, hxy⟩ := h
  obtain ⟨x', hx', hxx'⟩ := hv.opened hx
  obtain ⟨y', hy', hyy'⟩ := hv.opened hy
  exact ⟨x', y', hx', hy', hxy.congr hxx' hyy'⟩

theorem PairFails.congr {e : StorageError} (h : v.PairFails r c name e) (hv : v.Alike v') :
    v'.PairFails r c name e := by
  cases h with
  | reference hx => exact .reference (hv.refused hx)
  | candidate hx hy =>
    obtain ⟨x', hx', _⟩ := hv.opened hx
    exact .candidate hx' (hv.refused hy)
  | reading hx hy hxy =>
    obtain ⟨x', hx', hxx'⟩ := hv.opened hx
    obtain ⟨y', hy', hyy'⟩ := hv.opened hy
    exact .reading hx' hy' (hxy.congr hxx' hyy')

theorem Listed.congr {rs cs : List Entry} {xs ys : List String} (h : v.Listed r c rs cs xs ys)
    (hv : v.Alike v') : v'.Listed r c rs cs xs ys :=
  ⟨(hv.list r).trans h.reference, (hv.list c).trans h.candidate, h.referenceNames,
    h.candidateNames⟩

/-! ## Findings -/

theorem Finding.congr {reference candidate : Option Path} {result : Except StorageError Verdict}
    (h : v.Finding reference candidate result) (hv : v.Alike v') :
    v'.Finding reference candidate result := by
  cases h with
  | noOutput => exact .noOutput
  | referenceOnly r => exact .referenceOnly r
  | candidateOnly c => exact .candidateOnly c
  | referenceUnlisted hr => exact .referenceUnlisted ((hv.list _).trans hr)
  | candidateUnlisted hr hc =>
    exact .candidateUnlisted ((hv.list _).trans hr) ((hv.list _).trans hc)
  | fileCount hl hlen => exact .fileCount (hl.congr hv) hlen
  | fileName hl hlen hxy => exact .fileName (hl.congr hv) hlen hxy
  | unreadable hl hb he =>
    exact .unreadable (hl.congr hv) (fun n hn => (hb n hn).congr hv) (he.congr hv)
  | content hl hb hd =>
    exact .content (hl.congr hv) (fun n hn => (hb n hn).congr hv) (hd.congr hv)
  | aggregate hl hm ht => exact .aggregate (hl.congr hv) (fun n hn => (hm n hn).congr hv) ht
  | pass hl hm ht => exact .pass (hl.congr hv) (fun n hn => (hm n hn).congr hv) ht

/-- The rules that end in a verdict come in mirrored pairs. -/
theorem Finding.symm {reference candidate : Option Path} {verdict : Verdict}
    (h : v.Finding reference candidate (.ok verdict)) :
    v.Finding candidate reference (.ok verdict.mirror) := by
  cases h with
  | noOutput => exact .noOutput
  | referenceOnly r => exact .candidateOnly r
  | candidateOnly c => exact .referenceOnly c
  | fileCount hl hlen => exact .fileCount hl.symm hlen.symm
  | fileName hl hlen hxy => exact .fileName hl.symm hlen.symm hxy.symm
  | content hl hb hd => exact .content hl.symm (fun n hn => (hb n hn).symm) hd.symm
  | aggregate hl hm ht => exact .aggregate hl.symm (fun n hn => (hm n hn).symm) ht.symm
  | pass hl hm ht =>
    rw [ht]
    exact .pass hl.symm (fun n hn => (hm n hn).symm) ht.symm

/-- Outputs that match a third one match each other, in the same files and bytes. -/
theorem Finding.trans {a b c : Option Path} {files files' bytes bytes' : Nat}
    (h : v.Finding a b (.ok (.pass files bytes)))
    (h' : v.Finding b c (.ok (.pass files' bytes'))) :
    files' = files ∧ bytes' = bytes ∧ v.Finding a c (.ok (.pass files bytes)) := by
  cases h with
  | pass hl hm ht =>
    cases h' with
    | pass hl' hm' ht' =>
      obtain ⟨rfl, rfl⟩ := hl.middle_eq hl'
      refine ⟨rfl, ht.symm, ?_⟩
      exact .pass ⟨hl.reference, hl'.candidate, hl.referenceNames, hl'.candidateNames⟩
        (fun n hn => (hm n hn).trans (hm' n hn)) (ht.trans ht')

end Answers

/-! ## Comparisons -/

/-- What a comparison comes to does not depend on how reads are cut. Exchanging the two outputs
mirrors the verdict, and a comparison that comes to no verdict comes to none the other way round.
Where one output matches a second and that one a third, the first matches the third, in as many
files and bytes. -/
theorem FileSystem.compare_mirrored_and_transitive {fs fs' : FileSystem σ}
    {worlds worlds' : σ → Prop} {v v' : Answers} (h : fs.Shows worlds v)
    (h' : fs'.Shows worlds' v') (hv : v.Alike v') {s t : σ} (hs : worlds s) (ht : worlds' t) :
    (∀ r c, ((fs'.compare r c).run t).1 = ((fs.compare r c).run s).1) ∧
    (∀ r c verdict, ((fs.compare r c).run s).1 = .ok verdict ↔
      ((fs'.compare c r).run t).1 = .ok verdict.mirror) ∧
    ∀ a b c files files' bytes bytes',
      ((fs.compare a b).run s).1 = .ok (.pass files bytes) →
      ((fs.compare b c).run s).1 = .ok (.pass files' bytes') →
      files' = files ∧ bytes' = bytes ∧
        ((fs'.compare a c).run t).1 = .ok (.pass files bytes) := by
  have hsame (r c : Option Path) : ((fs'.compare r c).run t).1 = ((fs.compare r c).run s).1 :=
    h'.compare_of_finding ht ((h.finding_of_compare hs rfl).congr hv)
  refine ⟨hsame, ?_, ?_⟩
  · intro r c verdict
    rw [hsame]
    constructor
    · intro hrc
      exact h.compare_of_finding hs (h.finding_of_compare hs hrc).symm
    · intro hcr
      have hmirror := (h.finding_of_compare hs hcr).symm
      rw [Verdict.mirror_mirror] at hmirror
      exact h.compare_of_finding hs hmirror
  · intro a b c files files' bytes bytes' hab hbc
    obtain ⟨hfiles, hbytes, hac⟩ :=
      (h.finding_of_compare hs hab).trans (h.finding_of_compare hs hbc)
    refine ⟨hfiles, hbytes, ?_⟩
    rw [hsame]
    exact h.compare_of_finding hs hac

/-- Four outputs of one file, read in refills of the given size. The first three hold the same
bytes, the last one goes on differently and fails after that. -/
def Answers.quartet (size : Nat) : Answers where
  list _ := .ok [.file "x" 2]
  stream p :=
    if p.text = "/d/x" then .ok ⟨Refill.cut size [7, 9], some .notText⟩
    else .ok ⟨Refill.cut size [7, 8], none⟩

theorem Answers.listed_quartet (size : Nat) (r c : Path) :
    (quartet size).Listed r c [.file "x" 2] [.file "x" 2] ["x"] ["x"] :=
  ⟨rfl, rfl, ⟨by decide, by decide⟩, ⟨by decide, by decide⟩⟩

theorem Answers.alike_quartet (size size' : Nat) : (quartet size).Alike (quartet size') where
  list _ := rfl
  opened {p b} hb := by
    by_cases hp : p.text = "/d/x"
    · simp only [quartet, hp, if_true, Except.ok.injEq] at hb ⊢
      exact ⟨_, rfl, by simp [← hb, ByteStream.content], by simp [← hb]⟩
    · simp only [quartet, hp, if_false, Except.ok.injEq] at hb ⊢
      exact ⟨_, rfl, by simp [← hb, ByteStream.content], by simp [← hb]⟩
  refused {p e} he := by
    unfold quartet at he
    dsimp only at he
    split at he
    · cases he
    · cases he

theorem FileSystem.compare_quartet :
    let fs (size : Nat) : FileSystem Unit := (Answers.quartet size).fileSystem
    (∀ n, (fs n).Shows (fun _ => True) (Answers.quartet n)) ∧
      (Answers.quartet 2).Alike (Answers.quartet 1) ∧
      (((fs 1).compare (some ⟨"/d"⟩) (some ⟨"/a"⟩)).run ()).1 =
        .ok (.fail (.content 0 "x" 1 (.byteDiffers 9 8))) ∧
      (((fs 1).compare (some ⟨"/a"⟩) (some ⟨"/c"⟩)).run ()).1 = .ok (.pass 1 2) := by
  intro fs
  have h (n : Nat) : (fs n).Shows (fun _ => True) (Answers.quartet n) := Answers.shows_fileSystem _
  have hlisted := Answers.listed_quartet 2
  have hcontent (bytes : Bytes) (failure? : Option IoFailure) :
      ByteStream.content ⟨Refill.cut 2 bytes, failure?⟩ = bytes := Refill.flatMap_cut 2 bytes
  have hdiverges : (Answers.quartet 2).PairDiverges ⟨"/a"⟩ ⟨"/d"⟩ "x" ⟨1, .byteDiffers 8 9⟩ :=
    ⟨_, _, rfl, rfl, @ByteStream.DivergesAt.byteDiffers _ _ [7] [] [] 8 9 (hcontent _ _)
      (hcontent _ _) (by decide)⟩
  have had : (Answers.quartet 2).Finding (some ⟨"/a"⟩) (some ⟨"/d"⟩)
      (.ok (.fail (.content 0 "x" 1 (.byteDiffers 8 9)))) :=
    @Answers.Finding.content _ _ _ _ _ _ _ [] [] _ _ (hlisted _ _) (by simp) hdiverges
  have hpass {r c : Path} {x : ByteStream} (hx : (Answers.quartet 2).stream (r.join "x") = .ok x)
      (hc : (Answers.quartet 2).stream (c.join "x") = .ok x) (hend : x.failure? = none) :
      (Answers.quartet 2).Finding (some r) (some c) (.ok (.pass 1 2)) := by
    refine .pass (hlisted _ _) ?_ rfl
    intro n hn
    obtain rfl := List.mem_singleton.1 hn
    exact ⟨x, x, hx, hc, rfl, hend, hend⟩
  have hab := (h 2).compare_of_finding (s := ()) trivial
    (hpass (r := ⟨"/a"⟩) (c := ⟨"/b"⟩) rfl rfl rfl)
  have hbc := (h 2).compare_of_finding (s := ()) trivial
    (hpass (r := ⟨"/b"⟩) (c := ⟨"/c"⟩) rfl rfl rfl)
  obtain ⟨_, hmirror, htrans⟩ := compare_mirrored_and_transitive (h 2) (h 1)
    (Answers.alike_quartet 2 1) (s := ()) (t := ()) trivial trivial
  exact ⟨h, Answers.alike_quartet 2 1, (hmirror _ _ _).1 ((h 2).compare_of_finding trivial had),
    (htrans _ _ _ _ _ _ _ hab hbc).2.2⟩

end OffloadCheck
