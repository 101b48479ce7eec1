import OffloadCheck.Output.Divergence

/-! # What the scan of two streams finds

The scan works on refills. Here its result is said of the two contents and of the two endings
alone: the streams match, they diverge at a position, or one of them fails before they diverge.
Exactly one of the three is the case for any two streams, and the scan tells which, so where the
refills are cut cannot matter. The last section says the same with the length of the longest
beginning that both contents share. -/
namespace OffloadCheck

/-- Two lists share a longest beginning, behind which one of them ends or both go on differently. -/
theorem exists_common_start {α : Type} (as bs : List α) :
    ∃ cs as' bs', as = cs ++ as' ∧ bs = cs ++ bs' ∧
      (as' = [] ∨ bs' = [] ∨ ∃ x y xs ys, as' = x :: xs ∧ bs' = y :: ys ∧ x ≠ y) := by
  induction as generalizing bs with
  | nil => exact ⟨[], [], bs, rfl, rfl, .inl rfl⟩
  | cons a as ih =>
    cases bs with
    | nil => exact ⟨[], a :: as, [], rfl, rfl, .inr (.inl rfl)⟩
    | cons b bs =>
      by_cases hab : a = b
      · obtain ⟨cs, as', bs', has, hbs, h⟩ := ih bs
        exact ⟨a :: cs, as', bs', by rw [has]; rfl, by rw [hbs, hab]; rfl, h⟩
      · exact ⟨[], a :: as, b :: bs, rfl, rfl, .inr (.inr ⟨a, b, as, bs, rfl, rfl, hab⟩)⟩

namespace ByteStream

/-! ## The three findings -/

/-- Both streams end well and hold the same bytes. -/
structure Matches (a b : ByteStream) : Prop where
  content : a.content = b.content
  reference : a.failure? = none
  candidate : b.failure? = none

/-- Where two streams diverge first. A stream that has ended is shorter only when it ended well. -/
inductive DivergesAt (a b : ByteStream) : DivergenceAt → Prop
  | byteDiffers {common as bs : Bytes} {x y : UInt8} :
      a.content = common ++ x :: as → b.content = common ++ y :: bs → x ≠ y →
      DivergesAt a b ⟨common.length, .byteDiffers x y⟩
  | referenceLonger {as : Bytes} :
      a.content = b.content ++ as → as ≠ [] → b.failure? = none →
      DivergesAt a b ⟨b.content.length, .referenceLonger⟩
  | candidateLonger {bs : Bytes} :
      b.content = a.content ++ bs → bs ≠ [] → a.failure? = none →
      DivergesAt a b ⟨a.content.length, .candidateLonger⟩

/-- The failure met while the streams still agree. Where both fail at one position, the reference
is read first. -/
inductive FailsWith (a b : ByteStream) : IoFailure → Prop
  | reference {f : IoFailure} {bs : Bytes} :
      b.content = a.content ++ bs → a.failure? = some f → FailsWith a b f
  | candidate {f : IoFailure} {as : Bytes} :
      a.content = b.content ++ as → b.failure? = some f → (as = [] → a.failure? = none) →
      FailsWith a b f

/-- Two streams match, diverge or fail. -/
theorem matches_or_diverges_or_fails (a b : ByteStream) :
    a.Matches b ∨ (∃ d, a.DivergesAt b d) ∨ ∃ f, a.FailsWith b f := by
  obtain ⟨cs, as, bs, has, hbs, h⟩ := exists_common_start a.content b.content
  rcases h with rfl | rfl | ⟨x, y, xs, ys, rfl, rfl, hxy⟩
  · rw [List.append_nil] at has
    rw [← has] at hbs
    cases ha : a.failure? with
    | some f => exact .inr (.inr ⟨f, .reference hbs ha⟩)
    | none =>
      by_cases hb : bs = []
      · subst hb
        rw [List.append_nil] at hbs
        cases hf : b.failure? with
        | some f =>
          have hab : a.content = b.content ++ [] := by simp [hbs]
          exact .inr (.inr ⟨f, .candidate hab hf fun _ => ha⟩)
        | none => exact .inl ⟨hbs.symm, ha, hf⟩
      · exact .inr (.inl ⟨_, .candidateLonger hbs hb ha⟩)
  · rw [List.append_nil] at hbs
    rw [← hbs] at has
    by_cases ha : as = []
    · subst ha
      cases hf : a.failure? with
      | some f =>
        have hba : b.content = a.content ++ [] := by simp [has]
        exact .inr (.inr ⟨f, .reference hba hf⟩)
      | none =>
        cases hb : b.failure? with
        | some f => exact .inr (.inr ⟨f, .candidate has hb fun _ => hf⟩)
        | none => exact .inl ⟨has.trans (List.append_nil _), hf, hb⟩
    · cases hb : b.failure? with
      | some f => exact .inr (.inr ⟨f, .candidate has hb fun h => absurd h ha⟩)
      | none => exact .inr (.inl ⟨_, .referenceLonger has ha hb⟩)
  · exact .inr (.inl ⟨_, .byteDiffers has hbs hxy⟩)

/-! ## The scan over bytes -/

/-- The scan with the refills taken apart into bytes. -/
def scanBytes (referenceFailure candidateFailure : Option IoFailure) (offset : Nat) :
    Bytes → Bytes → Except IoFailure (Option DivergenceAt)
  | [], candidate =>
    match referenceFailure, candidate, candidateFailure with
    | some f, _, _ => .error f
    | none, _ :: _, _ => .ok (some ⟨offset, .candidateLonger⟩)
    | none, [], some f => .error f
    | none, [], none => .ok none
  | _ :: _, [] =>
    match candidateFailure with
    | some f => .error f
    | none => .ok (some ⟨offset, .referenceLonger⟩)
  | a :: as, b :: bs =>
    if a = b then scanBytes referenceFailure candidateFailure (offset + 1) as bs
    else .ok (some ⟨offset, .byteDiffers a b⟩)

attribute [simp] scanBytes

variable (rf cf : Option IoFailure) {offset offset' : Nat} {as bs : Bytes} (as' bs' : Bytes)

/-- Equal bytes at the front only move the offset. -/
theorem scanBytes_append (offset : Nat) (cs as bs : Bytes) :
    scanBytes rf cf offset (cs ++ as) (cs ++ bs) = scanBytes rf cf (offset + cs.length) as bs := by
  induction cs generalizing offset with
  | nil => rfl
  | cons c cs ih =>
    have h := ih (offset + 1)
    rw [Nat.add_assoc, Nat.add_comm 1] at h
    simpa using h

theorem scanBytes_of_differ {found : DivergenceAt} (h : Overlap.scan offset as bs = .differ found) :
    scanBytes rf cf offset (as ++ as') (bs ++ bs') = .ok (some found) := by
  fun_induction Overlap.scan offset as bs with
  | case1 offset a as bs ih => simpa using ih h
  | case2 offset a as b bs hab =>
    cases h
    simp [hab]
  | case3 => cases h

theorem scanBytes_of_exhausted {r c : Bytes}
    (h : Overlap.scan offset as bs = .exhausted offset' r c) :
    scanBytes rf cf offset (as ++ as') (bs ++ bs') =
      scanBytes rf cf offset' (r ++ as') (c ++ bs') := by
  fun_induction Overlap.scan offset as bs with
  | case1 offset a as bs ih => simpa using ih h
  | case2 => cases h
  | case3 =>
    cases h
    rfl

/-- However the refills are cut, their scan is the scan of the bytes they hold. -/
theorem divergenceFrom_eq_scanBytes (rf cf : Option IoFailure) (offset : Nat)
    (rs cs : List Refill) :
    divergenceFrom rf cf offset rs cs =
      scanBytes rf cf offset (rs.flatMap Refill.bytes) (cs.flatMap Refill.bytes) := by
  fun_induction divergenceFrom rf cf offset rs cs with
  | case1 offset cs f hrf => simp [hrf]
  | case2 offset c cs hrf => simp [Refill.bytes, hrf]
  | case3 offset f hcf hrf => simp [hcf, hrf]
  | case4 offset hcf hrf => simp [hcf, hrf]
  | case5 offset r rs f hcf => simp [Refill.bytes, hcf]
  | case6 offset r rs hcf => simp [Refill.bytes, hcf]
  | case7 offset r rs c cs hrc found h =>
    have hs := scanBytes_of_differ rf cf (rs.flatMap Refill.bytes) (cs.flatMap Refill.bytes) h
    simpa [Refill.bytes, hrc] using hs.symm
  -- One refill is used up: the round only moved the scan on.
  | case8 offset r rs c cs hrc offset' r' c' h ih =>
    have hs := scanBytes_of_exhausted rf cf (rs.flatMap Refill.bytes) (cs.flatMap Refill.bytes) h
    rw [ih]
    simpa [Refill.bytes, hrc] using hs.symm
  | case9 offset r rs c cs hrc => simp [Refill.bytes, hrc]

theorem firstDivergence_eq_scanBytes (a b : ByteStream) :
    a.firstDivergence b = scanBytes a.failure? b.failure? 0 a.content b.content :=
  divergenceFrom_eq_scanBytes _ _ _ _ _

/-! ## The scan tells which finding is the case -/

theorem firstDivergence_of_matches {a b : ByteStream} (h : a.Matches b) :
    a.firstDivergence b = .ok none := by
  have hs := scanBytes_append none none 0 b.content [] []
  rw [firstDivergence_eq_scanBytes, h.content, h.reference, h.candidate]
  simpa using hs

theorem firstDivergence_of_divergesAt {a b : ByteStream} {d : DivergenceAt}
    (h : a.DivergesAt b d) : a.firstDivergence b = .ok (some d) := by
  rw [firstDivergence_eq_scanBytes]
  cases h with
  | byteDiffers ha hb hxy =>
    rw [ha, hb, scanBytes_append]
    simp [hxy]
  | @referenceLonger as ha has hb =>
    have hs := scanBytes_append a.failure? none 0 b.content as []
    obtain ⟨x, xs, rfl⟩ := List.exists_cons_of_ne_nil has
    rw [ha, hb]
    simpa using hs
  | @candidateLonger bs hb hbs ha =>
    have hs := scanBytes_append none b.failure? 0 a.content [] bs
    obtain ⟨y, ys, rfl⟩ := List.exists_cons_of_ne_nil hbs
    rw [hb, ha]
    simpa using hs

theorem firstDivergence_of_failsWith {a b : ByteStream} {f : IoFailure}
    (h : a.FailsWith b f) : a.firstDivergence b = .error f := by
  rw [firstDivergence_eq_scanBytes]
  cases h with
  | @reference bs hb ha =>
    have hs := scanBytes_append (some f) b.failure? 0 a.content [] bs
    rw [hb, ha]
    simpa using hs
  | @candidate as ha hb hend =>
    have hs := scanBytes_append a.failure? (some f) 0 b.content as []
    rw [List.append_nil] at hs
    rw [ha, hb, hs]
    cases as with
    | nil =>
      rw [hend rfl]
      rfl
    | cons => rfl

/-! ## The result told by offsets -/

/-- The first `p` bytes are the longest beginning that two contents share. -/
structure LongestCommonStart (as bs : Bytes) (p : Nat) : Prop where
  reference_le : p ≤ as.length
  candidate_le : p ≤ bs.length
  agree : as.take p = bs.take p
  longest : ∀ q, q ≤ as.length → q ≤ bs.length → as.take q = bs.take q → q ≤ p

theorem longestCommonStart_append {cs as bs : Bytes}
    (h : as = [] ∨ bs = [] ∨ ∃ x y xs ys, as = x :: xs ∧ bs = y :: ys ∧ x ≠ y) :
    LongestCommonStart (cs ++ as) (cs ++ bs) cs.length where
  reference_le := by simp
  candidate_le := by simp
  agree := by simp
  longest q hqa hqb hq := by
    rcases h with rfl | rfl | ⟨x, y, xs, ys, rfl, rfl, hxy⟩
    · simpa using hqa
    · simpa using hqb
    · -- A longer common beginning would hold the byte at which the two go on differently.
      refine Nat.le_of_not_lt fun hlt => hxy ?_
      have hat := congrArg (·[cs.length]?) hq
      simpa [List.getElem?_take_of_lt hlt] using hat

/-- Behind a common beginning only what the two streams still hold matters, and how they end. -/
theorem firstDivergence_append {a b : ByteStream} {cs as bs : Bytes} (ha : a.content = cs ++ as)
    (hb : b.content = cs ++ bs) :
    a.firstDivergence b = scanBytes a.failure? b.failure? cs.length as bs := by
  rw [firstDivergence_eq_scanBytes, ha, hb, scanBytes_append, Nat.zero_add]

theorem firstDivergence_congr {a b a' b' : ByteStream} (ha : a'.content = a.content)
    (haf : a'.failure? = a.failure?) (hb : b'.content = b.content)
    (hbf : b'.failure? = b.failure?) : a'.firstDivergence b' = a.firstDivergence b := by
  rw [firstDivergence_eq_scanBytes, firstDivergence_eq_scanBytes, ha, haf, hb, hbf]

/-- With `p` the length of the longest beginning that the contents share: bytes of both streams at
`p` are the difference found, whatever comes behind them. Otherwise one stream is used up at `p`; if
it fails there, the reference first, the failure is the answer, and if all that are used up end
well, the streams are equal or the other one is longer. How the refills are cut does not matter, and
bytes are only ever said to differ where both streams have one. -/
theorem firstDivergence_at_longestCommonStart (a b : ByteStream) :
    (∃ p, LongestCommonStart a.content b.content p ∧
      (∀ x y, a.content[p]? = some x → b.content[p]? = some y →
        x ≠ y ∧ a.firstDivergence b = .ok (some ⟨p, .byteDiffers x y⟩)) ∧
      (∀ f, p = a.content.length → a.failure? = some f → a.firstDivergence b = .error f) ∧
      (∀ f, p = b.content.length → b.failure? = some f →
        (p = a.content.length → a.failure? = none) → a.firstDivergence b = .error f) ∧
      (p = a.content.length → a.failure? = none → p = b.content.length → b.failure? = none →
        a.firstDivergence b = .ok none) ∧
      (p < a.content.length → p = b.content.length → b.failure? = none →
        a.firstDivergence b = .ok (some ⟨p, .referenceLonger⟩)) ∧
      (p = a.content.length → a.failure? = none → p < b.content.length →
        a.firstDivergence b = .ok (some ⟨p, .candidateLonger⟩))) ∧
    (∀ a' b' : ByteStream, a'.content = a.content → a'.failure? = a.failure? →
      b'.content = b.content → b'.failure? = b.failure? →
      a'.firstDivergence b' = a.firstDivergence b) ∧
    ∀ offset x y, a.firstDivergence b = .ok (some ⟨offset, .byteDiffers x y⟩) →
      a.content[offset]? = some x ∧ b.content[offset]? = some y := by
  obtain ⟨cs, as, bs, ha, hb, hend⟩ := exists_common_start a.content b.content
  have hscan := firstDivergence_append ha hb
  refine ⟨⟨cs.length, ?_, ?_⟩, fun a' b' => firstDivergence_congr, ?_⟩
  · rw [ha, hb]
    exact longestCommonStart_append hend
  · have hused (ds : Bytes) : cs.length = (cs ++ ds).length ↔ ds = [] := by simp
    have hleft (ds : Bytes) : cs.length < (cs ++ ds).length ↔ ds ≠ [] := by
      simp [List.length_pos_iff]
    have hnext (ds : Bytes) : (cs ++ ds)[cs.length]? = ds.head? := by
      rw [List.getElem?_append_right (Nat.le_refl _), Nat.sub_self, List.head?_eq_getElem?]
    rw [hscan, ha, hb]
    simp only [hused, hleft, hnext, List.head?_eq_some_iff]
    refine ⟨?_, ?_, ?_, ?_, ?_, ?_⟩
    · rintro x y ⟨xs, rfl⟩ ⟨ys, rfl⟩
      have hxy : x ≠ y := by simpa using hend
      exact ⟨hxy, by simp [scanBytes, hxy]⟩
    · rintro f rfl haf
      simp [scanBytes, haf]
    · rintro f rfl hbf hfirst
      cases as with
      | nil => simp [scanBytes, hfirst rfl, hbf]
      | cons x xs => simp [scanBytes, hbf]
    · rintro rfl haf rfl hbf
      simp [scanBytes, haf, hbf]
    · rintro has rfl hbf
      obtain ⟨x, xs, rfl⟩ := List.exists_cons_of_ne_nil has
      simp [scanBytes, hbf]
    · rintro rfl haf hbs
      obtain ⟨y, ys, rfl⟩ := List.exists_cons_of_ne_nil hbs
      simp [scanBytes, haf]
  · intro offset x y h
    rcases matches_or_diverges_or_fails a b with hmatch | ⟨d, hd⟩ | ⟨f, hf⟩
    · rw [firstDivergence_of_matches hmatch] at h
      cases h
    · rw [firstDivergence_of_divergesAt hd] at h
      cases h
      cases hd with
      | byteDiffers ha hb _ => simp [ha, hb]
    · rw [firstDivergence_of_failsWith hf] at h
      cases h

/-- Two streams in other refills differ at the position 2, and the failure behind it is not met. -/
theorem firstDivergence_at_longestCommonStart_before_failure :
    let a : ByteStream := ⟨[⟨1, []⟩, ⟨2, [3]⟩], some (.other "lost")⟩
    let b : ByteStream := ⟨[⟨1, [2]⟩, ⟨4, [5]⟩], none⟩
    a.firstDivergence b = .ok (some ⟨2, .byteDiffers 3 4⟩) := by
  intro a b
  obtain ⟨p, hp, hbytes, _⟩ := (firstDivergence_at_longestCommonStart a b).1
  have hlow : 2 ≤ p := hp.longest 2 (by decide) (by decide) (by decide)
  have hhigh : p ≤ 3 := hp.reference_le
  obtain rfl | rfl : p = 2 ∨ p = 3 := by omega
  · exact (hbytes 3 4 rfl rfl).2
  · exact absurd hp.agree (by decide)

end ByteStream
end OffloadCheck
