import OffloadCheck.Output.ByteStream

/-!
The first position at which two streams diverge. Both are read in lockstep, the reference refilled
first; after each round the bytes that both refills hold have been compared and are dropped. Every
round takes at least one byte from each side, so the scan ends.
-/
namespace OffloadCheck

/-- How two streams differ at a position. -/
inductive Divergence
  | byteDiffers (reference candidate : UInt8)
  | referenceLonger
  | candidateLonger
deriving DecidableEq, Repr

structure DivergenceAt where
  offset : Nat
  divergence : Divergence
deriving DecidableEq, Repr

/-- What a round over two refills comes to. -/
inductive Overlap
  /-- The bytes at `offset` differ. -/
  | differ (found : DivergenceAt)
  /-- One refill is used up at `offset`; what the two still hold. -/
  | exhausted (offset : Nat) (reference candidate : Bytes)
deriving DecidableEq, Repr

/-- Compares two refills that start at `offset` as far as both reach. -/
def Overlap.scan (offset : Nat) : Bytes → Bytes → Overlap
  | a :: as, b :: bs =>
    if a = b then Overlap.scan (offset + 1) as bs else .differ ⟨offset, .byteDiffers a b⟩
  | as, bs => .exhausted offset as bs

theorem Overlap.length_le_of_exhausted {i j : Nat} {as bs rs cs : Bytes}
    (h : Overlap.scan i as bs = .exhausted j rs cs) : rs.length ≤ as.length := by
  fun_induction Overlap.scan i as bs with
  | case1 i as b bs ih =>
    have := ih h
    simp only [List.length_cons]
    omega
  | case2 => simp at h
  | case3 i as bs =>
    simp only [Overlap.exhausted.injEq] at h
    simp [h.2.1]

namespace ByteStream

/-- The first divergence of two streams of which `offset` equal bytes have been read. The failures
are those met behind the last refill of the reference and of the candidate. -/
def divergenceFrom (referenceFailure candidateFailure : Option IoFailure) (offset : Nat) :
    List Refill → List Refill → Except IoFailure (Option DivergenceAt)
  | [], candidate =>
    match referenceFailure, candidate, candidateFailure with
    | some f, _, _ => .error f
    | none, _ :: _, _ => .ok (some ⟨offset, .candidateLonger⟩)
    | none, [], some f => .error f
    | none, [], none => .ok none
  | _ :: _, [] =>
    match candidateFailure with
    | some f => .error f
    | none => .ok (some ⟨offset, .referenceLonger⟩)
  | r :: rs, c :: cs =>
    if r.first = c.first then
      match _h : Overlap.scan (offset + 1) r.others c.others with
      | .differ found => .ok (some found)
      | .exhausted offset' r' c' =>
        divergenceFrom referenceFailure candidateFailure offset' (Refill.ofBytes r' ++ rs)
          (Refill.ofBytes c' ++ cs)
    else .ok (some ⟨offset, .byteDiffers r.first c.first⟩)
termination_by reference => (reference.flatMap Refill.bytes).length
decreasing_by
  have := Overlap.length_le_of_exhausted _h
  simp [Refill.bytes]
  omega

def firstDivergence (reference candidate : ByteStream) : Except IoFailure (Option DivergenceAt) :=
  divergenceFrom reference.failure? candidate.failure? 0 reference.refills candidate.refills

end ByteStream
end OffloadCheck
