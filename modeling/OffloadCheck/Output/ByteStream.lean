import OffloadCheck.Storage.Error

/-!
Streams of bytes as a reader meets them: refills of at least one byte each, then the end or a
failure. `content` and `failure?` are all that a reader can learn however the refills are cut.
-/
namespace OffloadCheck

abbrev Bytes := List UInt8

/-- What one read of a stream delivers: at least one byte. -/
structure Refill where
  first : UInt8
  others : Bytes
deriving DecidableEq, Repr

namespace Refill

def bytes (r : Refill) : Bytes := r.first :: r.others

def ofBytes : Bytes → List Refill
  | [] => []
  | b :: bs => [⟨b, bs⟩]

/-- Some bytes in refills of `size`; size zero counts as one. -/
def cut (size : Nat) : Bytes → List Refill
  | [] => []
  | b :: bs => ⟨b, bs.take (size - 1)⟩ :: cut size (bs.drop (size - 1))
termination_by bytes => bytes.length
decreasing_by
  rw [List.length_drop, List.length_cons]
  omega

@[simp] theorem flatMap_ofBytes (bs : Bytes) : (ofBytes bs).flatMap bytes = bs := by
  cases bs <;> simp [ofBytes, bytes]

@[simp] theorem flatMap_cut (size : Nat) (bs : Bytes) : (cut size bs).flatMap bytes = bs := by
  fun_induction cut size bs with
  | case1 => rfl
  | case2 b bs ih => simp [bytes, ih]

end Refill

/-- A stream that is read refill by refill; behind the last refill a reader meets the end, or the
failure if there is one. -/
structure ByteStream where
  refills : List Refill
  failure? : Option IoFailure
deriving DecidableEq, Repr

namespace ByteStream

def content (s : ByteStream) : Bytes := s.refills.flatMap Refill.bytes

def ofBytes (bytes : Bytes) : ByteStream := ⟨Refill.ofBytes bytes, none⟩

def readAll (s : ByteStream) : Except IoFailure Bytes :=
  match s.failure? with
  | some f => .error f
  | none => .ok s.content

@[simp] theorem content_ofBytes (bs : Bytes) : (ofBytes bs).content = bs := by
  simp [ofBytes, content]

end ByteStream
end OffloadCheck
