import OffloadCheck.Output.Divergence
import OffloadCheck.Text.Scalar

/-!
Verdicts on a reference output and a candidate output. A failed comparison carries the first
mismatch found: one of shape, found before any file is read, one of content, or one of the summed
lengths.
-/
namespace OffloadCheck

/-- Outputs that differ before any byte is compared. -/
inductive ShapeMismatch
  | outputPresence (reference candidate : Bool)
  | fileCount (reference candidate : Nat)
  /-- The sorted names differ, first at `index`. -/
  | fileName (index : Nat) (reference candidate : String)
deriving DecidableEq, Repr

/-- The first mismatch of two outputs. -/
inductive Mismatch
  | shape (mismatch : ShapeMismatch)
  | content (fileIndex : Nat) (fileName : String) (offset : Nat) (divergence : Divergence)
  /-- All files match but the summed lengths do not. -/
  | aggregate (reference candidate : Nat)
deriving DecidableEq, Repr

inductive Verdict
  /-- Neither run left an output directory. -/
  | noOutput
  | pass (files aggregateBytes : Nat)
  | fail (mismatch : Mismatch)
deriving DecidableEq, Repr

def Divergence.message : Divergence → String
  | .byteDiffers r c =>
    "byte 0x" ++ String.ofList (Text.hex 2 r.toNat) ++ " != 0x" ++
      String.ofList (Text.hex 2 c.toNat)
  | .referenceLonger => "candidate ended early"
  | .candidateLonger => "reference ended early"

def ShapeMismatch.message : ShapeMismatch → String
  | .outputPresence r c =>
    "output presence differs: reference=" ++ Text.ofBool r ++ ", candidate=" ++ Text.ofBool c
  | .fileCount r c =>
    "file count differs: reference=" ++ Text.ofNat r ++ ", candidate=" ++ Text.ofNat c
  | .fileName i r c =>
    "file name differs at index " ++ Text.ofNat i ++ ": reference='" ++ r ++ "', candidate='" ++
      c ++ "'"

namespace Mismatch

def message : Mismatch → String
  | .shape m => "structural: " ++ m.message
  | .content i name offset d =>
    "content: file #" ++ Text.ofNat i ++ " '" ++ name ++ "' diverges at offset " ++
      Text.ofNat offset ++ " (" ++ d.message ++ ")"
  | .aggregate r c =>
    "aggregate: reference=" ++ Text.ofNat r ++ " bytes, candidate=" ++ Text.ofNat c ++ " bytes"

def fileIndex? : Mismatch → Option Nat
  | .shape (.fileName i _ _) => some i
  | .content i _ _ _ => some i
  | _ => none

def offset? : Mismatch → Option Nat
  | .content _ _ offset _ => some offset
  | _ => none

end Mismatch

namespace Verdict

def mismatch? : Verdict → Option Mismatch
  | .fail m => some m
  | _ => none

def isPass (v : Verdict) : Bool := v.mismatch?.isNone

end Verdict
end OffloadCheck
