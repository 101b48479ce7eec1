import OffloadCheck.Json.Decode
import OffloadCheck.Output.Verdict

/-!
The JSON forms of mismatches and verdicts. A verdict is an object with its kind under `verdict` and
what belongs to it under `detail`, in either order, or an array of the two. A detail that comes
before its kind is set aside first; then it must be readable throughout, and a divergence without
content may also hold an empty object.
-/
namespace OffloadCheck

open Json

/-- Whether a detail is read where it stands or has been set aside. -/
inductive Json.Reading
  | inPlace
  | setAside
deriving DecidableEq, Repr

def Json.Reading.isUnit : Json.Reading → Option Json → Bool
  | .inPlace, content => Json.isUnit content
  | .setAside, some (.object []) => true
  | .setAside, content => Json.isUnit content

namespace ShapeMismatch

def toJson : ShapeMismatch → Json
  | .outputPresence r c =>
    record [("OutputPresence", record [("reference", .bool r), ("candidate", .bool c)])]
  | .fileCount r c => record [("FileCount", record [("reference", .nat r), ("candidate", .nat c)])]
  | .fileName i r c =>
    record [("FileName",
      record [("index", .nat i), ("reference", .text r), ("candidate", .text c)])]

def ofJson? (j : Json) : Option ShapeMismatch := do
  let (name, content) ← variant? j
  let content ← content
  if name = "OutputPresence" then
    let f ← fields? ["reference", "candidate"] content
    return .outputPresence (← f.required 0 bool?) (← f.required 1 bool?)
  else if name = "FileCount" then
    let f ← fields? ["reference", "candidate"] content
    return .fileCount (← f.required 0 word64?) (← f.required 1 word64?)
  else if name = "FileName" then
    let f ← fields? ["index", "reference", "candidate"] content
    return .fileName (← f.required 0 word64?) (← f.required 1 string?) (← f.required 2 string?)
  else none

end ShapeMismatch

namespace Divergence

def toJson : Divergence → Json
  | .byteDiffers r c =>
    record [("byte_differs", record [("reference", .nat r.toNat), ("candidate", .nat c.toNat)])]
  | .referenceLonger => .text "reference_longer"
  | .candidateLonger => .text "candidate_longer"

def ofJson? (reading : Json.Reading) (j : Json) : Option Divergence := do
  let (name, content) ← variant? j
  if name = "byte_differs" then
    let f ← fields? ["reference", "candidate"] (← content)
    return .byteDiffers (← f.required 0 byte?) (← f.required 1 byte?)
  else if !reading.isUnit content then none
  else if name = "reference_longer" then return .referenceLonger
  else if name = "candidate_longer" then return .candidateLonger
  else none

end Divergence

namespace Mismatch

def toJson : Mismatch → Json
  | .shape m => record [("Structural", m.toJson)]
  | .content i name offset d =>
    record [("Content",
      record [("file_index", .nat i), ("file_name", .text name), ("offset", .nat offset),
        ("divergence", d.toJson)])]
  | .aggregate r c =>
    record [("Aggregate", record [("reference_bytes", .nat r), ("candidate_bytes", .nat c)])]

def ofJson? (reading : Json.Reading) (j : Json) : Option Mismatch := do
  let (name, held) ← variant? j
  let held ← held
  if name = "Structural" then return .shape (← ShapeMismatch.ofJson? held)
  else if name = "Content" then
    let f ← fields? ["file_index", "file_name", "offset", "divergence"] held
    return .content (← f.required 0 word64?) (← f.required 1 string?) (← f.required 2 word64?)
      (← f.required 3 (Divergence.ofJson? reading))
  else if name = "Aggregate" then
    let f ← fields? ["reference_bytes", "candidate_bytes"] held
    return .aggregate (← f.required 0 word64?) (← f.required 1 word64?)
  else none

end Mismatch

namespace Verdict

def toJson : Verdict → Json
  | .noOutput => record [("verdict", .text "no_output")]
  | .pass files bytes =>
    record [("verdict", .text "pass"),
      ("detail", record [("files", .nat files), ("aggregate_bytes", .nat bytes)])]
  | .fail m => record [("verdict", .text "fail"), ("detail", m.toJson)]

inductive Kind
  | noOutput
  | pass
  | fail
deriving DecidableEq, Repr

def Kind.ofName? (name : String) : Option Kind :=
  if name = "no_output" then some .noOutput
  else if name = "pass" then some .pass
  else if name = "fail" then some .fail
  else none

/-- The kind that a member holds: a variant without content. -/
def Kind.ofJson? (j : Json) : Option Kind :=
  (variant? j).bind fun (name, content) => if isUnit content then ofName? name else none

def ofDetail? (reading : Json.Reading) (kind : Kind) (detail : Json) : Option Verdict :=
  match kind, detail with
  | .noOutput, .null => some .noOutput
  | .pass, .object members => do
    let f ← fields? ["files", "aggregate_bytes"] (.object members)
    return .pass (← f.required 0 word64?) (← f.required 1 word64?)
  | .fail, detail => (Mismatch.ofJson? reading detail).map .fail
  | _, _ => none

/-- The verdict with a JSON form that stands inside `level` arrays and objects, its own included. -/
def ofJson? (level : Nat) : Json → Option Verdict
  | .array [tag, detail] =>
    ((string? tag).bind Kind.ofName?).bind fun k => ofDetail? .inPlace k detail
  | .object members => do
    match (← textMembers? members).filter fun m => m.1 = "verdict" || m.1 = "detail" with
    | [("verdict", tag)] => if (← Kind.ofJson? tag) = .noOutput then some .noOutput else none
    | [("verdict", tag), ("detail", detail)] => ofDetail? .inPlace (← Kind.ofJson? tag) detail
    | [("detail", detail), ("verdict", tag)] =>
      if isStorable level detail then ofDetail? .setAside (← Kind.ofJson? tag) detail else none
    | _ => none
  | _ => none

end Verdict
end OffloadCheck
