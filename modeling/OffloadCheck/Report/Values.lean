import OffloadCheck.Job.Properties
import OffloadCheck.Json.Decode
import OffloadCheck.Matrix
import OffloadCheck.Output.Manifest
import OffloadCheck.Role

/-!
The JSON forms of the small values: transports, roles, modes, sizes, listings, job properties and
points of the matrix. Every `toJson` stands beside the `ofJson?` that reads it back.
-/
namespace OffloadCheck

open Json

namespace Transport

def reportName : Transport → String
  | .grpc => "Grpc"
  | .grpcNetty => "GrpcNetty"

def toJson (t : Transport) : Json := .text t.reportName

def ofJson? (j : Json) : Option Transport :=
  (variant? j).bind fun (name, content) =>
    if isUnit content then all.find? fun t => t.reportName = name else none

end Transport

namespace Role

def toJson (r : Role) : Json := .text r.label

def ofJson? (j : Json) : Option Role :=
  (variant? j).bind fun (name, content) => if isUnit content then ofLabel? name else none

end Role

namespace Mode

def toJson : Mode → Json
  | .baseline => .text "Baseline"
  | .offload t m s =>
    record [("Offload",
      record [("client_type", t.toJson), ("remote_merge", .bool m), ("remote_spill", .bool s)])]

def ofJson? (j : Json) : Option Mode :=
  (variant? j).bind fun (name, content) =>
    if name = "Baseline" then if isUnit content then some .baseline else none
    else if name = "Offload" then
      content.bind fun c => do
        let f ← fields? ["client_type", "remote_merge", "remote_spill"] c
        return .offload (← f.required 0 Transport.ofJson?) (← f.required 1 bool?)
          (← f.required 2 bool?)
    else none

end Mode

namespace ResourceSizes

def toJson (r : ResourceSizes) : Json :=
  record [("map_memory_mb", .nat r.mapMemory.toNat),
    ("reduce_memory_mb", .nat r.reduceMemory.toNat), ("sort_buffer_mb", .nat r.sortBuffer.toNat)]

/-- The sizes with a JSON form; sizes that are not given take the defaults. -/
def ofJson? (j : Json) : Option ResourceSizes := do
  let f ← fields? ["map_memory_mb", "reduce_memory_mb", "sort_buffer_mb"] j
  return ⟨← f.defaulted 0 uint32? default.mapMemory, ← f.defaulted 1 uint32? default.reduceMemory,
    ← f.defaulted 2 uint32? default.sortBuffer⟩

end ResourceSizes

namespace Entry

def toJson (e : Entry) : Json :=
  record [("name", .text e.name), ("length", .nat e.length), ("is_dir", .bool e.isDir)]

def ofJson? (j : Json) : Option Entry := do
  let f ← fields? ["name", "length", "is_dir"] j
  return ⟨← f.required 0 string?, ← f.required 1 word64?, ← f.required 2 bool?⟩

end Entry

namespace Manifest

def toJson (m : Manifest) : Json :=
  record [("entries", .array (m.entries.map Entry.toJson)), ("total_length", .nat m.totalLength)]

/-- The manifest with a JSON form; it is taken as written. -/
def ofJson? (j : Json) : Option Manifest := do
  let f ← fields? ["entries", "total_length"] j
  return ⟨← f.required 0 (list? Entry.ofJson?), ← f.required 1 word64?⟩

end Manifest

namespace Properties

def toJson (ps : Properties) : Json :=
  record [("props", record (ps.entries.map fun e => (e.1, .text e.2)))]

/-- An object of texts as properties; the last value of a key counts. -/
def ofObject? : Json → Option Properties
  | .object members => do
    let members ← textMembers? members
    return SortedMap.ofList (← members.mapM fun (k, j) => (string? j).map (k, ·))
  | _ => none

def ofJson? (j : Json) : Option Properties := do
  let f ← fields? ["props"] j
  f.required 0 ofObject?

end Properties

namespace Scenario

def reportName : Scenario → String
  | .standard => "standard"
  | .remoteMerge => "remote_merge"

def toJson (s : Scenario) : Json := .text s.reportName

def ofJson? (j : Json) : Option Scenario :=
  (variant? j).bind fun (name, content) =>
    if isUnit content then all.find? fun s => s.reportName = name else none

end Scenario

namespace MatrixPoint

def toJson (p : MatrixPoint) : Json :=
  record [("client_type", p.transport.toJson), ("scenario", p.scenario.toJson)]

def ofJson? (j : Json) : Option MatrixPoint := do
  let f ← fields? ["client_type", "scenario"] j
  return ⟨← f.required 0 Transport.ofJson?, ← f.required 1 Scenario.ofJson?⟩

end MatrixPoint
end OffloadCheck
