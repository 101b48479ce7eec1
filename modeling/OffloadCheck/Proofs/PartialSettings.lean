import Mathlib.Data.List.Nodup
import OffloadCheck.Proofs.SettingsFiles

/-! # Settings that a document mentions in part

A document decides what it mentions and nothing else. What it leaves out has its default, each
setting for itself and each size for itself where the table of sizes is there. In which order the
settings stand, and what else the document holds under other keys, does not matter. -/
namespace OffloadCheck

open OffloadCheck.Toml

/-! ## Keys that are chosen -/

namespace Toml

section Chosen

variable {ι : Type} (key : ι → String) (line : ι → Line) (chosen : ι → Bool)

/-- The members say of the keys of `ι` what the lines do, but only of those that are chosen. -/
def Mentions (ms : List (String × Value)) : Prop :=
  ∀ i, ms.lookup (key i) = if chosen i then some (line i).toValue else none

/-- The lines hold those of `ι` that are chosen, in any order among others with keys of their own. -/
structure Spells (lines : List (String × Line)) : Prop where
  nodup : (lines.map Prod.fst).Nodup
  all : ∀ i, chosen i = true → (key i, line i) ∈ lines
  only : ∀ i, chosen i = false → key i ∉ lines.map Prod.fst
  others : ∀ l ∈ lines, (∀ i, key i ≠ l.1) → IsBareKey l.1 ∧ l.2.Fits

variable {key line chosen} {lines : List (String × Line)} {ms : List (String × Value)}

theorem keys_values (lines : List (String × Line)) :
    (lines.map fun l => (l.1, l.2.toValue)).map Prod.fst = lines.map Prod.fst := by
  rw [List.map_map]
  rfl

theorem Spells.eq_line (h : Spells key line chosen lines) {l : String × Line} (hl : l ∈ lines)
    {i : ι} (hkey : key i = l.1) : l = (key i, line i) := by
  cases hchosen : chosen i with
  | false => exact absurd (hkey ▸ List.mem_map_of_mem hl) (h.only i hchosen)
  | true => exact List.inj_on_of_nodup_map h.nodup hl (h.all i hchosen) hkey.symm

/-- Lines that a document can hold if those that are chosen are such. -/
theorem Spells.fit (h : Spells key line chosen lines) (hkeys : ∀ i, IsBareKey (key i))
    (hfits : ∀ i, (line i).Fits) : ∀ l ∈ lines, IsBareKey l.1 ∧ l.2.Fits := by
  intro l hl
  by_cases hknown : ∃ i, key i = l.1
  · obtain ⟨i, hkey⟩ := hknown
    rw [h.eq_line hl hkey]
    exact ⟨hkeys i, hfits i⟩
  · exact h.others l hl (not_exists.1 hknown)

theorem Spells.mentions (h : Spells key line chosen lines) :
    Mentions key line chosen (lines.map fun l => (l.1, l.2.toValue)) := by
  intro i
  cases hchosen : chosen i with
  | false =>
    rw [if_neg Bool.false_ne_true]
    exact lookup_of_not_mem (by rw [keys_values]; exact h.only i hchosen)
  | true =>
    obtain ⟨before, after, hsplit⟩ := List.append_of_mem (h.all i hchosen)
    have hnodup := h.nodup
    rw [hsplit, List.map_append, List.map_cons] at hnodup
    rw [if_pos rfl, List.lookup_eq_some_iff, hsplit, List.map_append, List.map_cons]
    refine ⟨_, _, rfl, fun m hm => ?_⟩
    obtain ⟨l, hl, rfl⟩ := List.mem_map.1 hm
    -- A line before it has another key.
    have hne : l.1 ≠ key i :=
      (List.nodup_append.1 hnodup).2.2 _ (List.mem_map_of_mem hl) _ List.mem_cons_self
    simpa using hne.symm

/-- What is read under a key is what is mentioned, or else the default. -/
theorem Mentions.memberOr_eq (h : Mentions key line chosen ms) {α : Type}
    {decode : Value → Option α} (i : ι) {x default : α} (hx : decode (line i).toValue = some x) :
    memberOr ms (key i) decode default = some (if chosen i then x else default) := by
  rw [memberOr, h i]
  cases chosen i with
  | false => rfl
  | true => exact hx

end Chosen

end Toml

namespace ResourceSizes

inductive Field
  | mapMemory
  | reduceMemory
  | sortBuffer
deriving DecidableEq

def Field.key : Field → String
  | .mapMemory => "map_memory_mb"
  | .reduceMemory => "reduce_memory_mb"
  | .sortBuffer => "sort_buffer_mb"

def Field.line (r : ResourceSizes) : Field → Line
  | .mapMemory => .integer r.mapMemory.toNat
  | .reduceMemory => .integer r.reduceMemory.toNat
  | .sortBuffer => .integer r.sortBuffer.toNat

/-- The sizes that are chosen, and the defaults of the others. -/
def overlay (r : ResourceSizes) (chosen : Field → Bool) : ResourceSizes where
  mapMemory := if chosen .mapMemory then r.mapMemory else default.mapMemory
  reduceMemory := if chosen .reduceMemory then r.reduceMemory else default.reduceMemory
  sortBuffer := if chosen .sortBuffer then r.sortBuffer else default.sortBuffer

theorem isBareKey_key (field : Field) : IsBareKey field.key := by
  cases field <;> decide

theorem fits_line (r : ResourceSizes) (field : Field) : (field.line r).Fits := by
  cases field <;> exact Settings.fitsInt64_uint32 _

theorem ofToml?_mentions {r : ResourceSizes} {chosen : Field → Bool} {ms : List (String × Value)}
    (h : Mentions Field.key (Field.line r) chosen ms) :
    ofToml? (.table ms) = some (r.overlay chosen) := by
  unfold ofToml?
  refine Option.bind_eq_some_iff.2 ⟨_, h.memberOr_eq .mapMemory (Settings.uint32?_integer _), ?_⟩
  refine Option.bind_eq_some_iff.2
    ⟨_, h.memberOr_eq .reduceMemory (Settings.uint32?_integer _), ?_⟩
  refine Option.bind_eq_some_iff.2 ⟨_, h.memberOr_eq .sortBuffer (Settings.uint32?_integer _), ?_⟩
  rfl

end ResourceSizes

namespace Settings

/-- The settings but for the sizes. -/
inductive Field
  | artifactDir
  | artifactPrefix
  | sharedArtifactDir
  | outputRoot
  | stagingDir
  | maxApplicationPriority
  | resourcesDir
  | remoteStorageUri
  | reduceDirectMemory
  | requiredEnv
deriving DecidableEq

def Field.key : Field → String
  | .artifactDir => "artifact_dir"
  | .artifactPrefix => "artifact_prefix"
  | .sharedArtifactDir => "shared_artifact_dir"
  | .outputRoot => "output_root"
  | .stagingDir => "staging_dir"
  | .maxApplicationPriority => "max_application_priority"
  | .resourcesDir => "resources_dir"
  | .remoteStorageUri => "remote_storage_uri"
  | .reduceDirectMemory => "reduce_direct_memory_bytes"
  | .requiredEnv => "required_env"

def Field.line (s : Settings) : Field → Line
  | .artifactDir => .text s.artifactDir.text
  | .artifactPrefix => .text s.artifactPrefix
  | .sharedArtifactDir => .text s.sharedArtifactDir.text
  | .outputRoot => .text s.outputRoot.text
  | .stagingDir => .text s.stagingDir
  | .maxApplicationPriority => .integer s.maxApplicationPriority.toNat
  | .resourcesDir => .text s.resourcesDir.text
  | .remoteStorageUri => .text s.remoteStorageUri
  | .reduceDirectMemory => .integer s.reduceDirectMemory.toNat
  | .requiredEnv => .texts s.requiredEnv

/-- Which settings a document mentions; the sizes count only where `resources` is among them. -/
structure Selection where
  field : Field → Bool
  resources : Bool
  size : ResourceSizes.Field → Bool

namespace Selection

/-- The settings that are selected, and the defaults of the others. -/
def overlay (S : Selection) (s : Settings) : Settings where
  artifactDir := if S.field .artifactDir then s.artifactDir else default.artifactDir
  artifactPrefix := if S.field .artifactPrefix then s.artifactPrefix else default.artifactPrefix
  sharedArtifactDir :=
    if S.field .sharedArtifactDir then s.sharedArtifactDir else default.sharedArtifactDir
  outputRoot := if S.field .outputRoot then s.outputRoot else default.outputRoot
  stagingDir := if S.field .stagingDir then s.stagingDir else default.stagingDir
  maxApplicationPriority :=
    if S.field .maxApplicationPriority then s.maxApplicationPriority
    else default.maxApplicationPriority
  resourcesDir := if S.field .resourcesDir then s.resourcesDir else default.resourcesDir
  remoteStorageUri :=
    if S.field .remoteStorageUri then s.remoteStorageUri else default.remoteStorageUri
  reduceDirectMemory :=
    if S.field .reduceDirectMemory then s.reduceDirectMemory else default.reduceDirectMemory
  requiredEnv := if S.field .requiredEnv then s.requiredEnv else default.requiredEnv
  resources := if S.resources then s.resources.overlay S.size else default.resources

/-- The members of a document are the settings that are selected, next to others under other keys.
The sizes stand in a table. -/
structure Defines (S : Selection) (s : Settings) (ms : List (String × Value)) : Prop where
  fields : Mentions Field.key (Field.line s) S.field ms
  sizes : S.resources = true → ∃ inner, ms.lookup "resources" = some (.table inner) ∧
    Mentions ResourceSizes.Field.key (ResourceSizes.Field.line s.resources) S.size inner
  noSizes : S.resources = false → ms.lookup "resources" = none

variable {S : Selection} {s : Settings} {ms : List (String × Value)}

theorem Defines.resources_eq (h : S.Defines s ms) :
    memberOr ms "resources" ResourceSizes.ofToml? default.resources =
      some (if S.resources then s.resources.overlay S.size else default.resources) := by
  rw [memberOr]
  cases hresources : S.resources with
  | false =>
    rw [h.noSizes hresources]
    rfl
  | true =>
    obtain ⟨inner, htable, hinner⟩ := h.sizes hresources
    rw [htable]
    exact ResourceSizes.ofToml?_mentions hinner

theorem Defines.ofToml?_eq (h : S.Defines s ms) : ofToml? ms = some (S.overlay s) := by
  unfold ofToml?
  refine Option.bind_eq_some_iff.2 ⟨_, h.fields.memberOr_eq .artifactDir rfl, ?_⟩
  refine Option.bind_eq_some_iff.2 ⟨_, h.fields.memberOr_eq .artifactPrefix rfl, ?_⟩
  refine Option.bind_eq_some_iff.2 ⟨_, h.fields.memberOr_eq .sharedArtifactDir rfl, ?_⟩
  refine Option.bind_eq_some_iff.2 ⟨_, h.fields.memberOr_eq .outputRoot rfl, ?_⟩
  refine Option.bind_eq_some_iff.2 ⟨_, h.fields.memberOr_eq .stagingDir rfl, ?_⟩
  refine Option.bind_eq_some_iff.2
    ⟨_, h.fields.memberOr_eq .maxApplicationPriority (uint32?_integer _), ?_⟩
  refine Option.bind_eq_some_iff.2 ⟨_, h.fields.memberOr_eq .resourcesDir rfl, ?_⟩
  refine Option.bind_eq_some_iff.2 ⟨_, h.fields.memberOr_eq .remoteStorageUri rfl, ?_⟩
  refine Option.bind_eq_some_iff.2
    ⟨_, h.fields.memberOr_eq .reduceDirectMemory (uint64?_integer _), ?_⟩
  refine Option.bind_eq_some_iff.2 ⟨_, h.fields.memberOr_eq .requiredEnv (strings?_array _), ?_⟩
  refine Option.bind_eq_some_iff.2 ⟨_, h.resources_eq, ?_⟩
  rfl

/-- A text whose document defines the settings that are selected, and no others. -/
def DefinedBy (S : Selection) (s : Settings) (text : String) : Prop :=
  ∃ ms, Toml.parse? text = some ms ∧ S.Defines s ms

/-- A text of lines, in any order, with the table of sizes behind them if they are selected. -/
inductive Spelled (S : Selection) (s : Settings) : String → Prop
  | withoutSizes {top : List (String × Line)} : S.resources = false →
      Spells Field.key (Field.line s) S.field top → "resources" ∉ top.map Prod.fst →
      Spelled S s (String.ofList (renderLines top))
  | withSizes {top below : List (String × Line)} : S.resources = true →
      Spells Field.key (Field.line s) S.field top → "resources" ∉ top.map Prod.fst →
      Spells ResourceSizes.Field.key (ResourceSizes.Field.line s.resources) S.size below →
      Spelled S s (render top "resources" below)

end Selection

theorem isBareKey_key (field : Field) : IsBareKey field.key := by
  cases field <;> decide

theorem key_ne_resources (field : Field) : field.key ≠ "resources" := by
  cases field <;> decide

theorem fits_line {s : Settings} (h : s.reduceDirectMemory.toNat ≤ maxInteger) (field : Field) :
    (field.line s).Fits := by
  cases field with
  | maxApplicationPriority => exact fitsInt64_uint32 _
  | reduceDirectMemory => exact fitsInt64_of_le h
  | _ => trivial

namespace Selection

variable {S : Selection} {s : Settings} {text : String}

theorem Spelled.definedBy (hspelled : S.Spelled s text)
    (hmemory : s.reduceDirectMemory.toNat ≤ maxInteger) : S.DefinedBy s text := by
  cases hspelled with
  | @withoutSizes top hresources htop hnew =>
    rw [← keys_values] at hnew
    refine ⟨_, parse?_lines (htop.fit isBareKey_key (fits_line hmemory)) htop.nodup,
      htop.mentions, fun h => ?_, fun _ => lookup_of_not_mem hnew⟩
    rw [hresources] at h
    cases h
  | @withSizes top below hresources htop hnew hbelow =>
    refine ⟨_, parse?_render (htop.fit isBareKey_key (fits_line hmemory)) (by decide)
      (hbelow.fit ResourceSizes.isBareKey_key (ResourceSizes.fits_line _)) htop.nodup hnew
      hbelow.nodup, fun field => ?_, fun _ => ?_, fun h => ?_⟩
    · rw [List.lookup_append, htop.mentions field]
      have hother : [("resources", Value.table (below.map fun l => (l.1, l.2.toValue)))].lookup
          field.key = none := lookup_of_not_mem (by simpa using key_ne_resources field)
      rw [hother, Option.or_none]
    · rw [← keys_values] at hnew
      exact ⟨_, lookup_behind hnew _, hbelow.mentions⟩
    · rw [hresources] at h
      cases h

end Selection

/-- A text in which some of the settings are defined overrides the defaults of these and of nothing
else, whatever the order and whatever other keys it holds. What is read is returned if it is accepted
and else refused for what is wrong with it. If the direct memory is a number that a document can
hold, every arrangement of the selected lines and of others is such a text. -/
theorem partial_text_overrides_mentioned (s : Settings) (S : Selection)
    (hmemory : s.reduceDirectMemory.toNat ≤ maxInteger) :
    (∀ text, S.DefinedBy s text →
      read? text = some (S.overlay s) ∧
      (parse text = .ok (S.overlay s) ↔ (S.overlay s).validate = .ok ()) ∧
      ∀ fault, (S.overlay s).fault? = some fault →
        parse text = .error (.configuration fault.message)) ∧
    ∀ text, S.Spelled s text → S.DefinedBy s text := by
  refine ⟨?_, fun text hspelled => hspelled.definedBy hmemory⟩
  rintro text ⟨ms, hparse, hdefines⟩
  have hread : read? text = some (S.overlay s) := by
    rw [read?, hparse]
    exact hdefines.ofToml?_eq
  have hparsed : parse text = (S.overlay s).validate.map fun _ => S.overlay s := by
    rw [parse, hread]
  refine ⟨hread, ?_, fun fault hfault => ?_⟩
  · rw [hparsed]
    cases (S.overlay s).validate with
    | ok _ => exact iff_of_true rfl rfl
    | error _ =>
      constructor
      · intro h
        cases h
      · intro h
        cases h
  · rw [hparsed, validate, hfault]
    rfl

/-- The prefix, the environment and one of the sizes. -/
def fewSelected : Selection where
  field f := f = .artifactPrefix || f = .requiredEnv
  resources := true
  size f := f = .mapMemory

/-- Settings of which not all that differ from the defaults are selected. -/
def fewSettings : Settings :=
  { default with
    artifactPrefix := "client", requiredEnv := [], stagingDir := "/elsewhere"
    resources := ⟨7, 8, 9⟩ }

/-- The selected settings out of order, with a key in each table that is not known. -/
def fewTop : List (String × Line) :=
  [("note", .text "partial"), ("required_env", .texts []), ("artifact_prefix", .text "client")]

def fewSizes : List (String × Line) := [("spare_mb", .text "1"), ("map_memory_mb", .integer 7)]

theorem spells_fewTop : Spells Field.key (Field.line fewSettings) fewSelected.field fewTop where
  nodup := by decide
  all field := by cases field <;> decide
  only field := by cases field <;> decide
  others l hl _ := by
    simp only [fewTop, List.mem_cons, List.not_mem_nil, or_false] at hl
    rcases hl with rfl | rfl | rfl
    all_goals exact ⟨by decide, trivial⟩

theorem spells_fewSizes : Spells ResourceSizes.Field.key
    (ResourceSizes.Field.line fewSettings.resources) fewSelected.size fewSizes where
  nodup := by decide
  all field := by cases field <;> decide
  only field := by cases field <;> decide
  others l hl _ := by
    simp only [fewSizes, List.mem_cons, List.not_mem_nil, or_false] at hl
    rcases hl with rfl | rfl
    · exact ⟨by decide, trivial⟩
    · exact ⟨by decide, fitsInt64_of_le (by decide)⟩

/-- What is not selected keeps its default, in the table of sizes too. -/
theorem parse_few_settings : fewSettings.reduceDirectMemory.toNat ≤ maxInteger ∧
    parse (render fewTop "resources" fewSizes) = .ok { default with
      artifactPrefix := "client", requiredEnv := [], resources := ⟨7, 2048, 128⟩ } := by
  have hmemory : fewSettings.reduceDirectMemory.toNat ≤ maxInteger := by decide
  obtain ⟨hparse, hspelled⟩ := partial_text_overrides_mentioned fewSettings fewSelected hmemory
  have htext : fewSelected.Spelled fewSettings (render fewTop "resources" fewSizes) :=
    .withSizes rfl spells_fewTop (by decide) spells_fewSizes
  obtain ⟨_, haccepted, _⟩ := hparse _ (hspelled _ htext)
  have hvalid : (fewSelected.overlay fewSettings).validate = .ok () :=
    (validate_eq_ok_iff _).2 (by decide)
  exact ⟨hmemory, haccepted.2 hvalid⟩

end Settings
end OffloadCheck
