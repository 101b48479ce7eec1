import OffloadCheck.Proofs.JsonText
import OffloadCheck.Proofs.Moments
import OffloadCheck.Report.Outcome
import OffloadCheck.Report.Settings

/-! # Reports and the values they stand for

The JSON form of a value is faithful when its text loses nothing and it decodes to the value. That
is shown for the parts of a value before the value itself, and what is faithful is read back from
both texts. -/
namespace OffloadCheck

open Json

namespace Json

/-- The JSON form of a value is written with nothing lost and decodes to the value. -/
structure Faithful {α : Type} (encode : α → Json) (decode : Json → Option α) (v : α) : Prop where
  plain : (encode v).Plain
  decoded : decode (encode v) = some v

/-- Both texts of a value are read as the value. -/
def ReadsBack {α : Type} (encode : α → Json) (decode : Json → Option α) (v : α) : Prop :=
  (parse? (encode v).render).bind decode = some v ∧ (parse? (encode v).pretty).bind decode = some v

section

variable {α : Type} {encode : α → Json} {decode : Json → Option α}

theorem Faithful.readsBack {v : α} (h : Faithful encode decode v) : ReadsBack encode decode v := by
  constructor
  · rw [h.plain.parse?_render, Option.bind_some, h.decoded]
  · rw [h.plain.parse?_pretty, Option.bind_some, h.decoded]

/-! ## Single values and lists -/

theorem faithful_text (s : String) : Faithful .text string? s := ⟨.text s, rfl⟩

theorem natUpTo?_nat {max n : Nat} (h : n ≤ max) : natUpTo? max (.nat n) = some n := by
  simp [natUpTo?, nat, Text.decimal?_toDigits, Option.filter, h]

theorem faithful_word64 {n : Nat} (h : n < UInt64.size) : Faithful .nat word64? n :=
  ⟨.int n, natUpTo?_nat (Nat.le_sub_one_of_lt h)⟩

theorem faithful_uint32 (n : UInt32) : Faithful (fun n : UInt32 => .nat n.toNat) uint32? n := by
  refine ⟨.int n.toNat, ?_⟩
  rw [uint32?, natUpTo?_nat (Nat.le_sub_one_of_lt n.toNat_lt), Option.map_some, UInt32.ofNat_toNat]

theorem faithful_byte (n : UInt8) : Faithful (fun n : UInt8 => .nat n.toNat) byte? n := by
  refine ⟨.int n.toNat, ?_⟩
  rw [byte?, natUpTo?_nat (Nat.le_sub_one_of_lt n.toNat_lt), Option.map_some, UInt8.ofNat_toNat]

theorem int?_int (n : Int) : int? (.int n) = some n := by
  cases n with
  | ofNat n =>
    obtain ⟨c, ds, hdigits, hc, _⟩ := Text.toDigits_starts n
    have hminus : c ≠ '-' := Text.ne_of_isDigit hc rfl
    have hread := Text.decimal?_toDigits n
    rw [int, Text.ofInt, Text.toList_ofNat]
    rw [hdigits] at hread ⊢
    simp [int?, hminus, hread]
  | negSucc n =>
    rw [int, Text.toList_ofInt_negSucc]
    simp only [int?, Text.decimal?_toDigits, Option.bind_some]
    rfl

theorem faithful_int32 (n : Int32) : Faithful (fun n : Int32 => .int n.toInt) int32? n := by
  refine ⟨.int n.toInt, ?_⟩
  have hrange : Int32.minValue.toInt ≤ n.toInt ∧ n.toInt ≤ Int32.maxValue.toInt :=
    ⟨n.minValue_le_toInt, n.toInt_le⟩
  rw [int32?, int?_int, Option.bind_some, if_pos hrange, Int32.ofInt_toInt]

theorem Faithful.list {vs : List α} (h : ∀ v ∈ vs, Faithful encode decode v) :
    Faithful (fun vs => .array (vs.map encode)) (list? decode) vs := by
  refine ⟨.array (List.forall_mem_map.2 fun v hv => (h v hv).plain), ?_⟩
  induction vs with
  | nil => rfl
  | cons v vs ih =>
    obtain ⟨hv, hvs⟩ := List.forall_mem_cons.1 h
    have hrest : (vs.map encode).mapM decode = some vs := ih hvs
    simp [list?, hv.decoded, hrest]

end

/-! ## Records and variants -/

theorem textMembers?_record (ms : List (String × Json)) :
    textMembers? (ms.map fun m => (some m.1, m.2)) = some ms := by
  induction ms with
  | nil => rfl
  | cons m ms ih =>
    have hrest : (ms.map fun m => (some m.1, m.2)).mapM _ = some ms := ih
    simp [textMembers?, hrest]

theorem lookup_of_mem {ms : List (String × Json)} (h : (ms.map Prod.fst).Nodup)
    {m : String × Json} (hm : m ∈ ms) : ms.lookup m.1 = some m.2 := by
  induction ms with
  | nil => cases hm
  | cons m' ms ih =>
    obtain ⟨hnew, hrest⟩ := List.nodup_cons.1 h
    rcases List.mem_cons.1 hm with rfl | hm
    · exact List.lookup_cons_self
    · have hne : (m.1 == m'.1) = false :=
        beq_false_of_ne fun heq => hnew (heq ▸ List.mem_map_of_mem hm)
      rw [List.lookup_cons, hne]
      exact ih hrest hm

/-- A record is seen as the fields that it was written with. -/
theorem fields?_record {names : List String} {ms : List (String × Json)}
    (hnames : ms.map Prod.fst = names) (h : names.Nodup) :
    fields? names (record ms) = some ⟨false, ms.map fun m => some m.2⟩ := by
  subst hnames
  have honce : (ms.map Prod.fst).all fun n => ms.countP (fun m => m.1 = n) ≤ 1 := by
    refine List.all_eq_true.2 fun n _ => decide_eq_true ?_
    have hcount := List.nodup_iff_count.1 h n
    rw [List.count_eq_countP, List.countP_map] at hcount
    exact hcount
  have hvalues : (ms.map Prod.fst).map (fun n => ms.lookup n) = ms.map fun m => some m.2 := by
    rw [List.map_map]
    exact List.map_congr_left fun m hm => lookup_of_mem h hm
  rw [record, fields?, textMembers?_record, Option.bind_some, if_pos honce, hvalues]

/-- How each round trip below takes the members of a record, by their place among the names. -/
@[simp] theorem required_mk {α : Type} (positional : Bool) (values : List (Option Json)) (i : Nat)
    (decode : Json → Option α) :
    Fields.required ⟨positional, values⟩ i decode = (values[i]?).join.bind decode := rfl

@[simp] theorem variant?_text (name : String) : variant? (.text name) = some (name, none) := rfl

@[simp] theorem variant?_record (name : String) (held : Json) :
    variant? (record [(name, held)]) = some (name, some held) := rfl

@[simp] theorem string?_text (s : String) : string? (.text s) = some s := rfl

@[simp] theorem bool?_bool (b : Bool) : bool? (.bool b) = some b := rfl

attribute [simp] Plain.null Plain.bool Plain.int Plain.text Plain.array Plain.record fields?_record

@[simp] theorem plain_nat (n : Nat) : (nat n).Plain := .int n

end Json

/-! ## Roles, modes and points -/

theorem Transport.faithful (t : Transport) : Faithful toJson ofJson? t := by
  refine ⟨.text _, ?_⟩
  cases t <;> rfl

theorem Scenario.faithful (s : Scenario) : Faithful toJson ofJson? s := by
  refine ⟨.text _, ?_⟩
  cases s <;> rfl

theorem Role.faithful (r : Role) : Faithful toJson ofJson? r := by
  refine ⟨.text _, ?_⟩
  cases r <;> decide

theorem MatrixPoint.faithful (p : MatrixPoint) : Faithful toJson ofJson? p := by
  have htransport := p.transport.faithful
  have hscenario := p.scenario.faithful
  constructor
  · simp [toJson, htransport.plain, hscenario.plain]
  · simp [ofJson?, toJson, htransport.decoded, hscenario.decoded]

theorem Mode.faithful (m : Mode) : Faithful toJson ofJson? m := by
  cases m with
  | baseline => exact ⟨.text _, by decide⟩
  | offload t m s =>
    have htransport := t.faithful
    constructor
    · simp [toJson, htransport.plain]
    · simp [ofJson?, toJson, htransport.decoded]

theorem ResourceSizes.faithful (r : ResourceSizes) : Faithful toJson ofJson? r := by
  constructor
  · simp [toJson]
  · simp [ofJson?, toJson, Fields.defaulted, Fields.value?, (faithful_uint32 _).decoded]

/-! ## Listings and properties -/

theorem Entry.faithful {e : Entry} (h : e.length < UInt64.size) : Faithful toJson ofJson? e := by
  constructor
  · simp [toJson]
  · simp [ofJson?, toJson, (faithful_word64 h).decoded]

/-- Every number of a listing is one of 64 bits. -/
def Manifest.Fits (m : Manifest) : Prop :=
  (∀ e ∈ m.entries, e.length < UInt64.size) ∧ m.totalLength < UInt64.size

theorem Manifest.faithful {m : Manifest} (h : m.Fits) : Faithful toJson ofJson? m := by
  have hentries := Faithful.list fun e he => Entry.faithful (h.1 e he)
  constructor
  · simp [toJson, hentries.plain]
  · simp [ofJson?, toJson, hentries.decoded, (faithful_word64 h.2).decoded]

theorem Properties.faithful (ps : Properties) : Faithful toJson ofJson? ps := by
  have hplain : (record (ps.entries.map fun e => (e.1, .text e.2))).Plain := by
    refine .record fun m hm => ?_
    obtain ⟨e, _, rfl⟩ := List.mem_map.1 hm
    exact .text e.2
  have hentries (es : List (String × String)) :
      (es.map fun e => (e.1, text e.2)).mapM (fun m => (string? m.2).map (m.1, ·)) = some es := by
    induction es with
    | nil => rfl
    | cons e es ih => rw [List.map_cons, List.mapM_cons, ih]; rfl
  have hdecoded : ofObject? (record (ps.entries.map fun e => (e.1, .text e.2))) = some ps := by
    rw [record, ofObject?, textMembers?_record]
    simp only [Option.bind_eq_bind, Option.bind_some, hentries, SortedMap.ofList_entries]
    rfl
  constructor
  · simp [toJson, hplain]
  · simp [ofJson?, toJson, hdecoded]

/-! ## Verdicts -/

/-- Every number of a mismatch is one of 64 bits. -/
def ShapeMismatch.Fits : ShapeMismatch → Prop
  | .outputPresence _ _ => True
  | .fileCount r c => r < UInt64.size ∧ c < UInt64.size
  | .fileName i _ _ => i < UInt64.size

theorem ShapeMismatch.faithful {m : ShapeMismatch} (h : m.Fits) :
    Faithful toJson ofJson? m := by
  cases m with
  | outputPresence r c =>
    constructor
    · simp [toJson]
    · simp [ofJson?, toJson]
  | fileCount r c =>
    constructor
    · simp [toJson]
    · simp [ofJson?, toJson, (faithful_word64 h.1).decoded, (faithful_word64 h.2).decoded]
  | fileName i r c =>
    constructor
    · simp [toJson]
    · simp [ofJson?, toJson, (faithful_word64 h).decoded]

theorem Divergence.faithful (reading : Json.Reading) (d : Divergence) :
    Faithful toJson (ofJson? reading) d := by
  cases d with
  | byteDiffers r c =>
    constructor
    · simp [toJson]
    · simp [ofJson?, toJson, (faithful_byte _).decoded]
  | referenceLonger => exact ⟨.text _, by cases reading <;> decide⟩
  | candidateLonger => exact ⟨.text _, by cases reading <;> decide⟩

def Mismatch.Fits : Mismatch → Prop
  | .shape m => m.Fits
  | .content i _ offset _ => i < UInt64.size ∧ offset < UInt64.size
  | .aggregate r c => r < UInt64.size ∧ c < UInt64.size

theorem Mismatch.faithful (reading : Json.Reading) {m : Mismatch} (h : m.Fits) :
    Faithful toJson (ofJson? reading) m := by
  cases m with
  | shape m =>
    have hshape := ShapeMismatch.faithful h
    constructor
    · simp [toJson, hshape.plain]
    · simp [ofJson?, toJson, hshape.decoded]
  | content i name offset d =>
    have hdivergence := d.faithful reading
    constructor
    · simp [toJson, hdivergence.plain]
    · simp [ofJson?, toJson, (faithful_word64 h.1).decoded,
        (faithful_word64 h.2).decoded, hdivergence.decoded]
  | aggregate r c =>
    constructor
    · simp [toJson]
    · simp [ofJson?, toJson, (faithful_word64 h.1).decoded, (faithful_word64 h.2).decoded]

def Verdict.Fits : Verdict → Prop
  | .noOutput => True
  | .pass files bytes => files < UInt64.size ∧ bytes < UInt64.size
  | .fail m => m.Fits

/-- A kind and a detail behind it are read as they stand. -/
theorem Verdict.ofJson?_record (level : Nat) (name : String) (detail : Json) :
    ofJson? level (record [("verdict", .text name), ("detail", detail)]) =
      (Kind.ofName? name).bind fun k => ofDetail? .inPlace k detail := by
  rfl

theorem Verdict.ofDetail?_pass (reading : Json.Reading) (ms : List (String × Json)) :
    ofDetail? reading .pass (record ms) = do
      let f ← fields? ["files", "aggregate_bytes"] (record ms)
      return .pass (← f.required 0 word64?) (← f.required 1 word64?) := rfl

theorem Verdict.faithful (level : Nat) {v : Verdict} (h : v.Fits) :
    Faithful toJson (ofJson? level) v := by
  cases v with
  | noOutput =>
    constructor
    · simp [toJson]
    · rfl
  | pass files bytes =>
    constructor
    · simp [toJson]
    · rw [toJson, ofJson?_record]
      simp [Kind.ofName?, ofDetail?_pass, (faithful_word64 h.1).decoded,
        (faithful_word64 h.2).decoded]
  | fail m =>
    have hmismatch := Mismatch.faithful .inPlace h
    constructor
    · simp [toJson, hmismatch.plain]
    · rw [toJson, ofJson?_record]
      simp [Kind.ofName?, ofDetail?, hmismatch.decoded]

/-! ## Outcomes -/

/-- The times of an execution are moments. -/
def Execution.Fits (e : Execution) : Prop := e.startedAt.Valid ∧ e.finishedAt.Valid

theorem Execution.faithful {e : Execution} (h : e.Fits) : Faithful toJson ofJson? e := by
  have hrole := e.role.faithful
  have hdirectory : nullable? string? (orNull (e.outputDirectory.map fun p => .text p.text)) =
      some (e.outputDirectory.map Path.text) := by
    cases e.outputDirectory <;> rfl
  have hpath : e.outputDirectory.map (Path.mk ∘ Path.text) = e.outputDirectory := by
    cases e.outputDirectory <;> rfl
  have hplain : (orNull (e.outputDirectory.map fun p => .text p.text)).Plain := by
    cases e.outputDirectory with
    | none => exact .null
    | some p => exact .text p.text
  constructor
  · simp [toJson, hrole.plain, hplain]
  · simp [ofJson?, toJson, hrole.decoded, Fields.optional, Fields.value?, hdirectory, hpath,
      (faithful_int32 _).decoded, timestamp?, h.1.parse?_render, h.2.parse?_render]

def Candidate.Fits (c : Candidate) : Prop := c.execution.Fits ∧ c.verdict.Fits

theorem Candidate.faithful (level : Nat) {c : Candidate} (h : c.Fits) :
    Faithful toJson (ofJson? level) c := by
  have hexecution := Execution.faithful h.1
  have hverdict := Verdict.faithful (level + 1) h.2
  constructor
  · simp [toJson, hexecution.plain, hverdict.plain]
  · simp [ofJson?, toJson, hexecution.decoded, hverdict.decoded]

def Outcome.Fits (o : Outcome) : Prop := o.reference.Fits ∧ ∀ c ∈ o.candidates, c.Fits

theorem Outcome.faithful {o : Outcome} (h : o.Fits) : Faithful toJson ofJson? o := by
  have hpoint := o.point.faithful
  have hreference := Execution.faithful h.1
  have hcandidates := Faithful.list fun c hc => Candidate.faithful 3 (h.2 c hc)
  constructor
  · simp [toJson, hpoint.plain, hreference.plain, hcandidates.plain]
  · simp [ofJson?, toJson, hpoint.decoded, hreference.decoded, hcandidates.decoded]

/-! ## Settings -/

theorem Settings.faithful (s : Settings) : Faithful toJson ofJson? s := by
  have hresources := s.resources.faithful
  have hrequired := Faithful.list fun name (_ : name ∈ s.requiredEnv) => faithful_text name
  have hmemory := faithful_word64 s.reduceDirectMemory.toNat_lt
  constructor
  · simp [toJson, hresources.plain, hrequired.plain]
  · simp [ofJson?, toJson, keys, Fields.defaulted, Fields.value?, path?, hresources.decoded,
      hrequired.decoded, (faithful_uint32 _).decoded, hmemory.decoded]

/-! ## Reading back -/

/-- An outcome is read back from its report, and every value that reports and settings are made of
from its compact and its pretty text. -/
theorem report_readsBack :
    (∀ o : Outcome, o.Fits → (parse? o.report).bind Outcome.ofJson? = some o) ∧
    (∀ o : Outcome, o.Fits → ReadsBack Outcome.toJson Outcome.ofJson? o) ∧
    (∀ (level : Nat) (c : Candidate), c.Fits →
      ReadsBack Candidate.toJson (Candidate.ofJson? level) c) ∧
    (∀ e : Execution, e.Fits → ReadsBack Execution.toJson Execution.ofJson? e) ∧
    (∀ (level : Nat) (v : Verdict), v.Fits → ReadsBack Verdict.toJson (Verdict.ofJson? level) v) ∧
    (∀ (reading : Json.Reading) (m : Mismatch), m.Fits →
      ReadsBack Mismatch.toJson (Mismatch.ofJson? reading) m) ∧
    (∀ m : ShapeMismatch, m.Fits → ReadsBack ShapeMismatch.toJson ShapeMismatch.ofJson? m) ∧
    (∀ (reading : Json.Reading) (d : Divergence),
      ReadsBack Divergence.toJson (Divergence.ofJson? reading) d) ∧
    (∀ m : Manifest, m.Fits → ReadsBack Manifest.toJson Manifest.ofJson? m) ∧
    (∀ e : Entry, e.length < UInt64.size → ReadsBack Entry.toJson Entry.ofJson? e) ∧
    (∀ m : Mode, ReadsBack Mode.toJson Mode.ofJson? m) ∧
    (∀ r : Role, ReadsBack Role.toJson Role.ofJson? r) ∧
    (∀ s : Scenario, ReadsBack Scenario.toJson Scenario.ofJson? s) ∧
    (∀ p : MatrixPoint, ReadsBack MatrixPoint.toJson MatrixPoint.ofJson? p) ∧
    (∀ ps : Properties, ReadsBack Properties.toJson Properties.ofJson? ps) ∧
    (∀ r : ResourceSizes, ReadsBack ResourceSizes.toJson ResourceSizes.ofJson? r) ∧
    (∀ s : Settings, ReadsBack Settings.toJson Settings.ofJson? s) :=
  ⟨fun _ h => (Outcome.faithful h).readsBack.2, fun _ h => (Outcome.faithful h).readsBack,
    fun level _ h => (Candidate.faithful level h).readsBack,
    fun _ h => (Execution.faithful h).readsBack,
    fun level _ h => (Verdict.faithful level h).readsBack,
    fun reading _ h => (Mismatch.faithful reading h).readsBack,
    fun _ h => (ShapeMismatch.faithful h).readsBack,
    fun reading d => (d.faithful reading).readsBack, fun _ h => (Manifest.faithful h).readsBack,
    fun _ h => (Entry.faithful h).readsBack, fun m => m.faithful.readsBack,
    fun r => r.faithful.readsBack, fun s => s.faithful.readsBack, fun p => p.faithful.readsBack,
    fun ps => ps.faithful.readsBack, fun r => r.faithful.readsBack, fun s => s.faithful.readsBack⟩

/-- A report with a leap second, the greatest offset and a name full of escapes. -/
theorem report_readsBack_escaped :
    let reference : Execution :=
      ⟨.reference, none, -1, ⟨-44, 2, 29, 0, 0⟩, ⟨2016, 12, 31, 86399, 1000000001⟩⟩
    let verdict : Verdict :=
      .fail (.content 0 "\"\\\n\x01é" (UInt64.size - 1) (.byteDiffers 0 255))
    let o : Outcome :=
      ⟨⟨.grpcNetty, .remoteMerge⟩, reference,
        [⟨{ reference with outputDirectory := some ⟨"/out"⟩ }, verdict⟩]⟩
    (parse? o.report).bind Outcome.ofJson? = some o := by
  have hmoments : (⟨-44, 2, 29, 0, 0⟩ : Timestamp).Valid ∧
      (⟨2016, 12, 31, 86399, 1000000001⟩ : Timestamp).Valid := by decide
  exact report_readsBack.1 _ ⟨hmoments, by
    rintro c hc
    obtain rfl := List.mem_singleton.1 hc
    exact ⟨hmoments, by decide, by decide⟩⟩

end OffloadCheck
