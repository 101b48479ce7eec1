import OffloadCheck.Path.Basic
import OffloadCheck.Run.Plan

/-! # Where joined paths lie

A relative path put behind another one lies below it, component by component, and the names among
the components of a path are plain: neither empty nor `.` or `..`, and without a slash. The output
directories of runs of different roles lie apart: their first names below the output root begin with
different labels, whatever the identifiers of the runs are. -/
namespace OffloadCheck

namespace Text

theorem splitOn_append (sep : Char) (as bs : List Char) :
    splitOn sep (as ++ sep :: bs) = splitOn sep as ++ splitOn sep bs := by
  induction as with
  | nil => simp [splitOn]
  | cons a as ih =>
    by_cases ha : a = sep
    · simp [splitOn, ha, ih]
    · rw [List.cons_append, splitOn, splitOn, if_neg ha, if_neg ha, ih]
      obtain ⟨word, words, hwords⟩ := List.exists_cons_of_ne_nil (splitOn_ne_nil sep as)
      rw [hwords]
      rfl

/-- What a text begins with is what its first piece begins with, up to the first separator. -/
theorem splitOn_of_not_mem {sep : Char} {start : List Char} (h : sep ∉ start) (rest : List Char) :
    ∃ word words, splitOn sep (start ++ rest) = (start ++ word) :: words := by
  induction start with
  | nil => exact List.exists_cons_of_ne_nil (splitOn_ne_nil sep rest)
  | cons c start ih =>
    rw [List.mem_cons, not_or] at h
    obtain ⟨word, words, hwords⟩ := ih h.2
    refine ⟨word, words, ?_⟩
    rw [List.cons_append, splitOn, if_neg (Ne.symm h.1), hwords]
    rfl

end Text

open Text

namespace Path

/-- The components of a text behind a slash. -/
def innerComponents (cs : List Char) : Location := (splitOn '/' cs).filterMap component?

/-- A text that neither starts at the root nor with `.`. -/
structure Relative (q : String) : Prop where
  notRooted : q.toList.head? ≠ some '/'
  notCurrent : (splitOn '/' q.toList).head? ≠ some ['.']

theorem Relative.componentsOf {q : String} (h : Relative q) :
    componentsOf q.toList = innerComponents q.toList := by
  rw [Path.componentsOf, if_neg h.notRooted]
  exact if_neg h.notCurrent

/-- The components of pieces between slashes. -/
def ofPieces (rooted : Bool) (pieces : List (List Char)) : Location :=
  if rooted then .root :: pieces.filterMap component?
  else if pieces.head? = some ['.'] then .current :: pieces.filterMap component?
  else pieces.filterMap component?

theorem componentsOf_eq_ofPieces (cs : List Char) :
    componentsOf cs = ofPieces (cs.head? == some '/') (splitOn '/' cs) := by
  unfold componentsOf ofPieces
  simp only [beq_iff_eq]

theorem ofPieces_append (rooted : Bool) {pieces : List (List Char)} (h : pieces ≠ [])
    (more : List (List Char)) :
    ofPieces rooted (pieces ++ more) = ofPieces rooted pieces ++ more.filterMap component? := by
  obtain ⟨first, others, rfl⟩ := List.exists_cons_of_ne_nil h
  unfold ofPieces
  rw [List.filterMap_append, List.cons_append, List.head?_cons, List.head?_cons]
  split
  · rfl
  · split
    · rfl
    · rfl

theorem componentsOf_append (as bs : List Char) :
    componentsOf (as ++ '/' :: bs) =
      ofPieces ((as ++ ['/']).head? == some '/') (splitOn '/' as) ++ innerComponents bs := by
  have hhead : (as ++ '/' :: bs).head? = (as ++ ['/']).head? := by cases as <;> rfl
  rw [componentsOf_eq_ofPieces, splitOn_append, hhead, ofPieces_append _ (splitOn_ne_nil '/' as)]
  rfl

/-- A slash at the end leaves no component. -/
theorem componentsOf_trailing {as : List Char} (h : as ≠ []) :
    componentsOf (as ++ ['/']) = componentsOf as := by
  have hinner : innerComponents [] = [] := rfl
  have hhead : (as ++ ['/']).head? = as.head? := by
    obtain ⟨a, as, rfl⟩ := List.exists_cons_of_ne_nil h
    rfl
  rw [componentsOf_append, hinner, List.append_nil, hhead, ← componentsOf_eq_ofPieces]

theorem componentsOf_slash (as bs : List Char) :
    componentsOf (as ++ '/' :: bs) = componentsOf (as ++ ['/']) ++ innerComponents bs := by
  have hinner : innerComponents [] = [] := rfl
  rw [componentsOf_append, componentsOf_append as [], hinner, List.append_nil]

/-- A relative path lies below the path it is seen from. -/
theorem components_join (p : Path) {q : String} (h : Relative q) :
    (p.join q).components = p.components ++ componentsOf q.toList := by
  rw [h.componentsOf, join_eq, joinText, if_neg h.notRooted]
  by_cases hempty : p.text.toList = []
  · have hp : p.components = [] := by
      rw [components_eq, hempty]
      rfl
    rw [if_pos (by simp [hempty]), hp, List.nil_append, ← h.componentsOf, components_eq]
    simp [String.toList_append, hempty]
  · obtain ⟨front, last, hlast⟩ : ∃ front last, p.text.toList = front ++ [last] :=
      ⟨_, _, (List.dropLast_concat_getLast hempty).symm⟩
    by_cases hslash : last = '/'
    · subst hslash
      rw [if_pos (by simp [hlast])]
      have htext : (p.text ++ q).toList = front ++ '/' :: q.toList := by
        rw [String.toList_append, hlast]
        simp
      rw [components_eq, components_eq, htext, hlast, componentsOf_slash]
    · rw [if_neg (by simp [hlast, hslash])]
      have htext : (p.text ++ "/" ++ q).toList = p.text.toList ++ '/' :: q.toList := by
        rw [String.toList_append, String.toList_append]
        simp
      rw [components_eq, components_eq, htext, componentsOf_slash, componentsOf_trailing hempty]

/-- The name is a single component of a path, as file names are. -/
def IsPlain {ν : Type} [PathText ν] (name : ν) : Prop :=
  PathText.components name = [.normal name]

instance {ν : Type} [PathText ν] [DecidableEq ν] (name : ν) : Decidable (IsPlain name) :=
  inferInstanceAs (Decidable (PathText.components name = [.normal name]))

theorem isPlain_iff {name : String} : IsPlain name ↔ componentsOf name.toList = [.normal name] :=
  Iff.rfl

theorem IsPlain.relative {name : String} (h : IsPlain name) : Relative name := by
  rw [isPlain_iff, componentsOf] at h
  constructor
  · intro hroot
    rw [if_pos hroot] at h
    cases h
  · intro hcurrent
    by_cases hroot : name.toList.head? = some '/'
    · rw [if_pos hroot] at h
      cases h
    · rw [if_neg hroot] at h
      rw [if_pos hcurrent] at h
      cases h

/-- A file with a plain name lies directly in its directory. -/
theorem components_join_plain (dir : Path) {name : String} (h : IsPlain name) :
    (dir.join name).components = dir.components ++ [.normal name] := by
  rw [components_join dir h.relative, isPlain_iff.1 h]

theorem isPlain_markerName : IsPlain "_SUCCESS" := by decide

end Path

/-! ## Plain names -/

namespace Text

theorem splitOn_eq_singleton {sep : Char} {cs : List Char} (h : sep ∉ cs) :
    splitOn sep cs = [cs] := by
  induction cs with
  | nil => rfl
  | cons c cs ih =>
    rw [List.mem_cons, not_or] at h
    rw [splitOn, if_neg (Ne.symm h.1), ih h.2]

theorem not_mem_of_mem_splitOn {sep : Char} {cs word : List Char} (h : word ∈ splitOn sep cs) :
    sep ∉ word := by
  induction cs generalizing word with
  | nil =>
    obtain rfl := List.mem_singleton.1 h
    exact List.not_mem_nil
  | cons c cs ih =>
    obtain ⟨first, others, hcs⟩ := List.exists_cons_of_ne_nil (splitOn_ne_nil sep cs)
    rw [hcs] at ih
    rw [splitOn, hcs] at h
    split at h
    · rcases List.mem_cons.1 h with rfl | hword
      · exact List.not_mem_nil
      · exact ih hword
    · next hc =>
      rcases List.mem_cons.1 h with rfl | hword
      · rw [List.mem_cons, not_or]
        exact ⟨Ne.symm hc, ih List.mem_cons_self⟩
      · exact ih (List.mem_cons_of_mem _ hword)

end Text

namespace Path

/-- A piece that stands for itself is neither empty nor one of the dots. -/
theorem component?_eq_normal {piece : List Char} {name : String}
    (h : component? piece = some (.normal name)) :
    piece = name.toList ∧ piece ≠ [] ∧ piece ≠ ['.'] ∧ piece ≠ ['.', '.'] := by
  unfold component? at h
  split at h
  · cases h
  · cases h
  · cases h
  · next hempty hdot hdots =>
    cases h
    exact ⟨String.toList_ofList.symm, hempty, hdot, hdots⟩

theorem component?_of_ne {piece : List Char} (hempty : piece ≠ []) (hdot : piece ≠ ['.'])
    (hdots : piece ≠ ['.', '.']) : component? piece = some (.normal (String.ofList piece)) := by
  unfold component?
  split
  · exact absurd rfl hempty
  · exact absurd rfl hdot
  · exact absurd rfl hdots
  · rfl

/-- Such a piece is a plain name. -/
theorem isPlain_ofList {piece : List Char} (hslash : '/' ∉ piece) (hempty : piece ≠ [])
    (hdot : piece ≠ ['.']) (hdots : piece ≠ ['.', '.']) : IsPlain (String.ofList piece) := by
  have hhead : piece.head? ≠ some '/' := fun h => hslash (List.mem_of_mem_head? h)
  rw [isPlain_iff, String.toList_ofList, componentsOf, if_neg hhead,
    Text.splitOn_eq_singleton hslash]
  rw [List.head?_cons, if_neg (fun h => hdot (Option.some.inj h)), List.filterMap_cons,
    component?_of_ne hempty hdot hdots]
  rfl

/-- A name among the components of a text is one of its pieces. -/
theorem mem_splitOn_of_mem_componentsOf {cs : List Char} {name : String}
    (h : .normal name ∈ componentsOf cs) : name.toList ∈ Text.splitOn '/' cs ∧
      name.toList ≠ [] ∧ name.toList ≠ ['.'] ∧ name.toList ≠ ['.', '.'] := by
  have hbody : .normal name ∈ (Text.splitOn '/' cs).filterMap component? := by
    unfold componentsOf at h
    dsimp only at h
    split at h
    · simpa using h
    · split at h
      · simpa using h
      · exact h
  obtain ⟨piece, hpiece, hname⟩ := List.mem_filterMap.1 hbody
  obtain ⟨rfl, hplain⟩ := component?_eq_normal hname
  exact ⟨hpiece, hplain⟩

theorem isPlain_of_mem_componentsOf {cs : List Char} {name : String}
    (h : .normal name ∈ componentsOf cs) : IsPlain name := by
  obtain ⟨hpiece, hempty, hdot, hdots⟩ := mem_splitOn_of_mem_componentsOf h
  have hplain := isPlain_ofList (Text.not_mem_of_mem_splitOn hpiece) hempty hdot hdots
  rwa [String.ofList_toList] at hplain

/-- A plain name is one piece between slashes, and not an empty one. -/
theorem IsPlain.piece {name : String} (h : IsPlain name) :
    '/' ∉ name.toList ∧ name.toList ≠ [] ∧ name.toList ≠ ['.'] ∧ name.toList ≠ ['.', '.'] := by
  have hmem : .normal name ∈ componentsOf name.toList := by
    rw [isPlain_iff.1 h]
    exact List.mem_singleton_self _
  obtain ⟨hpiece, hplain⟩ := mem_splitOn_of_mem_componentsOf hmem
  exact ⟨Text.not_mem_of_mem_splitOn hpiece, hplain⟩

end Path

/-- The laws of what paths are given as: the names among the components of a path are plain, a plain
text put behind a path is one more component, and a text is shown as it is. -/
class LawfulPathText (ν : Type) [PathText ν] : Prop where
  isPlain_of_mem : ∀ {p name : ν}, .normal name ∈ PathText.components p → Path.IsPlain name
  components_join : ∀ (p : ν) {name : String}, Path.IsPlain (PathText.ofText name : ν) →
    PathText.components (PathText.join p name) =
      PathText.components p ++ [.normal (PathText.ofText name)]
  shown_ofText : ∀ name : String, PathText.shown (PathText.ofText name : ν) = name

namespace PathText

variable {ν : Type} [PathText ν] {name : ν}

/-- What is shown of the name stands for the name itself, as it does for text. -/
def Legible (name : ν) : Prop := ofText (shown name) = name

theorem Legible.shown_eq_iff [LawfulPathText ν] (h : Legible name) {text : String} :
    shown name = text ↔ name = ofText text := by
  constructor
  · rintro rfl
    exact h.symm
  · rintro rfl
    exact LawfulPathText.shown_ofText text

theorem Legible.eq_of_shown {other : ν} (h : Legible name) (hother : Legible other)
    (heq : shown name = shown other) : name = other := by
  rw [← h, heq, hother]

theorem legible_ofText [LawfulPathText ν] (text : String) : Legible (ofText text : ν) :=
  congrArg ofText (LawfulPathText.shown_ofText text)

end PathText

instance : LawfulPathText String where
  isPlain_of_mem := Path.isPlain_of_mem_componentsOf
  components_join p _ h := Path.components_join_plain ⟨p⟩ h
  shown_ofText _ := rfl

namespace Path

variable {ν : Type} [PathText ν] [LawfulPathText ν]

/-- The names among the components of a path are plain. -/
theorem isPlain_of_mem_components {p : Path ν} {name : ν} (h : .normal name ∈ p.components) :
    IsPlain name :=
  LawfulPathText.isPlain_of_mem h

/-- A file of a plain text as its name lies directly in its directory. -/
theorem components_join_text (dir : Path ν) {name : String}
    (h : IsPlain (PathText.ofText name : ν)) :
    (dir.join name).components = dir.components ++ [.normal (PathText.ofText name)] :=
  LawfulPathText.components_join dir.text h

end Path

/-! ## Lists that lie apart -/

/-- Neither of two lists begins with the other. -/
def Apart {α : Type} (as bs : List α) : Prop := ¬ as <+: bs ∧ ¬ bs <+: as

namespace Apart

variable {α : Type} {as bs : List α}

theorem symm (h : Apart as bs) : Apart bs as := ⟨h.2, h.1⟩

/-- What begins with one of them does not begin with the other. -/
theorem append_ne (h : Apart as bs) (cs ds : List α) : as ++ cs ≠ bs ++ ds := by
  intro heq
  have has : as <+: bs ++ ds := ⟨cs, heq⟩
  rcases List.prefix_or_prefix_of_prefix has (List.prefix_append bs ds) with hab | hba
  · exact h.1 hab
  · exact h.2 hba

theorem of_ne (as : List α) {x y : α} (h : x ≠ y) (cs ds : List α) :
    Apart (as ++ x :: cs) (as ++ y :: ds) := by
  constructor
  · intro hprefix
    rw [List.prefix_append_right_inj, List.cons_prefix_cons] at hprefix
    exact h hprefix.1
  · intro hprefix
    rw [List.prefix_append_right_inj, List.cons_prefix_cons] at hprefix
    exact h hprefix.1.symm

end Apart

/-! ## Output directories -/

namespace Path

theorem component?_cons {c : Char} (h : c ≠ '.') (cs : List Char) :
    component? (c :: cs) = some (.normal (String.ofList (c :: cs))) := by
  unfold component?
  split
  · next heq => cases heq
  · next heq => cases heq; exact absurd rfl h
  · next heq => cases heq; exact absurd rfl h
  · rfl

/-- A text that starts with a harmless beginning is relative, and its first name starts with it. -/
theorem relative_of_start {q : String} {c : Char} {start rest : List Char}
    (hq : q.toList = c :: start ++ rest) (hdot : c ≠ '.') (hslash : '/' ∉ c :: start) :
    Relative q ∧ ∃ word below,
      componentsOf q.toList = .normal (String.ofList (c :: start ++ word)) :: below := by
  obtain ⟨word, words, hwords⟩ := splitOn_of_not_mem hslash rest
  rw [← hq] at hwords
  have hrelative : Relative q := by
    constructor
    · rw [hq]
      intro hroot
      cases hroot
      exact hslash List.mem_cons_self
    · rw [hwords]
      intro hcurrent
      have hpiece := Option.some.inj hcurrent
      rw [List.cons_append, List.cons.injEq] at hpiece
      exact hdot hpiece.1
  refine ⟨hrelative, word, words.filterMap component?, ?_⟩
  rw [hrelative.componentsOf, innerComponents, hwords, List.cons_append,
    List.filterMap_cons, component?_cons hdot]

end Path

theorem Role.apart_label {r r' : Role} (h : r ≠ r') :
    Apart (r.label ++ "-").toList (r'.label ++ "-").toList := by
  cases r <;> cases r' <;> first | exact absurd rfl h | exact ⟨by decide, by decide⟩

namespace RunPlan

variable (settings : Settings)

/-- The output directory of a run lies below the output root, under a name that starts with the
label of its role. -/
theorem components_outputFor (role : Role) (id : String) :
    ∃ word below, (outputFor settings role id).components =
      settings.outputRoot.components ++
        .normal (String.ofList ((role.label ++ "-").toList ++ word)) :: below := by
  obtain ⟨c, start, hlabel, hdot, hslash⟩ : ∃ c start, (role.label ++ "-").toList = c :: start ∧
      c ≠ '.' ∧ '/' ∉ c :: start := by
    cases role <;> exact ⟨_, _, rfl, by decide, by decide⟩
  have hq : (role.label ++ "-" ++ id).toList = c :: start ++ id.toList := by
    rw [String.toList_append, hlabel]
  obtain ⟨hrelative, word, below, hcomponents⟩ := Path.relative_of_start hq hdot hslash
  refine ⟨word, below, ?_⟩
  rw [outputFor, Path.components_join _ hrelative, hcomponents, hlabel]

/-- Runs of different roles have their outputs apart, whatever their identifiers are. -/
theorem apart_outputFor {r r' : Role} (h : r ≠ r') (id id' : String) :
    Apart (outputFor settings r id).components (outputFor settings r' id').components := by
  obtain ⟨word, below, hr⟩ := components_outputFor settings r id
  obtain ⟨word', below', hr'⟩ := components_outputFor settings r' id'
  rw [hr, hr']
  refine Apart.of_ne _ ?_ below below'
  intro heq
  have htext := String.ofList_injective (Component.normal.inj heq)
  exact (Role.apart_label h).append_ne word word' htext

theorem outputFor_ne_nil (role : Role) (id : String) :
    (outputFor settings role id).components ≠ [] := by
  obtain ⟨word, below, hrole⟩ := components_outputFor settings role id
  rw [hrole]
  simp

end RunPlan
end OffloadCheck
