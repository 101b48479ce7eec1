import OffloadCheck.Job.Properties
import OffloadCheck.Proofs.Names
import OffloadCheck.Proofs.Numerals

/-! # What a property holds

A switch or a whole number is read back as it was stored, and a text reads as a whole number exactly
if it is a decimal of 64 bits. A list property that elements are appended to holds the elements it
held and then these, told apart by commas. Every writer leaves the other keys alone. -/
namespace OffloadCheck.Properties

/-! ## Switches and whole numbers -/

theorem getInt?_setInt (ps : Properties) (key : String) (n : Int64) :
    (ps.setInt key n.toInt).getInt? key = some n.toInt := by
  rw [getInt?, setInt, get?_set, if_pos rfl, Option.bind_some, Text.int64?_ofInt]

theorem getInt?_eq_some_iff {ps : Properties} {key : String} {n : Int} :
    ps.getInt? key = some n ↔
      ∃ text, ps.get? key = some text ∧ Text.IsDecimal text.toList n ∧ Text.FitsInt64 n := by
  simp only [getInt?, Option.bind_eq_some_iff, Text.int64?_eq_some_iff]

/-- Switches and the whole numbers of 64 bits are read back as they were stored, and other keys keep
what they hold. A stored text is read as a whole number exactly if it is a decimal of that number,
which 64 bits hold. -/
theorem stored_values_read_back (ps : Properties) (key : String) :
    (∀ n : Int64, (ps.setInt key n.toInt).getInt? key = some n.toInt ∧
      ∀ key' ≠ key, (ps.setInt key n.toInt).get? key' = ps.get? key') ∧
    (∀ b, (ps.setSwitch key b).getSwitch? key = some b ∧
      ∀ key' ≠ key, (ps.setSwitch key b).get? key' = ps.get? key') ∧
    (∀ n, ps.getInt? key = some n ↔
      ∃ text, ps.get? key = some text ∧ Text.IsDecimal text.toList n ∧ Text.FitsInt64 n) ∧
    (ps.getInt? key = none ↔ ∀ text, ps.get? key = some text →
      ∀ n, Text.IsDecimal text.toList n → ¬ Text.FitsInt64 n) := by
  refine ⟨fun n => ⟨ps.getInt?_setInt key n, fun key' h => ?_⟩,
    fun b => ⟨ps.getSwitch?_setSwitch key b, fun key' h => ?_⟩, fun n => getInt?_eq_some_iff, ?_⟩
  · rw [setInt, get?_set, if_neg h]
  · rw [setSwitch, get?_set, if_neg h]
  · rw [Option.eq_none_iff_forall_ne_some]
    constructor
    · intro hnone text hget n hdecimal hfits
      exact hnone n (getInt?_eq_some_iff.2 ⟨text, hget, hdecimal, hfits⟩)
    · intro hrefused n hn
      obtain ⟨text, hget, hdecimal, hfits⟩ := getInt?_eq_some_iff.1 hn
      exact hrefused text hget n hdecimal hfits

/-- The least number comes back beside a number with leading zeros, and one more than the greatest
is no number. -/
theorem least_number_reads_back :
    let ps := Properties.set .empty "b" "+007"
    let qs := Properties.set .empty "a" "9223372036854775808"
    (ps.setInt "a" Int64.minValue.toInt).getInt? "a" = some Int64.minValue.toInt ∧
      (ps.setInt "a" Int64.minValue.toInt).get? "b" = some "+007" ∧
      (ps.setSwitch "a" false).get? "b" = some "+007" ∧ ps.getInt? "b" = some 7 ∧
      qs.getInt? "a" = none := by
  intro ps qs
  obtain ⟨hint, hswitch, -⟩ := stored_values_read_back ps "a"
  obtain ⟨-, -, hread, -⟩ := stored_values_read_back ps "b"
  have hseven : Text.IsDecimal "+007".toList 7 := Text.signedDecimal?_eq_some_iff.1 (by decide)
  refine ⟨(hint Int64.minValue).1, (hint Int64.minValue).2 "b" (by decide),
    (hswitch false).2 "b" (by decide), (hread 7).2 ⟨"+007", rfl, hseven, by decide⟩,
    (stored_values_read_back qs "a").2.2.2.2 fun text hget n hdecimal hfits => ?_⟩
  cases hget
  have hvalue : Text.signedDecimal? "9223372036854775808".toList = some 9223372036854775808 := by
    decide
  rw [Text.signedDecimal?_eq_some_iff.2 hdecimal] at hvalue
  cases hvalue
  exact absurd hfits (by decide)

/-! ## Lists -/

/-- The elements of a list: none where it is not set or empty, else its pieces between commas. -/
def listed : Option String → List (List Char)
  | none => []
  | some text => if text = "" then [] else Text.splitOn ',' text.toList

/-- The properties with elements appended to a list, one after the other. -/
def appendAll (ps : Properties) (key : String) (vs : List String) : Properties :=
  vs.foldl (fun ps v => ps.appendList key v) ps

theorem get?_appendList (ps : Properties) (key key' v : String) : (ps.appendList key v).get? key' =
    if key' = key then some (extended (ps.get? key) v) else ps.get? key' :=
  get?_set ps key key' _

theorem listed_extended (old : Option String) {v : String} (hne : v ≠ "") (h : ',' ∉ v.toList) :
    listed (some (extended old v)) = listed old ++ [v.toList] := by
  have hsingle : listed (some v) = [v.toList] := by
    rw [listed, if_neg hne, Text.splitOn_eq_singleton h]
  cases old with
  | none => exact hsingle
  | some text =>
    by_cases htext : text = ""
    · have hnone : listed (some text) = [] := if_pos htext
      rw [extended, if_pos htext, hsingle, hnone, List.nil_append]
    · have hjoined : (text ++ "," ++ v).toList = text.toList ++ ',' :: v.toList := by
        rw [String.toList_append, String.toList_append, List.append_assoc]
        rfl
      have hlong : text ++ "," ++ v ≠ "" := by
        intro heq
        rw [heq] at hjoined
        exact List.append_ne_nil_of_right_ne_nil _ (List.cons_ne_nil _ _) hjoined.symm
      rw [extended, if_neg htext, listed, if_neg hlong, hjoined, Text.splitOn_append,
        Text.splitOn_eq_singleton h, listed, if_neg htext]

theorem listed_appendAll (ps : Properties) (key : String) {vs : List String}
    (h : ∀ v ∈ vs, v ≠ "" ∧ ',' ∉ v.toList) :
    listed ((ps.appendAll key vs).get? key) = listed (ps.get? key) ++ vs.map String.toList := by
  induction vs generalizing ps with
  | nil => simp [appendAll]
  | cons v vs ih =>
    obtain ⟨⟨hne, hcomma⟩, hvs⟩ := List.forall_mem_cons.1 h
    have hrest := ih (ps.appendList key v) hvs
    rw [get?_appendList, if_pos rfl, listed_extended _ hne hcomma, List.append_assoc] at hrest
    exact hrest

theorem get?_appendAll_of_ne (ps : Properties) {key key' : String} (h : key' ≠ key)
    (vs : List String) : (ps.appendAll key vs).get? key' = ps.get? key' := by
  induction vs generalizing ps with
  | nil => rfl
  | cons v vs ih =>
    refine (ih (ps.appendList key v)).trans ?_
    rw [get?_appendList, if_neg h]

theorem exists_text_of_listed {value : Option String} (h : listed value ≠ []) :
    ∃ text, value = some text ∧ Text.splitOn ',' text.toList = listed value := by
  cases value with
  | none => exact absurd rfl h
  | some text =>
    by_cases htext : text = ""
    · exact absurd (if_pos htext) h
    · exact ⟨text, rfl, (if_neg htext).symm⟩

/-- Elements that are neither empty nor hold a comma, appended in order, are the last pieces of the
list between commas, behind the elements that it had; nothing is there in front of them where it was
not set or empty. Other keys keep what they hold. -/
theorem appended_elements_follow (ps : Properties) (key : String) {vs : List String}
    (hsome : vs ≠ []) (h : ∀ v ∈ vs, v ≠ "" ∧ ',' ∉ v.toList) :
    (∃ text, (ps.appendAll key vs).get? key = some text ∧
      Text.splitOn ',' text.toList = listed (ps.get? key) ++ vs.map String.toList) ∧
    ∀ key' ≠ key, (ps.appendAll key vs).get? key' = ps.get? key' := by
  have hlisted := ps.listed_appendAll key h
  have hne : listed ((ps.appendAll key vs).get? key) ≠ [] := by
    rw [hlisted]
    exact List.append_ne_nil_of_right_ne_nil _ (mt List.map_eq_nil_iff.1 hsome)
  obtain ⟨text, htext, hpieces⟩ := exists_text_of_listed hne
  exact ⟨⟨text, htext, hpieces.trans hlisted⟩, fun _ h => ps.get?_appendAll_of_ne h vs⟩

/-- An element that was empty stays one, and the new ones stand behind it. -/
theorem appended_elements_follow_comma :
    let ps : Properties := (Properties.set .empty "files" "a,").set "other" "x"
    (∃ text, (ps.appendAll "files" ["b", "cd"]).get? "files" = some text ∧
      Text.splitOn ',' text.toList = [['a'], [], ['b'], ['c', 'd']]) ∧
    (ps.appendAll "files" ["b", "cd"]).get? "other" = some "x" := by
  intro ps
  have hsome : ["b", "cd"] ≠ [] := List.cons_ne_nil _ _
  obtain ⟨hlist, hothers⟩ := appended_elements_follow ps "files" hsome (by decide)
  exact ⟨hlist, hothers "other" (by decide)⟩

end OffloadCheck.Properties
