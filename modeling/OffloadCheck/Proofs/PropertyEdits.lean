import OffloadCheck.Proofs.Encoding
import OffloadCheck.Proofs.Reports

/-! # Properties by the edits that built them

An edit changes what keys read as, and what keys read as determines the properties, with their order
and their text. So properties that were built in different ways are the same, down to the text,
exactly if every key reads the same, and the laws of merging follow from those of reading. -/
namespace OffloadCheck.Properties

/-- What can be done to properties. -/
inductive Edit
  | set (key value : String)
  | setSwitch (key : String) (value : Bool)
  | setInt (key : String) (value : Int64)
  | unset (key : String)
  | appendList (key value : String)
  | merge (other : Properties)
  /-- Starts anew from pairs. -/
  | collect (pairs : List (String × String))

def Edit.apply (ps : Properties) : Edit → Properties
  | .set key value => ps.set key value
  | .setSwitch key value => ps.setSwitch key value
  | .setInt key value => ps.setInt key value.toInt
  | .unset key => ps.unset key
  | .appendList key value => ps.appendList key value
  | .merge other => ps.merge other
  | .collect pairs => .ofList pairs

/-- The properties that edits of the empty ones end in. -/
def built (edits : List Edit) : Properties := edits.foldl Edit.apply .empty

/-! ## What keys read as -/

/-- What keys read as after an edit, told by what they read as before. -/
def Edit.reading (read : String → Option String) : Edit → String → Option String
  | .set key value => Function.update read key (some value)
  | .setSwitch key value => Function.update read key (some (Text.ofBool value))
  | .setInt key value => Function.update read key (some (Text.ofInt value.toInt))
  | .unset key => Function.update read key none
  | .appendList key value => Function.update read key (some (extended (read key) value))
  | .merge other => fun key => (other.get? key).or (read key)
  | .collect pairs => fun key => pairs.reverse.lookup key

theorem get?_merge (ps qs : Properties) (key : String) :
    (ps.merge qs).get? key = (qs.get? key).or (ps.get? key) := by
  refine Option.ext fun value => ?_
  rw [SortedMap.merge, SortedMap.get?_foldl_insert qs.pairwise_ne_entries, SortedMap.mem_entries_iff]
  have hkeys : key ∈ qs.entries.map (·.1) ↔ ∃ v, qs.get? key = some v := qs.mem_keys_iff
  rw [hkeys]
  cases qs.get? key <;> simp

/-- The last value of a key counts. -/
theorem get?_foldl_insert_eq_or (pairs : List (String × String)) (ps : Properties) (key : String) :
    (pairs.foldl (fun acc e => acc.insert e.1 e.2) ps).get? key =
      (pairs.reverse.lookup key).or (ps.get? key) := by
  induction pairs generalizing ps with
  | nil => simp
  | cons pair pairs ih =>
    obtain ⟨key', value⟩ := pair
    have hset : (ps.insert key' value).get? key =
        (List.lookup key [(key', value)]).or (ps.get? key) := by
      refine (get?_set ps key' key value).trans ?_
      by_cases hkey : key = key'
      · simp [hkey]
      · simp [hkey, List.lookup_cons, beq_false_of_ne hkey]
    rw [List.foldl_cons, ih, hset, List.reverse_cons, List.lookup_append, Option.or_assoc]

theorem get?_ofList (pairs : List (String × String)) (key : String) :
    (SortedMap.ofList pairs).get? key = pairs.reverse.lookup key := by
  rw [SortedMap.ofList, get?_foldl_insert_eq_or, SortedMap.get?_empty, Option.or_none]

theorem get?_set_eq_update (ps : Properties) (key value : String) :
    (ps.set key value).get? = Function.update ps.get? key (some value) := by
  funext key'
  rw [get?_set, Function.update_apply]

theorem get?_unset_eq_update (ps : Properties) (key : String) :
    (ps.unset key).get? = Function.update ps.get? key none := by
  funext key'
  rw [get?_unset, Function.update_apply]

/-- One edit changes what keys read as. -/
theorem get?_apply (ps : Properties) (edit : Edit) :
    (edit.apply ps).get? = edit.reading ps.get? := by
  cases edit with
  | set key value => exact ps.get?_set_eq_update key value
  | setSwitch key value => exact ps.get?_set_eq_update key _
  | setInt key value => exact ps.get?_set_eq_update key _
  | unset key => exact ps.get?_unset_eq_update key
  | appendList key value => exact ps.get?_set_eq_update key _
  | merge other => exact funext fun key => get?_merge ps other key
  | collect pairs => exact funext fun key => get?_ofList pairs key

theorem get?_foldl_apply (edits : List Edit) (ps : Properties) :
    (edits.foldl Edit.apply ps).get? = edits.foldl Edit.reading ps.get? := by
  induction edits generalizing ps with
  | nil => rfl
  | cons edit edits ih => rw [List.foldl_cons, List.foldl_cons, ih, get?_apply]

/-! ## Order and text -/

theorem pairwise_encode_lt (ps : Properties) :
    ps.entries.Pairwise fun a b => Text.encode a.1 < Text.encode b.1 :=
  ps.sorted.imp fun h => Text.encode_lt_encode (compareOfLessAndEq_eq_lt.1 h)

theorem eq_iff_get? {ps qs : Properties} : ps = qs ↔ ∀ key, ps.get? key = qs.get? key := by
  constructor
  · rintro rfl key
    rfl
  · exact SortedMap.ext_get?

/-- Properties with one text are read back from it, so they are the same. -/
theorem render_toJson_inj {ps qs : Properties} : ps.toJson.render = qs.toJson.render ↔ ps = qs := by
  constructor
  · intro h
    have hread := ps.faithful.readsBack.1
    rw [h, qs.faithful.readsBack.1] at hread
    exact (Option.some.inj hread).symm
  · rintro rfl
    rfl

/-! ## Merging -/

theorem merge_assoc (ps qs rs : Properties) : (ps.merge qs).merge rs = ps.merge (qs.merge rs) := by
  refine SortedMap.ext_get? fun key => ?_
  rw [get?_merge, get?_merge, get?_merge, get?_merge, Option.or_assoc]

theorem merge_self (ps : Properties) : ps.merge ps = ps := by
  refine SortedMap.ext_get? fun key => ?_
  rw [get?_merge, Option.or_self]

theorem merge_empty (ps : Properties) : ps.merge .empty = ps := rfl

theorem empty_merge (ps : Properties) : SortedMap.merge .empty ps = ps := ps.ofList_entries

/-- However properties were built, their entries are the pairs of keys and what these read as, in the
order of the bytes of the keys, and the keys read as the edits say one after the other. Two that were
built in any ways are the same, and have the same text, exactly if every key reads the same. Merging
prefers the properties merged in; it is associative and idempotent, and the empty properties are
neutral. Of pairs with the same key the last one counts. -/
theorem built_properties_are_canonical :
    (∀ edits, (built edits).entries.Pairwise (fun a b => Text.encode a.1 < Text.encode b.1) ∧
      (built edits).entries.length = (built edits).size ∧
      (∀ key value, (key, value) ∈ (built edits).entries ↔ (built edits).get? key = some value) ∧
      (built edits).get? = edits.foldl Edit.reading fun _ => none) ∧
    (∀ edits edits', (built edits = built edits' ↔
        ∀ key, (built edits).get? key = (built edits').get? key) ∧
      ((built edits).toJson.render = (built edits').toJson.render ↔
        ∀ key, (built edits).get? key = (built edits').get? key)) ∧
    (∀ (ps qs : Properties) key, (ps.merge qs).get? key = (qs.get? key).or (ps.get? key)) ∧
    (∀ ps qs rs : Properties, (ps.merge qs).merge rs = ps.merge (qs.merge rs)) ∧
    (∀ ps : Properties, ps.merge ps = ps ∧ ps.merge .empty = ps ∧ SortedMap.merge .empty ps = ps) ∧
    ∀ pairs key, (SortedMap.ofList pairs : Properties).get? key = pairs.reverse.lookup key :=
  ⟨fun edits => ⟨pairwise_encode_lt _, rfl, fun _ _ => SortedMap.mem_entries_iff _,
      get?_foldl_apply edits .empty⟩,
    fun _ _ => ⟨eq_iff_get?, render_toJson_inj.trans eq_iff_get?⟩, get?_merge, merge_assoc,
    fun ps => ⟨ps.merge_self, ps.merge_empty, ps.empty_merge⟩, get?_ofList⟩

end OffloadCheck.Properties
