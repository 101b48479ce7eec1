/-!
Finite maps kept as a list of pairs with strictly increasing keys. The order is part of the type, so
two maps with the same entries are the same value, and reading the entries out gives them in key
order. The main statements: looking up after `insert`, `erase` and `filter`, and `ext_get?`, which
says that a map is determined by its lookups.
-/
namespace OffloadCheck

/-- A finite map whose entries are listed in strictly increasing key order. -/
structure SortedMap (κ β : Type) [Ord κ] where
  entries : List (κ × β)
  sorted : entries.Pairwise fun a b => compare a.1 b.1 = .lt

namespace SortedMap

variable {κ β : Type} [Ord κ]

instance [DecidableEq κ] [DecidableEq β] : DecidableEq (SortedMap κ β) := fun a b =>
  if h : a.entries = b.entries then
    .isTrue (by cases a; cases b; cases h; rfl)
  else
    .isFalse fun e => h (congrArg entries e)

def empty : SortedMap κ β := ⟨[], .nil⟩

instance : Inhabited (SortedMap κ β) := ⟨empty⟩

/-- The value stored at a key of a list of pairs: the first one counts. -/
def lookup (k : κ) : List (κ × β) → Option β
  | [] => none
  | (k', v) :: rest => if compare k k' = .eq then some v else lookup k rest

def get? (m : SortedMap κ β) (k : κ) : Option β := lookup k m.entries

def contains (m : SortedMap κ β) (k : κ) : Bool := (m.get? k).isSome

def size (m : SortedMap κ β) : Nat := m.entries.length

def isEmpty (m : SortedMap κ β) : Bool := m.entries.isEmpty

def keys (m : SortedMap κ β) : List κ := m.entries.map (·.1)

/-- Puts a pair at its place in the order; a pair with an equal key gives way. -/
def insertEntry (k : κ) (v : β) : List (κ × β) → List (κ × β)
  | [] => [(k, v)]
  | (k', v') :: rest =>
    match compare k k' with
    | .lt => (k, v) :: (k', v') :: rest
    | .eq => (k, v) :: rest
    | .gt => (k', v') :: insertEntry k v rest

theorem mem_insertEntry {k : κ} {v : β} {e : κ × β} {l : List (κ × β)}
    (h : e ∈ insertEntry k v l) : e = (k, v) ∨ e ∈ l := by
  induction l with
  | nil => simpa [insertEntry] using h
  | cons a rest ih =>
    obtain ⟨k', v'⟩ := a
    simp only [insertEntry] at h
    split at h
    · simpa using h
    · rcases List.mem_cons.1 h with h | h
      · exact .inl h
      · exact .inr (List.mem_cons_of_mem _ h)
    · rcases List.mem_cons.1 h with h | h
      · exact .inr (h ▸ List.mem_cons_self)
      · exact (ih h).imp id (List.mem_cons_of_mem _)

theorem insertEntry_sorted [Std.TransOrd κ] (k : κ) (v : β) {l : List (κ × β)}
    (h : l.Pairwise fun a b => compare a.1 b.1 = .lt) :
    (insertEntry k v l).Pairwise fun a b => compare a.1 b.1 = .lt := by
  induction l with
  | nil => simp [insertEntry]
  | cons a rest ih =>
    obtain ⟨k', v'⟩ := a
    obtain ⟨hk, hr⟩ := List.pairwise_cons.1 h
    simp only [insertEntry]
    split
    next hlt =>
      refine List.pairwise_cons.2 ⟨fun b hb => ?_, h⟩
      rcases List.mem_cons.1 hb with hb | hb
      · simpa [hb] using hlt
      · exact Std.TransCmp.lt_trans hlt (hk b hb)
    next heq =>
      refine List.pairwise_cons.2 ⟨fun b hb => ?_, hr⟩
      exact Std.TransCmp.lt_of_eq_of_lt heq (hk b hb)
    next hgt =>
      refine List.pairwise_cons.2 ⟨fun b hb => ?_, ih hr⟩
      rcases mem_insertEntry hb with hb | hb
      · rw [hb]
        exact Std.OrientedCmp.lt_of_gt hgt
      · exact hk b hb

def insert [Std.TransOrd κ] (m : SortedMap κ β) (k : κ) (v : β) : SortedMap κ β :=
  ⟨insertEntry k v m.entries, insertEntry_sorted k v m.sorted⟩

def filter (p : κ → β → Bool) (m : SortedMap κ β) : SortedMap κ β :=
  ⟨m.entries.filter fun e => p e.1 e.2, m.sorted.filter _⟩

def erase (m : SortedMap κ β) (k : κ) : SortedMap κ β :=
  m.filter fun k' _ => compare k k' != .eq

def merge [Std.TransOrd κ] (m other : SortedMap κ β) : SortedMap κ β :=
  other.entries.foldl (fun acc e => acc.insert e.1 e.2) m

/-- The pairs put into the empty map one after the other, so the last value of a key stays. -/
def ofList [Std.TransOrd κ] (pairs : List (κ × β)) : SortedMap κ β :=
  pairs.foldl (fun acc e => acc.insert e.1 e.2) empty

@[simp] theorem get?_empty (k : κ) : (empty : SortedMap κ β).get? k = none := rfl

theorem lookup_insertEntry [Std.TransOrd κ] (k k' : κ) (v : β) (l : List (κ × β)) :
    lookup k' (insertEntry k v l) = if compare k' k = .eq then some v else lookup k' l := by
  induction l with
  | nil => simp [insertEntry, lookup]
  | cons a rest ih =>
    obtain ⟨k₀, v₀⟩ := a
    simp only [insertEntry]
    split
    next => rfl
    next heq =>
      have : compare k' k = compare k' k₀ := Std.TransCmp.congr_right heq
      simp only [lookup, this]
      split <;> rfl
    next hgt =>
      simp only [lookup, ih]
      split
      next h₀ =>
        split
        next h₁ =>
          have h₂ : compare k k₀ = .eq :=
            Std.TransCmp.eq_trans (Std.OrientedCmp.eq_symm h₁) h₀
          simp [h₂] at hgt
        next => rfl
      next => rfl

@[simp] theorem get?_insert [Std.TransOrd κ] (m : SortedMap κ β) (k k' : κ) (v : β) :
    (m.insert k v).get? k' = if compare k' k = .eq then some v else m.get? k' :=
  lookup_insertEntry k k' v m.entries

theorem lookup_eq_none {k : κ} {l : List (κ × β)} (h : ∀ e ∈ l, compare k e.1 = .lt) :
    lookup k l = none := by
  induction l with
  | nil => rfl
  | cons a rest ih =>
    have hk : compare k a.1 = .lt := h a List.mem_cons_self
    simp only [lookup, hk]
    exact ih fun e he => h e (List.mem_cons_of_mem a he)

theorem lookup_filter [Std.LawfulEqOrd κ] (p : κ → β → Bool) (k : κ) {l : List (κ × β)}
    (h : l.Pairwise fun a b => compare a.1 b.1 = .lt) :
    lookup k (l.filter fun e => p e.1 e.2) = (lookup k l).filter (p k) := by
  induction l with
  | nil => rfl
  | cons a rest ih =>
    obtain ⟨k', v⟩ := a
    obtain ⟨hlt, hr⟩ := List.pairwise_cons.1 h
    have ih := ih hr
    simp only [List.filter_cons]
    by_cases he : compare k k' = .eq
    · obtain rfl := Std.LawfulEqOrd.eq_of_compare he
      by_cases hp : p k v = true
      · simp [lookup, hp, Option.filter]
      · rw [lookup_eq_none hlt] at ih
        simp [lookup, hp, ih, Option.filter]
    · by_cases hp : p k' v = true
      · simp [lookup, hp, he, ih]
      · simp [lookup, hp, he, ih]

@[simp] theorem get?_filter [Std.LawfulEqOrd κ] (p : κ → β → Bool) (m : SortedMap κ β) (k : κ) :
    (m.filter p).get? k = (m.get? k).filter (p k) :=
  lookup_filter p k m.sorted

@[simp] theorem get?_erase [Std.LawfulEqOrd κ] (m : SortedMap κ β) (k k' : κ) :
    (m.erase k).get? k' = if compare k k' = .eq then none else m.get? k' := by
  rw [erase, get?_filter]
  by_cases h : compare k k' = .eq
  · cases m.get? k' <;> simp [h]
  · cases m.get? k' <;> simp [h]

theorem compare_lt_of_lookup [Std.LawfulEqOrd κ] {k : κ} {v : β} {k₀ : κ} {l : List (κ × β)}
    (h : ∀ e ∈ l, compare k₀ e.1 = .lt) (hk : lookup k l = some v) : compare k₀ k = .lt := by
  induction l with
  | nil => simp [lookup] at hk
  | cons a rest ih =>
    obtain ⟨k', v'⟩ := a
    simp only [lookup] at hk
    split at hk
    next he =>
      obtain rfl := Std.LawfulEqOrd.eq_of_compare he
      exact h (k, v') List.mem_cons_self
    next => exact ih (fun e he => h e (List.mem_cons_of_mem _ he)) hk

theorem lookup_head [Std.ReflOrd κ] (k : κ) (v : β) (l : List (κ × β)) :
    lookup k ((k, v) :: l) = some v := by
  simp [lookup, Std.ReflCmp.compare_self]

theorem eq_of_lookup [Std.TransOrd κ] [Std.LawfulEqOrd κ] {l l' : List (κ × β)}
    (hl : l.Pairwise fun a b => compare a.1 b.1 = .lt)
    (hl' : l'.Pairwise fun a b => compare a.1 b.1 = .lt)
    (h : ∀ k, lookup k l = lookup k l') : l = l' := by
  induction l generalizing l' with
  | nil =>
    cases l' with
    | nil => rfl
    | cons b rest =>
      have := h b.1
      rw [lookup_head] at this
      simp [lookup] at this
  | cons a rest ih =>
    obtain ⟨k, v⟩ := a
    obtain ⟨hk, hr⟩ := List.pairwise_cons.1 hl
    have ha := h k
    rw [lookup_head] at ha
    cases l' with
    | nil => simp [lookup] at ha
    | cons b rest' =>
      obtain ⟨k', v'⟩ := b
      obtain ⟨hk', hr'⟩ := List.pairwise_cons.1 hl'
      have hb := h k'
      rw [lookup_head] at hb
      by_cases he : compare k k' = .eq
      · obtain rfl := Std.LawfulEqOrd.eq_of_compare he
        obtain rfl : v = v' := by
          rw [lookup_head] at ha
          exact Option.some.inj ha
        rw [ih hr hr' fun x => ?_]
        have hx := h x
        simp only [lookup] at hx
        split at hx
        next hx' =>
          obtain rfl := Std.LawfulEqOrd.eq_of_compare hx'
          rw [lookup_eq_none hk, lookup_eq_none hk']
        next => exact hx
      · have he' : compare k' k ≠ .eq := fun h => he (Std.OrientedCmp.eq_symm h)
        have hlt : compare k' k = .lt := by
          simp only [lookup, he] at ha
          exact compare_lt_of_lookup hk' ha.symm
        have hgt : compare k k' = .lt := by
          simp only [lookup, he'] at hb
          exact compare_lt_of_lookup hk hb
        rw [Std.OrientedCmp.gt_of_lt hgt] at hlt
        cases hlt

/-- A map is determined by its lookups. -/
theorem ext_get? [Std.TransOrd κ] [Std.LawfulEqOrd κ] {a b : SortedMap κ β}
    (h : ∀ k, a.get? k = b.get? k) : a = b := by
  obtain ⟨l, hl⟩ := a
  obtain ⟨l', hl'⟩ := b
  obtain rfl := eq_of_lookup hl hl' h
  rfl

theorem mem_iff_lookup [Std.TransOrd κ] [Std.LawfulEqOrd κ] {k : κ} {v : β} {l : List (κ × β)}
    (h : l.Pairwise fun a b => compare a.1 b.1 = .lt) : (k, v) ∈ l ↔ lookup k l = some v := by
  induction l with
  | nil => simp [lookup]
  | cons a rest ih =>
    obtain ⟨k', v'⟩ := a
    obtain ⟨hlt, hr⟩ := List.pairwise_cons.1 h
    rw [List.mem_cons, ih hr, lookup]
    by_cases he : compare k k' = .eq
    · obtain rfl := Std.LawfulEqOrd.eq_of_compare he
      rw [lookup_eq_none hlt, if_pos he]
      simp [eq_comm]
    · have hne : k ≠ k' := fun h => he (Std.LawfulEqOrd.compare_eq_iff_eq.2 h)
      rw [if_neg he]
      simp [hne]

theorem mem_entries_iff [Std.TransOrd κ] [Std.LawfulEqOrd κ] (m : SortedMap κ β) {k : κ} {v : β} :
    (k, v) ∈ m.entries ↔ m.get? k = some v :=
  mem_iff_lookup m.sorted

theorem mem_keys_iff [Std.TransOrd κ] [Std.LawfulEqOrd κ] (m : SortedMap κ β) {k : κ} :
    k ∈ m.keys ↔ ∃ v, m.get? k = some v := by
  rw [keys, List.mem_map]
  constructor
  · rintro ⟨⟨_, v⟩, hmem, rfl⟩
    exact ⟨v, m.mem_entries_iff.1 hmem⟩
  · rintro ⟨v, hv⟩
    exact ⟨(k, v), m.mem_entries_iff.2 hv, rfl⟩

theorem pairwise_ne_entries [Std.TransOrd κ] (m : SortedMap κ β) :
    m.entries.Pairwise fun a b => a.1 ≠ b.1 := by
  refine m.sorted.imp ?_
  intro a b hlt heq
  have hself : compare b.1 b.1 = .eq := Std.ReflCmp.compare_self
  rw [heq, hself] at hlt
  cases hlt

theorem nodup_entries [Std.TransOrd κ] (m : SortedMap κ β) : m.entries.Nodup :=
  m.pairwise_ne_entries.imp fun hne heq => hne (congrArg Prod.fst heq)

/-- A new key is one entry more. -/
theorem entries_insert_perm [Std.TransOrd κ] [Std.LawfulEqOrd κ] {m : SortedMap κ β} {k : κ}
    (h : m.get? k = none) (v : β) : (m.insert k v).entries.Perm ((k, v) :: m.entries) := by
  have hnew : (k, v) ∉ m.entries := by
    rw [mem_entries_iff, h]
    simp
  refine (List.perm_ext_iff_of_nodup (nodup_entries _)
    (List.nodup_cons.2 ⟨hnew, m.nodup_entries⟩)).2 ?_
  rintro ⟨k', v'⟩
  rw [mem_entries_iff, get?_insert, List.mem_cons, mem_entries_iff, Prod.mk.injEq]
  by_cases he : compare k' k = .eq
  · obtain rfl := Std.LawfulEqOrd.eq_of_compare he
    rw [if_pos he, h]
    simp [eq_comm]
  · have hne : k' ≠ k := fun h => he (Std.LawfulEqOrd.compare_eq_iff_eq.2 h)
    rw [if_neg he]
    simp [hne]

theorem get?_foldl_insert [Std.TransOrd κ] [Std.LawfulEqOrd κ] {pairs : List (κ × β)}
    (h : pairs.Pairwise fun a b => a.1 ≠ b.1) (m : SortedMap κ β) {k : κ} {v : β} :
    (pairs.foldl (fun acc e => acc.insert e.1 e.2) m).get? k = some v ↔
      (k, v) ∈ pairs ∨ k ∉ pairs.map (·.1) ∧ m.get? k = some v := by
  induction pairs generalizing m with
  | nil => simp
  | cons pair pairs ih =>
    obtain ⟨k', v'⟩ := pair
    obtain ⟨hhead, htail⟩ := List.pairwise_cons.1 h
    rw [List.foldl_cons, ih htail, get?_insert]
    by_cases hk : compare k k' = .eq
    · obtain rfl := Std.LawfulEqOrd.eq_of_compare hk
      have hnew : k ∉ pairs.map (·.1) := by
        intro hmem
        obtain ⟨pair, hpair, heq⟩ := List.mem_map.1 hmem
        exact hhead pair hpair heq.symm
      have hnone : (k, v) ∉ pairs := fun hmem => hnew (List.mem_map.2 ⟨_, hmem, rfl⟩)
      rw [if_pos hk]
      simp [hnew, hnone, eq_comm]
    · have hne : k ≠ k' := fun heq => hk (Std.LawfulEqOrd.compare_eq_iff_eq.2 heq)
      rw [if_neg hk]
      simp [hne]

/-- Pairs with different keys are what the map of them holds. -/
theorem get?_ofList_eq_some_iff [Std.TransOrd κ] [Std.LawfulEqOrd κ] {pairs : List (κ × β)}
    (h : pairs.Pairwise fun a b => a.1 ≠ b.1) {k : κ} {v : β} :
    (ofList pairs).get? k = some v ↔ (k, v) ∈ pairs := by
  rw [ofList, get?_foldl_insert h]
  simp

theorem entries_ofList_perm [Std.TransOrd κ] [Std.LawfulEqOrd κ] {pairs : List (κ × β)}
    (h : pairs.Pairwise fun a b => a.1 ≠ b.1) : (ofList pairs).entries.Perm pairs := by
  have hnodup : pairs.Nodup := h.imp fun hne heq => hne (congrArg Prod.fst heq)
  refine (List.perm_ext_iff_of_nodup (nodup_entries _) hnodup).2 ?_
  rintro ⟨k, v⟩
  rw [mem_entries_iff, get?_ofList_eq_some_iff h]

/-- The map of the entries of a map is that map. -/
theorem ofList_entries [Std.TransOrd κ] [Std.LawfulEqOrd κ] (m : SortedMap κ β) :
    ofList m.entries = m := by
  refine ext_get? fun k => Option.ext fun v => ?_
  rw [get?_ofList_eq_some_iff m.pairwise_ne_entries, mem_entries_iff]

end SortedMap
end OffloadCheck
