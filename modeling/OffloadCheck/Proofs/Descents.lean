import Mathlib.Data.List.DropRight
import OffloadCheck.Proofs.Names

/-! # Ways down from a root

A path is resolved by pushing names onto the root and cutting them off again for `..`, with a count
of the names beside it. Cutting off a name undoes its push up to the way the path is written, and
the count is the number of names behind the root. So nothing of the root is ever cut off, whatever
the path and the root are, and the location that is reached is told by the stack of names alone. -/
namespace OffloadCheck

/-! ## Pieces of a path that is cut back -/

namespace Text

theorem splitOn_joinWith {sep : Char} {words : List (List Char)} (hne : words ≠ [])
    (h : ∀ word ∈ words, sep ∉ word) : splitOn sep (joinWith sep words) = words := by
  induction words with
  | nil => exact absurd rfl hne
  | cons word words ih =>
    rw [List.forall_mem_cons] at h
    cases words with
    | nil => exact splitOn_eq_singleton h.1
    | cons next rest =>
      rw [joinWith, splitOn_append, splitOn_eq_singleton h.1, ih (List.cons_ne_nil _ _) h.2]
      · rfl
      · exact List.cons_ne_nil _ _

end Text

open Text

namespace Path

variable {p q root : Path}

theorem trimPieces_isPrefix (pieces : List (List Char)) : trimPieces pieces <+: pieces := by
  cases pieces with
  | nil => exact List.prefix_refl _
  | cons first rest =>
    exact (List.prefix_cons_inj first).2 (List.rdropWhile_prefix _ rest)

/-- Whether pieces between slashes are those of a text that starts with a slash. -/
def startsAtRoot : List (List Char) → Bool
  | [] :: _ :: _ => true
  | _ => false

theorem startsAtRoot_cons_iff {first : List Char} {rest : List (List Char)} :
    startsAtRoot (first :: rest) = true ↔ first = [] ∧ rest ≠ [] := by
  cases first <;> cases rest <;> simp [startsAtRoot]

theorem head?_joinWith {pieces : List (List Char)} (h : ∀ piece ∈ pieces, '/' ∉ piece) :
    ((joinWith '/' pieces).head? == some '/') = startsAtRoot pieces := by
  cases pieces with
  | nil => rfl
  | cons first rest =>
    rw [List.forall_mem_cons] at h
    rw [Bool.eq_iff_iff, startsAtRoot_cons_iff, beq_iff_eq]
    cases first with
    | nil => cases rest <;> simp [joinWith]
    | cons c cs =>
      have hc : c ≠ '/' := fun heq => h.1 (heq ▸ List.mem_cons_self)
      cases rest <;> simp [joinWith, hc]

theorem componentsOf_joinWith {pieces : List (List Char)} (hne : pieces ≠ [])
    (h : ∀ piece ∈ pieces, '/' ∉ piece) :
    componentsOf (joinWith '/' pieces) = ofPieces (startsAtRoot pieces) pieces := by
  rw [componentsOf_eq_ofPieces, head?_joinWith h, splitOn_joinWith hne h]

theorem components_eq_ofPieces (p : Path) : p.components =
    ofPieces (startsAtRoot (splitOn '/' p.text.toList)) (splitOn '/' p.text.toList) := by
  rw [components_eq, ← componentsOf_joinWith (splitOn_ne_nil _ _) fun _ => not_mem_of_mem_splitOn,
    joinWith_splitOn]

/-- The pieces that are trimmed have left no component. -/
theorem filterMap_rdropWhile (rest : List (List Char)) :
    (rest.rdropWhile fun piece => (component? piece).isNone).filterMap component? =
      rest.filterMap component? := by
  induction rest using List.reverseRecOn with
  | nil => rfl
  | append_singleton rest piece ih =>
    rw [List.rdropWhile_concat]
    split
    · next hnone =>
      rw [ih, List.filterMap_append, List.filterMap_cons_none (Option.isNone_iff_eq_none.1 hnone)]
      exact (List.append_nil _).symm
    · rfl

theorem ofPieces_trimPieces (rooted : Bool) (pieces : List (List Char)) :
    ofPieces rooted (trimPieces pieces) = ofPieces rooted pieces := by
  cases pieces with
  | nil => rfl
  | cons first rest =>
    have hcomponents : (trimPieces (first :: rest)).filterMap component? =
        (first :: rest).filterMap component? := by
      change ([first] ++ rest.rdropWhile _).filterMap component? = ([first] ++ rest).filterMap _
      rw [List.filterMap_append, List.filterMap_append, filterMap_rdropWhile]
    unfold ofPieces
    rw [hcomponents]
    rfl

/-- Apart from the first one, the last piece that is left when pieces are trimmed has a component. -/
theorem trimPieces_cases (first : List Char) (rest : List (List Char)) :
    trimPieces (first :: rest) = [first] ∨ ∃ front last c,
      trimPieces (first :: rest) = first :: front ++ [last] ∧ component? last = some c := by
  by_cases hnil : rest.rdropWhile (fun piece => (component? piece).isNone) = []
  · exact .inl (congrArg (first :: ·) hnil)
  · have hlast := List.rdropWhile_last_not _ rest hnil
    rw [Option.isNone_iff_eq_none] at hlast
    obtain ⟨c, hc⟩ := Option.ne_none_iff_exists'.1 hlast
    exact .inr ⟨_, _, c, congrArg (first :: ·) (List.dropLast_concat_getLast hnil).symm, hc⟩

/-- A piece leaves a component that has something above it. -/
theorem parent?_concat {piece : List Char} {c : Component} (h : component? piece = some c)
    (l : Location) : Location.parent? (l ++ [c]) = some l := by
  have hlast : (l ++ [c]).getLast? = some c := by simp
  unfold component? at h
  unfold Location.parent?
  rw [hlast, List.dropLast_concat]
  split at h <;> cases h <;> rfl

theorem eq_dropLast_of_parent? {l above : Location} (h : l.parent? = some above) :
    above = l.dropLast := by
  unfold Location.parent? at h
  split at h
  · cases h
  · cases h
  · exact (Option.some.inj h).symm

theorem parent?_ofPieces_singleton {rooted : Bool} {first : List Char} {l : Location}
    (hrooted : rooted = true → first = []) (h : (ofPieces rooted [first]).parent? = some l) :
    l = [] := by
  cases rooted with
  | true =>
    rw [hrooted rfl] at h
    cases h
  | false =>
    have hshort : (ofPieces false [first]).length ≤ 1 := by
      by_cases hdot : first = ['.']
      · rw [hdot]
        rfl
      · have hbody : ofPieces false [first] = [first].filterMap component? := by
          simp [ofPieces, hdot]
        rw [hbody]
        exact List.length_filterMap_le _ _
    rw [eq_dropLast_of_parent? h, ← List.length_eq_zero_iff, List.length_dropLast]
    omega

/-- The path that is put together again from what is left of the pieces of a longer one. -/
theorem components_rebuilt {first : List Char} {more : List (List Char)} {rooted : Bool}
    (h : ∀ piece ∈ first :: more, '/' ∉ piece) (hrooted : rooted = true ↔ first = []) :
    (match first :: more with
      | [[]] => (⟨"/"⟩ : Path)
      | pieces => ⟨String.ofList (joinWith '/' pieces)⟩).components =
        ofPieces rooted (first :: more) := by
  split
  · next heq =>
    cases heq
    rw [hrooted.2 rfl]
    rfl
  · next hnotRoot =>
    have hstart : startsAtRoot (first :: more) = rooted := by
      rw [Bool.eq_iff_iff, hrooted, startsAtRoot_cons_iff]
      exact and_iff_left_of_imp fun hfirst hmore => hnotRoot (by rw [hfirst, hmore])
    rw [components_eq, String.toList_ofList, componentsOf_joinWith (List.cons_ne_nil _ _) h, hstart]

/-- The path above denotes the location above. -/
theorem components_parent? (h : p.parent? = some q) :
    p.components.parent? = some q.components := by
  obtain ⟨l, hl, rfl⟩ := Option.map_eq_some_iff.1 h
  rw [hl, Option.some.injEq]
  obtain ⟨first, rest, hpieces⟩ := List.exists_cons_of_ne_nil (splitOn_ne_nil '/' p.text.toList)
  have hslash : ∀ piece ∈ first :: rest, '/' ∉ piece := fun _ hpiece =>
    not_mem_of_mem_splitOn (hpieces ▸ hpiece)
  rw [components_eq_ofPieces, hpieces, ← ofPieces_trimPieces] at hl
  rw [hpieces]
  rcases trimPieces_cases first rest with htrimmed | ⟨front, last, c, htrimmed, hc⟩
  · rw [htrimmed] at hl ⊢
    exact parent?_ofPieces_singleton (fun hroot => (startsAtRoot_cons_iff.1 hroot).1) hl
  · have hrest : rest ≠ [] := by
      rintro rfl
      simp [trimPieces] at htrimmed
    have hroot := startsAtRoot_cons_iff.trans (and_iff_left (a := first = []) hrest)
    have hsome : [last].filterMap component? = [c] := by simp [hc]
    rw [htrimmed, ofPieces_append _ (List.cons_ne_nil _ _), hsome, parent?_concat hc] at hl
    obtain rfl := Option.some.inj hl
    have hfront := (trimPieces_isPrefix (first :: front)).trans
      ((List.prefix_append (first :: front) [last]).trans
        (htrimmed ▸ trimPieces_isPrefix (first :: rest)))
    rw [htrimmed, List.dropLast_concat, ← ofPieces_trimPieces]
    exact (components_rebuilt (fun _ hpiece => hslash _ (hfront.subset hpiece)) hroot).symm

theorem exists_parent?_of_concat {l : Location} {name : String}
    (h : p.components = l ++ [.normal name]) :
    ∃ above, p.parent? = some above ∧ above.components = l := by
  have hparent : p.components.parent? = some l := by simp [h, Location.parent?]
  obtain ⟨above, habove⟩ : ∃ above, p.parent? = some above := by
    rw [parent?, hparent]
    exact ⟨_, rfl⟩
  exact ⟨above, habove, Option.some.inj ((components_parent? habove).symm.trans hparent)⟩

/-! ## Joined paths -/

/-- In front of what the pieces of a path leave there is at most the root or a dot. -/
theorem components_eq_lead (p : Path) : ∃ lead : Location,
    (∀ c ∈ lead, c = .root ∨ c = .current) ∧
      p.components = lead ++ (Disk.pieces p).filterMap component? := by
  have hpieces : (Disk.pieces p).filterMap component? =
      (splitOn '/' p.text.toList).filterMap component? := by
    rw [Disk.pieces, List.filterMap_filter]
    refine congrArg (List.filterMap · _) (funext fun piece => ?_)
    cases piece with
    | nil => rfl
    | cons c cs => exact if_pos (decide_eq_true (List.cons_ne_nil c cs))
  rw [hpieces, components_eq, componentsOf]
  split
  · exact ⟨[.root], by simp, rfl⟩
  · split
    · exact ⟨[.current], by simp, rfl⟩
    · exact ⟨[], by simp, rfl⟩

variable {β : Type} {f : β → Component → β}

/-- Where the root and dots count for nothing, a path counts for its pieces. -/
theorem foldl_components (hroot : ∀ b, f b .root = b) (hcurrent : ∀ b, f b .current = b) (p : Path)
    (b : β) : p.components.foldl f b = ((Disk.pieces p).filterMap component?).foldl f b := by
  obtain ⟨lead, hlead, hp⟩ := p.components_eq_lead
  rw [hp, List.foldl_append]
  refine congrArg (List.foldl f · _) ?_
  clear hp
  induction lead with
  | nil => rfl
  | cons c lead ih =>
    rw [List.forall_mem_cons] at hlead
    rw [List.foldl_cons]
    rcases hlead.1 with rfl | rfl
    · rw [hroot]
      exact ih hlead.2
    · rw [hcurrent]
      exact ih hlead.2

/-- A path that is put behind another one goes on where that has ended. -/
theorem foldl_components_join (hroot : ∀ b, f b .root = b) (hcurrent : ∀ b, f b .current = b)
    (p : Path) {q : String} (h : q.toList.head? ≠ some '/') (b : β) :
    (p.join q).components.foldl f b =
      (Path.mk q).components.foldl f (p.components.foldl f b) := by
  simp only [foldl_components hroot hcurrent]
  rw [Disk.pieces_join_of_relative p h, List.filterMap_append, List.foldl_append]

theorem stack_join (p : Path) {q : String} (h : q.toList.head? ≠ some '/') :
    (p.join q).components.stack =
      Location.stackFrom p.components.stack (Path.mk q).components :=
  foldl_components_join (fun _ => rfl) (fun _ => rfl) p h []

theorem descent_join (p root : Path) {q : String} (h : q.toList.head? ≠ some '/') :
    (p.join q).descent root = (Path.mk q).components.foldl Descent.step (p.descent root) := by
  unfold descent
  exact foldl_components_join (fun _ => rfl) (fun _ => rfl) p h _

/-! ## The way down -/

namespace Descent

/-- Some names stand behind the root, and the count is their number. -/
structure Stands (root : Path) (names : List String) (d : Descent) : Prop where
  components : d.path.components = root.components ++ names.map .normal
  depth : d.depth = names.length

variable {d : Descent} {names : List String}

theorem Stands.push (h : Stands root names d) {name : String} (hname : IsPlain name) :
    Stands root (names ++ [name]) (d.step (.normal name)) where
  components := by
    change (d.path.join name).components = _
    rw [components_join_plain d.path hname, h.components, List.map_append, List.append_assoc]
    rfl
  depth := by
    rw [List.length_append, ← h.depth]
    rfl

/-- As long as a name is left, the path ends with it, so it is what is cut off. -/
theorem Stands.pop {name : String} (h : Stands root (names ++ [name]) d) :
    Stands root names (d.step .parent) := by
  have hdepth : d.depth = names.length + 1 := by simp [h.depth]
  have hlast : d.path.components = (root.components ++ names.map .normal) ++ [.normal name] := by
    rw [h.components, List.map_append, List.append_assoc]
    rfl
  obtain ⟨above, hparent, habove⟩ := exists_parent?_of_concat hlast
  have hstep : d.step .parent = ⟨above, names.length⟩ := by
    simp [step, Path.pop, hdepth, hparent]
  rw [hstep]
  exact ⟨habove, rfl⟩

/-- What a component does to the path it does to the stack of names behind the root. -/
theorem Stands.step (h : Stands root names d) {c : Component}
    (hc : ∀ name, c = .normal name → IsPlain name) : Stands root (c.onStack names) (d.step c) := by
  cases c with
  | root | current => exact h
  | normal name => exact h.push (hc name rfl)
  | parent =>
    cases names using List.reverseRecOn with
    | nil =>
      -- The count is zero at the root, and then nothing is cut off.
      have hstay : d.step .parent = d := by simp [Descent.step, h.depth]
      rwa [hstay]
    | append_singleton names name =>
      rw [Component.onStack, List.dropLast_concat]
      exact h.pop

theorem Stands.foldl {l : Location} (hl : l.Plain) (h : Stands root names d) :
    Stands root (Location.stackFrom names l) (l.foldl Descent.step d) := by
  induction l generalizing names d with
  | nil => exact h
  | cons c l ih =>
    exact ih (fun name hname => hl name (List.mem_cons_of_mem _ hname))
      (h.step fun name hname => hl name (hname ▸ List.mem_cons_self))

end Descent

theorem stands_descent (p root : Path) :
    Descent.Stands root p.components.stack (p.descent root) :=
  Descent.Stands.foldl p.plain_components ⟨(List.append_nil _).symm, rfl⟩

theorem components_resolveUnder (p root : Path) :
    (p.resolveUnder root).components = root.components ++ p.components.stack.map .normal :=
  (stands_descent p root).components

/-- Without `..` the names are pushed and none is cut off, so even the text is known. -/
theorem resolveUnder_eq_foldl_join (h : .parent ∉ p.components) (root : Path) :
    p.resolveUnder root = p.components.stack.foldl join root := by
  suffices hfold : ∀ (l : Location) (names : List String) (d : Descent), .parent ∉ l →
      d.path = names.foldl join root →
      (l.foldl Descent.step d).path = (Location.stackFrom names l).foldl join root from
    hfold p.components [] ⟨root, 0⟩ h rfl
  intro l
  induction l with
  | nil => exact fun _ _ _ hd => hd
  | cons c l ih =>
    intro names d hl hd
    rw [List.mem_cons, not_or] at hl
    refine ih (c.onStack names) (d.step c) hl.2 ?_
    cases c with
    | root | current => exact hd
    | parent => exact absurd rfl hl.1
    | normal name =>
      rw [Component.onStack, List.foldl_append, ← hd]
      rfl

end Path

/-! ## Locations beneath a root -/

namespace Location

/-- Every name on the stack is one of the components. -/
theorem mem_of_mem_stackFrom {l : Location} {s : List String} {name : String}
    (h : name ∈ stackFrom s l) : name ∈ s ∨ .normal name ∈ l := by
  induction l generalizing s with
  | nil => exact .inl h
  | cons c l ih =>
    rcases ih h with hstack | hrest
    · cases c with
      | root => exact .inl hstack
      | current => exact .inl hstack
      | parent => exact .inl (List.dropLast_subset _ hstack)
      | normal other =>
        rcases List.mem_append.1 hstack with hs | hother
        · exact .inl hs
        · obtain rfl := List.mem_singleton.1 hother
          exact .inr List.mem_cons_self
    · exact .inr (List.mem_cons_of_mem _ hrest)

end Location

namespace Path

variable {p : Path}

theorem isPlain_of_mem_stack {name : String} (h : name ∈ p.components.stack) : IsPlain name := by
  rcases Location.mem_of_mem_stackFrom h with hnil | hname
  · cases hnil
  · exact isPlain_of_mem_components hname

/-- Names that are put behind a path lie below it. -/
theorem components_foldl_join {names : List String} (h : ∀ name ∈ names, IsPlain name)
    (root : Path) :
    (names.foldl join root).components = root.components ++ names.map .normal := by
  induction names generalizing root with
  | nil => exact (List.append_nil _).symm
  | cons name names ih =>
    rw [List.forall_mem_cons] at h
    rw [List.foldl_cons, ih h.2, components_join_plain root h.1, List.append_assoc]
    rfl

/-- The path made of the names that are left is left with the same names. -/
theorem stack_foldl_join_stack (p : Path) {base : Path} (h : base.components.stack = []) :
    (p.components.stack.foldl join base).components.stack = p.components.stack := by
  have hbase : Location.stackFrom [] base.components = [] := h
  rw [components_foldl_join (fun _ => isPlain_of_mem_stack), Location.stack,
    Location.stackFrom_append, hbase, Location.stackFrom_map_normal, List.nil_append]

end Path

namespace LocalStore

variable {p q root : Path}

theorem components_resolve (root p : Path) :
    (resolve ⟨some root⟩ p).components = root.components ++ p.components.stack.map .normal :=
  p.components_resolveUnder root

theorem resolve_isWithin (root p : Path) :
    (resolve ⟨some root⟩ p).components.isWithin root.components = true := by
  rw [components_resolve, Location.isWithin, List.isPrefixOf_iff_prefix]
  exact List.prefix_append _ _

theorem no_parent_below_root (root p : Path) :
    .parent ∉ (resolve ⟨some root⟩ p).components.drop root.components.length := by
  rw [components_resolve, List.drop_left]
  simp

/-- Beneath a root two paths lead to the same location exactly when the same names are left of
them. -/
theorem same_location_iff : (resolve ⟨some root⟩ q).components = (resolve ⟨some root⟩ p).components ↔
    q.components.stack = p.components.stack := by
  rw [components_resolve, components_resolve, List.append_cancel_left_eq,
    List.map_inj_right fun _ _ => Component.normal.inj]

/-- Whatever the root and the path are, the path leads to the location behind the root that the
names on the stack tell, and the count is their number. So it leads below the root and not back up,
it leads where the path made of these names leads, other names lead elsewhere, and a relative path
behind it goes on from there. -/
theorem leads_down_the_stack (root p : Path) :
    (resolve ⟨some root⟩ p).components = root.components ++ p.components.stack.map .normal ∧
      (p.descent root).depth = p.components.stack.length ∧
      (resolve ⟨some root⟩ p).components.isWithin root.components = true ∧
      .parent ∉ (resolve ⟨some root⟩ p).components.drop root.components.length ∧
      (∀ base ∈ [Path.mk "", ⟨"/"⟩],
        (resolve ⟨some root⟩ (p.components.stack.foldl Path.join base)).components =
          (resolve ⟨some root⟩ p).components) ∧
      (∀ q, (resolve ⟨some root⟩ q).components = (resolve ⟨some root⟩ p).components ↔
        q.components.stack = p.components.stack) ∧
      ∀ q : String, q.toList.head? ≠ some '/' →
        resolve ⟨some root⟩ (p.join q) =
            ((Path.mk q).components.foldl Path.Descent.step (p.descent root)).path ∧
          (resolve ⟨some root⟩ (p.join q)).components = root.components ++
            (Location.stackFrom p.components.stack (Path.mk q).components).map .normal := by
  refine ⟨components_resolve root p, (p.stands_descent root).depth, resolve_isWithin root p,
    no_parent_below_root root p, fun base hbase => ?_, fun q => same_location_iff,
    fun q hq => ⟨?_, ?_⟩⟩
  · have hempty : base.components.stack = [] := by
      rw [List.mem_pair] at hbase
      rcases hbase with rfl | rfl <;> rfl
    exact same_location_iff.2 (p.stack_foldl_join_stack hempty)
  · exact congrArg Path.Descent.path (p.descent_join root hq)
  · rw [components_resolve, p.stack_join hq]

end LocalStore
end OffloadCheck
