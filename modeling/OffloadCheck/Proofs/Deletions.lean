import Mathlib.Data.List.Induction
import OffloadCheck.Proofs.Beneath

/-! # What a deletion takes away beneath a root

A deletion that goes through takes a place away with all that is below it: below a file nothing is,
without recursion nothing may be, and a directory that is removed with all that is below it has been
emptied before, which leaves the way to it. So beneath the root only what is named goes. -/
namespace OffloadCheck

open OffloadCheck.Action

namespace Disk

variable {origin d d' u : Disk} {root p : Path} {names : List String} {place q : List String}
  {node : DiskNode}

theorem node?_removeAt (h : place ≠ []) (q : List String) :
    (d.removeAt place).node? q = if q = place then none else d.node? q := by
  unfold node? removeAt
  by_cases hq : q = []
  · subst hq
    rw [if_pos rfl, if_neg (Ne.symm h), if_pos rfl]
  · simp only [hq, if_false, SortedMap.get?_erase, Std.LawfulEqOrd.compare_eq_iff_eq,
      @eq_comm _ place]

theorem node?_removeBelow (place q : List String) :
    (d.removeBelow place).node? q = if place <+: q ∧ q ≠ place then none else d.node? q := by
  unfold node? removeBelow
  by_cases hq : q = []
  · subst hq
    rw [if_pos rfl, if_pos rfl, if_neg]
    exact fun h => h.2 (List.prefix_nil.1 h.1).symm
  · rw [if_neg hq, if_neg hq, SortedMap.get?_filter]
    by_cases hbelow : place <+: q ∧ q ≠ place
    · have hprefix : place.isPrefixOf q = true := List.isPrefixOf_iff_prefix.2 hbelow.1
      rw [if_pos hbelow]
      cases d.nodes.get? q <;> simp [Option.filter, hprefix, hbelow.2]
    · rw [if_neg hbelow]
      have hkept : (decide (q = place) || !place.isPrefixOf q) = true := by
        simp only [Bool.or_eq_true, decide_eq_true_eq, Bool.not_eq_true', Bool.eq_false_iff, ne_eq,
          List.isPrefixOf_iff_prefix]
        grind
      cases d.nodes.get? q <;> simp [Option.filter, hkept]

theorem removeDir_eq_ok (h : (removeDir p).run d = (.ok (), d')) :
    p.place ≠ [] ∧ d.childrenAt p.place = [] ∧ d' = d.removeAt p.place := by
  simp only [Action.run, removeDir] at h
  split at h
  · cases h
  · cases h
  · cases h
  · cases h
  · next place name hparent =>
    have hplace : place ++ [name] = p.place := (findParent_eq_ok hparent).eq_stack
    split at h
    · cases h
    · cases h
    · split at h
      · next hempty =>
        cases h
        rw [← hplace]
        exact ⟨List.concat_ne_nil _ _, List.isEmpty_iff.1 hempty, rfl⟩
      · cases h

/-- Removing what a path leads to does not fail for a missing entry. -/
theorem removeDir_ne_noEntry (h : d.find p = .ok (place, node)) :
    ((removeDir p).run d).1 ≠ .error (.system .noEntry) := by
  obtain ⟨hcheck, hwalk, _, _⟩ := find_eq_ok_iff.1 h
  cases hlast : (pieces p).getLast? with
  | none => simp [Action.run, removeDir, findParent, hcheck, hlast, bind, Except.bind]
  | some last =>
    obtain ⟨front, hfront⟩ := List.getLast?_eq_some_iff.1 hlast
    rw [hfront] at hwalk
    obtain ⟨before, hbefore, hstep⟩ := walk_append_eq_ok_iff.1 hwalk
    rw [walk_singleton] at hstep
    have hdir := (step_cases hstep).1
    have hparent : d.findParent p = if last = ['.'] then .ok (before, .current)
        else if last = ['.', '.'] then .ok (before, .parent)
        else .ok (before, .name (String.ofList last)) := by
      simp [findParent, hcheck, hfront, hbefore, hdir, bind, Except.bind, mapError_ok]
    by_cases hdot : last = ['.']
    · simp [Action.run, removeDir, hparent, hdot]
    · by_cases hdots : last = ['.', '.']
      · simp [Action.run, removeDir, hparent, hdots]
      · -- A name that has been stepped to is there.
        have hthere : (d.node? (before ++ [String.ofList last])).isSome = true := by
          simp only [Disk.step, hdir, hdot, hdots, ← Option.not_isSome] at hstep
          grind
        obtain ⟨found, hfound⟩ := Option.isSome_iff_exists.1 hthere
        simp only [Action.run, removeDir, hparent, hdot, hdots, if_false, hfound]
        cases found with
        | file i b => simp
        | dir =>
          dsimp only
          split
          · simp
          · simp

theorem removeTree_eq_ok (h : (removeTree p).run d = (.ok (), d')) :
    ∃ node, d.find p = .ok (p.place, node) ∧
      ((removeDir p).run (d.removeBelow p.place) = (.ok (), d') ∨
        ((removeDir p).run (d.removeBelow p.place)).1 = .error (.system .noEntry)) := by
  obtain ⟨_, _, hworld, htree⟩ := run_bind_eq_ok_iff.1 h
  cases hworld
  obtain ⟨⟨place, node⟩, _, hfound, htree⟩ := run_bind_eq_ok_iff.1 htree
  obtain ⟨hfind, rfl⟩ := Prod.mk.inj hfound
  obtain rfl := place_of_find hfind
  obtain ⟨_, _, hchange, htree⟩ := run_bind_eq_ok_iff.1 htree
  cases hchange
  obtain ⟨outcome, u, hattempt, hend⟩ := run_bind_eq_ok_iff.1 htree
  refine ⟨node, hfind, ?_⟩
  rcases hrun : (removeDir p).run (d.removeBelow p.place) with ⟨result, u'⟩
  obtain ⟨hresult, rfl⟩ := Prod.mk.inj (hattempt.symm.trans (run_attempt_of_run hrun))
  cases hresult
  split at hend
  · exact .inr rfl
  · obtain ⟨rfl, rfl⟩ := Prod.mk.inj hend
    exact .inl rfl

/-- What lies at or below a place has gone, and all the rest is as it was. -/
structure Clears (d : Disk) (place : List String) (u : Disk) : Prop where
  sound : u.Sound
  node? : ∀ q, u.node? q = if place <+: q then none else d.node? q

theorem clears_removeBelow (h : d.Sound) (hplace : place ≠ []) :
    Clears d place ((d.removeBelow place).removeAt place) := by
  refine ⟨(h.removeBelow place).removeAt place, fun q => ?_⟩
  rw [node?_removeAt hplace, node?_removeBelow]
  by_cases hq : q = place
  · rw [if_pos hq, if_pos (hq ▸ List.prefix_refl _)]
  · simp [hq]

theorem step_congr {piece : List Char} (h : d.step place piece = .ok q)
    (hplace : u.node? place = d.node? place) (hq : u.node? q = d.node? q) :
    u.step place piece = .ok q := by
  simp only [Disk.step, isDirAt, hplace] at h ⊢
  grind

/-- A walk depends on the places that it comes to. -/
theorem walk_congr {path : List (List Char)} (h : d.walk [] path = .ok q)
    (hagree : ∀ front r, front <+: path → d.walk [] front = .ok r → u.node? r = d.node? r) :
    u.walk [] path = .ok q := by
  induction path using List.reverseRecOn generalizing q with
  | nil => exact h
  | append_singleton front piece ih =>
    have hself := hagree _ q (List.prefix_refl _) h
    obtain ⟨before, hbefore, hstep⟩ := walk_append_eq_ok_iff.1 h
    have hfront : front <+: front ++ [piece] := List.prefix_append front [piece]
    refine walk_append_eq_ok_iff.2 ⟨before, ih hbefore fun early r hearly => ?_, ?_⟩
    · exact hagree early r (hearly.trans hfront)
    · rw [walk_singleton] at hstep ⊢
      exact step_congr hstep (hagree front before hfront hbefore) hself

namespace Beneath

/-- What a path beneath the root leads to depends on what lies outside and on the way down to it. -/
theorem find_congr (h : Beneath origin root d) (hnames : ∀ name ∈ names, Path.IsPlain name)
    (hfind : d.find (root.beneath names) = .ok (place, node))
    (houtside : ∀ q, ¬ root.place <+: q → u.node? q = d.node? q)
    (hway : ∀ ms, ms <+: names → u.node? (root.place ++ ms) = d.node? (root.place ++ ms)) :
    u.find (root.beneath names) = .ok (place, node) := by
  have hplace := (place_of_find hfind).trans (Path.place_beneath hnames root)
  obtain ⟨hcheck, hwalk, hnode, hslash⟩ := find_eq_ok_iff.1 hfind
  refine find_eq_ok_iff.2 ⟨hcheck, walk_congr hwalk fun front r hfront hr => ?_, ?_, hslash⟩
  · have hempty : [] ∉ front := fun hmem => nil_not_mem_pieces _ (hfront.subset hmem)
    rcases h.start.place_of_front hnames hfront (walk_eq_ok hempty hr) with
      ⟨hout, _⟩ | ⟨ms, hms, rfl⟩
    · exact houtside r hout
    · exact hway ms hms
  · rw [hplace, hway names (List.prefix_refl _), ← hplace, hnode]

/-- Nothing at all lies below a directory in which nothing lies directly. -/
theorem node?_of_childless (h : Beneath origin root d)
    (hchildren : d.childrenAt (root.place ++ names) = []) (ms : List String) (hms : names <+: ms)
    (hne : ms ≠ names) : d.node? (root.place ++ ms) = none := by
  obtain ⟨below, rfl⟩ := hms
  cases below with
  | nil => exact absurd (List.append_nil _) hne
  | cons name below =>
    have hchild : d.node? (root.place ++ (names ++ [name])) = none := by
      refine Option.eq_none_iff_forall_ne_some.2 fun node hnode => ?_
      rw [← List.append_assoc, ← mem_childrenAt, hchildren] at hnode
      cases hnode
    exact h.node?_below_of_none hchild ⟨below, by rw [List.append_assoc]; rfl⟩

theorem clears_removeAt (h : Beneath origin root d) (hplace : root.place ++ names ≠ [])
    (hbelow : ∀ ms, names <+: ms → ms ≠ names → d.node? (root.place ++ ms) = none) :
    Clears d (root.place ++ names) (d.removeAt (root.place ++ names)) := by
  refine ⟨h.sound.removeAt _, fun q => ?_⟩
  rw [node?_removeAt hplace]
  by_cases hq : q = root.place ++ names
  · rw [if_pos hq, if_pos (hq ▸ List.prefix_refl _)]
  · rw [if_neg hq]
    split
    · next hprefix =>
      obtain ⟨below, rfl⟩ := hprefix
      rw [List.append_assoc] at hq ⊢
      exact hbelow _ (List.prefix_append _ _) fun heq => hq (by rw [heq])
    · rfl

/-- Emptying a directory leaves it where its path leads. -/
theorem find_removeBelow (h : Beneath origin root d) (hnames : ∀ name ∈ names, Path.IsPlain name)
    (hfind : d.find (root.beneath names) = .ok (place, node)) :
    (d.removeBelow (root.place ++ names)).find (root.beneath names) = .ok (place, node) := by
  refine h.find_congr hnames hfind (fun q hq => ?_) fun ms hms => ?_
  · rw [node?_removeBelow, if_neg]
    exact fun hbelow => hq ((List.prefix_append _ _).trans hbelow.1)
  · rw [node?_removeBelow, if_neg]
    intro hbelow
    have hself := (List.prefix_append_right_inj _).1 hbelow.1
    exact hbelow.2 (by rw [hms.eq_of_length_le hself.length_le])

/-- What is beneath a root stays where its path leads when something else is taken away. -/
theorem clears (h : Beneath origin root d) (hclears : Clears d (root.place ++ names) u) :
    Beneath origin root u := by
  have houtside (q : List String) (hq : ¬ root.place <+: q) : u.node? q = d.node? q := by
    rw [hclears.node?, if_neg fun hprefix => hq ((List.prefix_append _ _).trans hprefix)]
  have hkept {ms : List String} (hthere : (u.node? (root.place ++ ms)).isSome = true) :
      ¬ names <+: ms := by
    intro hprefix
    rw [hclears.node?, if_pos ((List.prefix_append_right_inj _).2 hprefix)] at hthere
    cases hthere
  have hway {ms ks : List String} (hks : ks <+: ms) (hms : ¬ names <+: ms) :
      u.node? (root.place ++ ks) = d.node? (root.place ++ ks) := by
    rw [hclears.node?, if_neg]
    exact fun hprefix => hms (((List.prefix_append_right_inj _).1 hprefix).trans hks)
  refine ⟨h.start, hclears.sound, fun q hq hthere => ?_, fun ms hthere => ?_,
    fun ms node hnode => ?_⟩
  · rw [houtside q hq]
    exact h.outside q hq hthere
  · rw [hway (List.prefix_refl _) (hkept hthere)] at hthere
    exact h.plain ms hthere
  · have hms := hkept (Option.isSome_of_mem hnode)
    rw [hway (List.prefix_refl _) hms] at hnode
    exact h.find_congr (h.plain ms (Option.isSome_of_mem hnode)) (h.leads ms node hnode) houtside
      fun ks hks => hway hks hms

end Beneath

end Disk

/-- How a deletion that goes through ends. -/
inductive Deletes (d : Disk) (p : Path) : Bool → Bool → Disk → Prop
  | missing {recursive : Bool} : d.find p = .error (.system .noEntry) →
      Deletes d p recursive false d
  | file {recursive : Bool} {id : Nat} {data : Bytes} : d.find p = .ok (p.place, .file id data) →
      Deletes d p recursive true (d.removeAt p.place)
  | tree {u : Disk} : (Disk.removeTree p).run d = (.ok (), u) → Deletes d p true true u
  | emptyDir {u : Disk} : d.find p = .ok (p.place, .dir) → (Disk.removeDir p).run d = (.ok (), u) →
      Deletes d p false true u

namespace LocalStore

variable {origin d d' : Disk} {root p : Path} {recursive answer : Bool}

theorem deletes_of_run (store : LocalStore)
    (h : (store.fileSystem.delete p recursive).run d = (.ok answer, d')) :
    Deletes d (store.resolve p) recursive answer d' := by
  obtain ⟨_, _, hworld, hcases⟩ := run_bind_eq_ok_iff.1 h
  cases hworld
  split at hcases
  · next hmissing =>
    cases hcases
    exact .missing hmissing
  · cases hcases
  · next place id data hfind =>
    cases hcases
    obtain rfl := Disk.place_of_find hfind
    exact .file hfind
  · next place hfind =>
    obtain rfl := Disk.place_of_find hfind
    split at hcases
    · next hrecursive =>
      obtain ⟨_, _, htree, hend⟩ := run_bind_eq_ok_iff.1 hcases
      cases hend
      subst hrecursive
      exact .tree (run_mapError_eq_ok_iff.1 htree)
    · next hrecursive =>
      obtain ⟨_, _, hworld, hempty⟩ := run_bind_eq_ok_iff.1 hcases
      cases hworld
      split at hempty
      · cases hempty
      · obtain ⟨_, _, hdir, hend⟩ := run_bind_eq_ok_iff.1 hempty
        cases hend
        obtain rfl := Bool.eq_false_iff.2 hrecursive
        exact .emptyDir hfind (run_mapError_eq_ok_iff.1 hdir)

/-- A deletion beneath the root tells whether something was there and takes it away with all that is
below it; without recursion nothing may be below it. -/
theorem delete_eq_ok (h : origin.Beneath root d) (hp : .parent ∉ p.components)
    (hrun : ((rooted root).delete p recursive).run d = (.ok answer, d')) :
    answer = (d.node? (root.place ++ p.place)).isSome ∧
      (recursive = false → ∀ names, p.place <+: names → names ≠ p.place →
        d.node? (root.place ++ names) = none) ∧
      d.Clears (root.place ++ p.place) d' := by
  have hplain : ∀ name ∈ p.place, Path.IsPlain name := fun _ => Path.isPlain_of_mem_stack
  have hplace := Path.place_beneath hplain root
  have hdeletes := deletes_of_run ⟨some root⟩ hrun
  rw [resolve_rooted hp] at hdeletes
  cases hdeletes with
  | missing hmissing =>
    have hnone : d.node? (root.place ++ p.place) = none := by
      refine Option.eq_none_iff_forall_ne_some.2 fun node hnode => ?_
      rw [h.leads p.place node hnode] at hmissing
      cases hmissing
    refine ⟨by rw [hnone]; rfl, fun _ names hnames _ => h.node?_below_of_none hnone hnames,
      h.sound, fun q => ?_⟩
    split
    · next hprefix =>
      obtain ⟨below, rfl⟩ := hprefix
      rw [List.append_assoc]
      exact h.node?_below_of_none hnone (List.prefix_append _ _)
    · rfl
  | file hfind =>
    have hnode := (Disk.find_eq_ok_iff.1 hfind).2.2.1
    rw [hplace] at hnode ⊢
    have hbelow (names : List String) (hnames : p.place <+: names) (hne : names ≠ p.place) :=
      h.node?_below (Disk.isDirAt_eq_false hnode) hnames hne
    exact ⟨by rw [hnode]; rfl, fun _ => hbelow,
      h.clears_removeAt (Disk.ne_nil_of_file hnode) hbelow⟩
  | emptyDir hfind hremove =>
    obtain ⟨hne, hchildren, rfl⟩ := Disk.removeDir_eq_ok hremove
    have hnode := (Disk.find_eq_ok_iff.1 hfind).2.2.1
    rw [hplace] at hnode hne hchildren ⊢
    have hbelow := h.node?_of_childless hchildren
    exact ⟨by rw [hnode]; rfl, fun _ => hbelow, h.clears_removeAt hne hbelow⟩
  | tree hremove =>
    obtain ⟨node, hfind, hend⟩ := Disk.removeTree_eq_ok hremove
    have hnode := (Disk.find_eq_ok_iff.1 hfind).2.2.1
    rw [hplace] at hnode hend
    -- Emptying the directory leaves the way to it, so its removal does not miss it.
    have hstill := h.find_removeBelow hplain hfind
    have hremoved := hend.resolve_right (Disk.removeDir_ne_noEntry hstill)
    obtain ⟨hne, _, rfl⟩ := Disk.removeDir_eq_ok hremoved
    rw [hplace] at hne ⊢
    exact ⟨by rw [hnode]; rfl, Bool.noConfusion, Disk.clears_removeBelow h.sound hne⟩

end LocalStore
end OffloadCheck
