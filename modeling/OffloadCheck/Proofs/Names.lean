import OffloadCheck.Proofs.Stores

/-! # Names that storage holds

Whatever has been put into a memory tree or onto a disk lies under plain names. So a name that a
listing shows, put behind the path of the directory, leads to the child of that name and to nothing
else. -/

-- What is assumed of names is assumed together, also where a lemma needs less.
set_option linter.unusedSectionVars false

namespace OffloadCheck

open OffloadCheck.Action

/-! ## Memory trees -/

section Trees

variable {ν : Type} [Ord ν] [Inhabited ν] [DecidableEq ν] [PathText ν] [Std.TransOrd ν]

/-- All names on the way to a location are plain. -/
def Location.Plain (l : Location ν) : Prop := ∀ name, .normal name ∈ l → Path.IsPlain name

theorem Path.plain_components [LawfulPathText ν] (p : Path ν) : p.components.Plain :=
  fun _ => Path.isPlain_of_mem_components

namespace Memory

/-- The trees that come from the empty one. -/
inductive Reachable : Memory ν → Prop
  | empty : Reachable .empty
  | addFile {m : Memory ν} (p : Path ν) (bytes : Bytes) :
      Reachable m → Reachable (m.addFile p bytes)
  | addDir {m : Memory ν} (p : Path ν) : Reachable m → Reachable (m.addDir p)
  | openFile {m : Memory ν} (p : Path ν) :
      Reachable m → Reachable ((fileSystem.openFile p).run m).2
  | create {m : Memory ν} (p : Path ν) : Reachable m → Reachable ((fileSystem.create p).run m).2
  | append {m : Memory ν} (p : Path ν) (bytes : Bytes) :
      Reachable m → Reachable ((append p bytes).run m).2
  | copy {m : Memory ν} (src dst : Path ν) :
      Reachable m → Reachable ((fileSystem.copy src dst).run m).2
  | delete {m : Memory ν} (p : Path ν) (recursive : Bool) :
      Reachable m → Reachable ((fileSystem.delete p recursive).run m).2

/-- What holds of a tree still holds after anything that is done to it. -/
structure Invariant (P : Memory ν → Prop) : Prop where
  addFile : ∀ {m : Memory ν} (p : Path ν) (bytes : Bytes), P m → P (m.addFile p bytes)
  addDir : ∀ {m : Memory ν} (p : Path ν), P m → P (m.addDir p)
  opened : ∀ {m : Memory ν} (opens : Nat), P m → P { m with opens := opens }
  append : ∀ {m : Memory ν} (p : Path ν) (bytes : Bytes), P m → P ((append p bytes).run m).2
  delete : ∀ {m : Memory ν} (p : Path ν) (recursive : Bool), P m →
    P ((fileSystem.delete p recursive).run m).2

/-- What holds at first and is kept holds of every tree that comes from the empty one. -/
theorem Reachable.of_invariant {m : Memory ν} (h : m.Reachable) {P : Memory ν → Prop}
    (hinvariant : Invariant P) (hempty : P .empty) : P m := by
  induction h with
  | empty => exact hempty
  | addFile p bytes _ ih => exact hinvariant.addFile p bytes ih
  | addDir p _ ih => exact hinvariant.addDir p ih
  | openFile p _ ih =>
    simp only [Action.run, fileSystem]
    split
    · exact hinvariant.opened _ ih
    · exact ih
  | create p _ ih =>
    simp only [Action.run, fileSystem]
    split
    · exact ih
    · exact hinvariant.addFile p [] ih
  | append p bytes _ ih => exact hinvariant.append p bytes ih
  | copy src dst _ ih =>
    simp only [Action.run, fileSystem]
    split
    · exact hinvariant.addFile dst _ ih
    · exact ih
  | delete p recursive _ ih => exact hinvariant.delete p recursive ih

/-- Files and directories lie under plain names. -/
structure Plain (m : Memory ν) : Prop where
  file : ∀ l, (m.data? l).isSome = true → l.Plain
  dir : ∀ l, m.isDir l = true → l.Plain

variable [Std.LawfulEqOrd ν] [LawfulPathText ν]

namespace Plain

variable {m m' : Memory ν} {l : Location ν} {bytes : Bytes}

theorem puts (h : Plain m) (hl : l.Plain) (hp : Puts l bytes m m') : Plain m' where
  file k hk := by
    rw [hp.data] at hk
    split at hk
    · next heq => exact heq ▸ hl
    · exact h.file k hk
  dir k hk := by
    rcases (hp.isDir k).1 hk with hold | habove
    · exact h.dir k hold
    · obtain ⟨_, below, _, rfl⟩ := Location.mem_ancestors_iff.1 habove
      exact fun name hname => hl name (List.mem_append_left _ hname)

theorem of_fewer (h : Plain m) (hfewer : Fewer m m') : Plain m' :=
  ⟨fun k hk => h.file k (hfewer.file k hk), fun k hk => h.dir k (hfewer.isDir k hk)⟩

theorem addFile (h : Plain m) (p : Path ν) (bytes : Bytes) : Plain (m.addFile p bytes) :=
  h.puts p.plain_components (puts_addFile m p bytes)

theorem addDir (h : Plain m) (p : Path ν) : Plain (m.addDir p) where
  file := h.file
  dir k hk := by
    rcases isDir_addDir.1 hk with rfl | hadded
    · exact p.plain_components
    · exact (h.addFile p []).dir k (((puts_addFile m p []).isDir k).2 hadded)

theorem append (h : Plain m) (p : Path ν) (bytes : Bytes) : Plain ((append p bytes).run m).2 :=
  h.of_fewer (m.fewer_append p bytes)

theorem delete (h : Plain m) (p : Path ν) (recursive : Bool) :
    Plain ((fileSystem.delete p recursive).run m).2 :=
  h.of_fewer (m.fewer_delete p recursive)

end Plain

theorem plain_empty : Plain (.empty : Memory ν) where
  file _ hk := by cases hk
  dir _ hk := by cases hk

theorem Reachable.plain {m : Memory ν} (h : m.Reachable) : m.Plain :=
  h.of_invariant ⟨fun p bytes hm => hm.addFile p bytes, fun p hm => hm.addDir p,
    fun _ hm => ⟨hm.file, hm.dir⟩, fun p bytes hm => hm.append p bytes,
    fun p recursive hm => hm.delete p recursive⟩ plain_empty

end Memory

end Trees

/-! ## Disks -/

namespace Disk

variable {d : Disk} {p : Path} {place : List String} {name : String}

/-- Everything on the disk lies under plain names. -/
def Plain (d : Disk) : Prop :=
  ∀ place node, d.nodes.get? place = some node → ∀ name ∈ place, Path.IsPlain name

theorem isPlain_of_mem_pieces {piece : List Char} (h : piece ∈ pieces p) (hdot : piece ≠ ['.'])
    (hdots : piece ≠ ['.', '.']) : Path.IsPlain (String.ofList piece) := by
  obtain ⟨hpiece, hempty⟩ := List.mem_filter.1 h
  exact Path.isPlain_ofList (Text.not_mem_of_mem_splitOn hpiece) (of_decide_eq_true hempty) hdot
    hdots

theorem Plain.node? (h : d.Plain) (hnode : (d.node? place).isSome = true) :
    ∀ name ∈ place, Path.IsPlain name := by
  unfold Disk.node? at hnode
  split at hnode
  · next heq => simp [heq]
  · obtain ⟨node, hnode⟩ := Option.isSome_iff_exists.1 hnode
    exact h place node hnode

/-- A walk that starts under plain names stays there. -/
theorem Plain.walk (h : d.Plain) {path : List (List Char)} {q : List String}
    (hplace : ∀ name ∈ place, Path.IsPlain name) (hwalk : d.walk place path = .ok q) :
    ∀ name ∈ q, Path.IsPlain name := by
  induction path generalizing place with
  | nil =>
    cases hwalk
    exact hplace
  | cons piece path ih =>
    obtain ⟨next, hstep, hrest⟩ := walk_cons_eq_ok_iff.1 hwalk
    refine ih ?_ hrest
    obtain ⟨_, rfl | rfl | ⟨name, rfl, hthere⟩⟩ := step_cases hstep
    · exact hplace
    · exact fun name hname => hplace name (List.dropLast_subset _ hname)
    · exact h.node? hthere

theorem LeadsTo.plain (hleads : d.LeadsTo p place name) (h : d.Plain) :
    ∀ other ∈ place ++ [name], Path.IsPlain other := by
  obtain ⟨front, last, hpieces, hwalk, hdot, hdots, rfl⟩ := hleads.pieces
  have hlast : last ∈ Disk.pieces p := by simp [hpieces]
  intro other hother
  rcases List.mem_append.1 hother with hplace | hname
  · exact h.walk (by simp) hwalk other hplace
  · obtain rfl := List.mem_singleton.1 hname
    exact isPlain_of_mem_pieces hlast hdot hdots

theorem Plain.insert (h : d.Plain) (hplace : ∀ name ∈ place, Path.IsPlain name) (node : DiskNode)
    (next : Nat) : Plain ⟨d.nodes.insert place node, next⟩ := by
  intro q other hq
  rw [SortedMap.get?_insert] at hq
  split at hq
  · next heq =>
    obtain rfl := Std.LawfulEqOrd.eq_of_compare heq
    exact hplace
  · exact h q other hq

theorem Plain.empties (h : d.Plain) {id : Nat} {d' : Disk}
    (hplace : ∀ name ∈ place, Path.IsPlain name) (hempties : Empties d place id d') : d'.Plain := by
  cases hempties with
  | old _ => exact h.insert hplace _ _
  | fresh _ _ => exact h.insert hplace _ _

theorem invariant_plain : Invariant Plain where
  makeDir p := by
    refine sustains_of_state fun d hd => ?_
    rcases run_makeDir p d with ⟨e, hrun⟩ | ⟨place, name, hleads, _, hrun⟩
    · rw [hrun]
      exact hd
    · rw [hrun]
      exact hd.insert (hleads.plain hd) _ _
  openForWriting p := by
    refine sustains_of_state fun d hd => ?_
    rcases run_openForWriting p d with ⟨e, hrun⟩ | ⟨place, name, id, v, hleads, hrun, hempties, _⟩
    · rw [hrun]
      exact hd
    · rw [hrun]
      exact hd.empties (hleads.plain hd) hempties
  writeAt id i bytes := by
    refine sustains_of_state fun d hd => ?_
    rcases run_writeAt id i bytes d with hrun | ⟨place, data, hfile, hrun⟩
    · rw [hrun]
      exact hd
    · rw [hrun]
      exact hd.insert (hd place _ hfile) _ _
  removeAt {d} hd place := by
    intro q node hq
    rw [removeAt, SortedMap.get?_erase] at hq
    split at hq
    · cases hq
    · exact hd q node hq
  removeBelow {d} hd place := by
    intro q node hq
    rw [removeBelow, SortedMap.get?_filter] at hq
    exact hd q node (Option.filter_eq_some_iff.1 hq).1

theorem Reachable.plain (h : Reachable d) : d.Plain := by
  refine h.of_invariant invariant_plain fun place node hnode => ?_
  cases hnode

/-- What is put behind a path without replacing it is walked behind it. -/
theorem pieces_join_of_relative (p : Path) {q : String} (h : q.toList.head? ≠ some '/') :
    pieces (p.join q) = pieces p ++ pieces ⟨q⟩ := by
  have hbehind (front : List Char) : (Text.splitOn '/' (front ++ '/' :: q.toList)).filter
      (· ≠ []) = (Text.splitOn '/' front).filter (· ≠ []) ++ pieces ⟨q⟩ := by
    rw [Text.splitOn_append, List.filter_append]
    rfl
  rw [Path.join_eq, Path.joinText, if_neg h]
  by_cases htext : p.text.toList = []
  · rw [if_pos (by simp [htext])]
    simp [pieces, String.toList_append, htext, Text.splitOn]
  · obtain ⟨front, last, hlast⟩ : ∃ front last, p.text.toList = front ++ [last] :=
      ⟨_, _, (List.dropLast_concat_getLast htext).symm⟩
    by_cases hend : last = '/'
    · subst hend
      rw [if_pos (by simp [hlast])]
      have hp : pieces p = (Text.splitOn '/' front).filter (· ≠ []) := by
        rw [pieces, hlast, Text.splitOn_append, List.filter_append]
        simp [Text.splitOn]
      rw [hp, ← hbehind, pieces, String.toList_append, hlast, List.append_assoc]
      rfl
    · rw [if_neg (by simp [hlast, hend]), pieces, String.toList_append, String.toList_append,
        List.append_assoc]
      exact hbehind p.text.toList

/-- A name put behind a path is one more piece to walk. -/
theorem pieces_join (p : Path) (h : Path.IsPlain name) :
    pieces (p.join name) = pieces p ++ [name.toList] := by
  obtain ⟨hslash, hempty, _⟩ := h.piece
  have hname : pieces ⟨name⟩ = [name.toList] := by
    rw [pieces, Text.splitOn_eq_singleton hslash]
    simpa using hempty
  rw [pieces_join_of_relative p h.relative.notRooted, hname]

end Disk

namespace LocalStore

theorem resolve_join (store : LocalStore) (dir : Path) {name : String} (h : Path.IsPlain name) :
    store.resolve (dir.join name) = (store.resolve dir).join name := by
  unfold resolve
  cases store.root with
  | none => rfl
  | some root =>
    simp only [Path.resolveUnder, Path.descent, Path.components_join_plain dir h,
      List.foldl_append]
    rfl

end LocalStore
end OffloadCheck
