import Mathlib.Data.List.Induction
import OffloadCheck.Proofs.Memory

/-! # What is written through open handles

A writer of a memory tree knows the path it was created for and no file: it appends to whatever file
is at that path when it writes. So what a file holds is told by the calls alone. The last call that
put a file there gives the beginning, and every later write to the path, through whichever handle
and however old, goes behind it, until a removal takes the file away. A stream keeps what the file
held when it was opened. -/
namespace OffloadCheck.Memory

open OffloadCheck.Action Location

/-! ## A tree in use -/

/-- A writer that has been given out, with the path it was created for. -/
structure Handle where
  path : Path
  writer : Writer Memory

/-- A tree with all that has been opened on it. Handles and streams have the numbers of their places
in these lists. However many users share the tree, their calls come one after the other. -/
structure Shared where
  tree : Memory
  handles : List Handle
  streams : List (Memory → ByteStream)

namespace Shared

inductive Call
  | addFile (p : Path) (bytes : Bytes)
  | addDir (p : Path)
  | create (p : Path)
  | write (handle : Nat) (bytes : Bytes)
  | copy (src dst : Path)
  | delete (p : Path) (recursive : Bool)
  | openFile (p : Path)
  | list (p : Path)

/-- What a call leaves, whether it succeeds or fails. -/
def Call.apply (s : Shared) : Call → Shared
  | .addFile p bytes => { s with tree := s.tree.addFile p bytes }
  | .addDir p => { s with tree := s.tree.addDir p }
  | .create p =>
    match (fileSystem.create p).run s.tree with
    | (.ok w, tree) => { s with tree := tree, handles := s.handles ++ [⟨p, w⟩] }
    | (.error _, tree) => { s with tree := tree }
  | .write i bytes =>
    match s.handles[i]? with
    | none => s
    | some h =>
      match (h.writer.write bytes).run s.tree with
      | (.ok w, tree) => { s with tree := tree, handles := s.handles.set i ⟨h.path, w⟩ }
      | (.error _, tree) => { s with tree := tree }
  | .copy src dst => { s with tree := ((fileSystem.copy src dst).run s.tree).2 }
  | .delete p recursive => { s with tree := ((fileSystem.delete p recursive).run s.tree).2 }
  | .openFile p =>
    match (fileSystem.openFile p).run s.tree with
    | (.ok stream, tree) => { s with tree := tree, streams := s.streams ++ [stream] }
    | (.error _, tree) => { s with tree := tree }
  | .list p => { s with tree := ((fileSystem.list p).run s.tree).2 }

def carryOut (s : Shared) (calls : List Call) : Shared := calls.foldl Call.apply s

/-- What an empty tree has become by some calls. -/
def after (calls : List Call) : Shared := carryOut ⟨.empty, [], []⟩ calls

/-! ## What a call does to a file -/

/-- The data of the file that a call puts at a location. -/
def Call.puts? (s : Shared) (l : Location) : Call → Option Bytes
  | .addFile p bytes => if l = p.components then some bytes else none
  | .create p =>
    if l = p.components ∧ s.tree.isDir p.components = false then some [] else none
  | .copy src dst => if l = dst.components then s.tree.data? src.components else none
  | _ => none

/-- Whether a call takes the file at a location away: the file is removed itself, or a directory
that it is in, with everything in it. -/
def Call.removes (s : Shared) (l : Location) : Call → Bool
  | .delete p recursive =>
    if (s.tree.data? p.components).isSome then l = p.components
    else s.tree.isDir p.components && recursive && l.isWithin p.components
  | _ => false

/-- The bytes that a call writes through a handle of the path with a location. -/
def Call.writes (s : Shared) (l : Location) : Call → Bytes
  | .write i bytes =>
    match s.handles[i]? with
    | some h => if l = h.path.components then bytes else []
    | none => []
  | _ => []

/-- Along some calls no file is put at the location and none is taken away. -/
def Undisturbed (l : Location) (s : Shared) : List Call → Prop
  | [] => True
  | call :: calls =>
    call.puts? s l = none ∧ call.removes s l = false ∧ Undisturbed l (call.apply s) calls

/-- What some calls write through handles of the location, in their order. -/
def written (l : Location) (s : Shared) : List Call → Bytes
  | [] => []
  | call :: calls => call.writes s l ++ written l (call.apply s) calls

/-! ## One call -/

/-- Every handle writes to its path, at whatever position it is. -/
def Proper (s : Shared) : Prop :=
  ∀ h ∈ s.handles, h.writer.writeAt = fun _ bytes => append h.path bytes

variable {s : Shared} {l : Location} {w : Writer Memory} {m : Memory} {p : Path} {bytes : Bytes}

theorem run_create_of_isDir (h : m.isDir p.components = true) :
    (fileSystem.create p).run m = (.error (.isADirectory p), m) := by
  simp [Action.run, fileSystem, h]

theorem run_create_of_not_isDir (h : m.isDir p.components = false) :
    (fileSystem.create p).run m = (.ok ⟨0, fun _ bytes => append p bytes⟩, m.addFile p []) := by
  simp [Action.run, fileSystem, h]

theorem run_openFile_of_file {data : Bytes} (h : m.data? p.components = some data) :
    (fileSystem.openFile p).run m =
      (.ok fun _ => ByteStream.ofBytes data, { m with opens := m.opens + 1 }) := by
  obtain ⟨f, hfile, rfl⟩ := Option.map_eq_some_iff.1 h
  simp [Action.run, fileSystem, hfile]

theorem run_openFile_of_missing (h : m.data? p.components = none) :
    (fileSystem.openFile p).run m = (.error (m.missing p), m) := by
  have hfile : m.file? p.components = none := Option.map_eq_none_iff.1 h
  simp [Action.run, fileSystem, hfile]

theorem run_write_of_missing (hw : w.writeAt = fun _ bytes => append p bytes) (hne : bytes ≠ [])
    (h : m.data? p.components = none) :
    (w.write bytes).run m = (.error (.deletedWhileOpen p.text), m) := by
  have hfile : m.file? p.components = none := Option.map_eq_none_iff.1 h
  have happend : (append p bytes).run m = (.error (.deletedWhileOpen p.text), m) := by
    simp only [Action.run, append, hfile]
    rfl
  have hfull : bytes.isEmpty = false := by simpa using hne
  rw [Writer.write, hfull, hw]
  exact run_bind_of_error happend

theorem run_write_of_file (hw : w.writeAt = fun _ bytes => append p bytes) (hne : bytes ≠ [])
    {old : Bytes} (h : m.data? p.components = some old) :
    ∃ m', (w.write bytes).run m = (.ok { w with position := w.position + bytes.length }, m') ∧
      ∀ k, m'.data? k = if k = p.components then some (old ++ bytes) else m.data? k := by
  obtain ⟨m', happend, hdata, _⟩ := run_append h bytes
  have hfull : bytes.isEmpty = false := by simpa using hne
  refine ⟨m', ?_, hdata⟩
  rw [Writer.write, hfull, hw]
  exact run_bind_of_ok happend

theorem data?_eq_none_of_isPopulated (h : m.isPopulated l = false) {k : Location}
    (hk : k.isWithin l = true) : m.data? k = none := by
  refine Option.not_isSome_iff_eq_none.1 fun hthere => ?_
  obtain ⟨f, hf⟩ := Option.isSome_iff_exists.1 (Option.isSome_map.symm.trans hthere)
  rw [isPopulated, Bool.or_eq_false_iff, List.any_eq_false] at h
  exact h.1 k ((m.files.mem_keys_iff).2 ⟨f, hf⟩) hk

theorem data?_delete (m : Memory) (p : Path) (recursive : Bool) (l : Location) :
    ((fileSystem.delete p recursive).run m).2.data? l =
      if (if (m.data? p.components).isSome then decide (l = p.components)
        else m.isDir p.components && recursive && l.isWithin p.components) = true
      then none else m.data? l := by
  cases hfile : m.file? p.components with
  | some f =>
    have hrun : ((fileSystem.delete p recursive).run m).2 =
        { m with files := m.files.erase p.components } := by
      simp [Action.run, fileSystem, hfile]
    have hthere : (m.data? p.components).isSome = true := by rw [data?, hfile]; rfl
    rw [hrun, data?, file?_erase, if_pos hthere]
    by_cases hl : l = p.components
    · simp [hl]
    · simp [hl, data?]
  | none =>
    have hnone : (m.data? p.components).isSome = false := by rw [data?, hfile]; rfl
    rw [if_neg (ne_true_of_eq_false hnone)]
    cases hdir : m.isDir p.components with
    | false => simp [Action.run, fileSystem, hfile, hdir]
    | true =>
      have hwithout : (m.without p.components).data? l =
          if l.isWithin p.components then none else m.data? l := by
        rw [data?, file?_without]
        split
        · rfl
        · rfl
      cases recursive with
      | true => simpa [Action.run, fileSystem, hfile, hdir] using hwithout
      | false =>
        -- A directory that is not populated goes, and no file with it.
        cases hpopulated : m.isPopulated p.components with
        | true => simp [Action.run, fileSystem, hfile, hdir, hpopulated]
        | false =>
          have hnothing : (m.without p.components).data? l = m.data? l := by
            rw [hwithout]
            split
            · next hl => exact (data?_eq_none_of_isPopulated hpopulated hl).symm
            · rfl
          simpa [Action.run, fileSystem, hfile, hdir, hpopulated] using hnothing

theorem data?_write {i : Nat} {h : Handle} (hi : s.handles[i]? = some h)
    (hw : h.writer.writeAt = fun _ bytes => append h.path bytes) (bytes : Bytes) (l : Location) :
    ((Call.write i bytes).apply s).tree.data? l =
      (s.tree.data? l).map (· ++ if l = h.path.components then bytes else []) := by
  simp only [Call.apply, hi]
  by_cases hne : bytes = []
  · subst hne
    have hrun : (h.writer.write []).run s.tree = (.ok h.writer, s.tree) := rfl
    simp [hrun]
  · by_cases hl : l = h.path.components
    · subst hl
      cases hold : s.tree.data? h.path.components with
      | none =>
        rw [run_write_of_missing hw hne hold]
        simp [hold]
      | some old =>
        obtain ⟨m', hrun, hdata⟩ := run_write_of_file hw hne hold
        simp [hrun, hdata]
    · cases hold : s.tree.data? h.path.components with
      | none =>
        rw [run_write_of_missing hw hne hold]
        simp [hl]
      | some old =>
        obtain ⟨m', hrun, hdata⟩ := run_write_of_file hw hne hold
        simp [hrun, hdata, hl]

/-- What is at a location after a call: the file that the call puts there, or nothing when it takes
the file away, or else the file with what the call writes behind it. -/
theorem data?_apply (hs : s.Proper) (call : Call) (l : Location) :
    (call.apply s).tree.data? l =
      (call.puts? s l).or
        (if call.removes s l then none else (s.tree.data? l).map (· ++ call.writes s l)) := by
  have hsame : (s.tree.data? l).map (· ++ ([] : Bytes)) = s.tree.data? l := by simp
  have hputs {q : Path} {data : Bytes} : (s.tree.addFile q data).data? l =
      (if l = q.components then some data else none).or (s.tree.data? l) := by
    rw [(puts_addFile s.tree q data).data]
    split
    · rfl
    · rfl
  cases call with
  | addFile p bytes =>
    simp only [Call.apply, Call.puts?, Call.removes, Call.writes, hputs, hsame]
    rfl
  | addDir p =>
    simp only [Call.apply, Call.puts?, Call.removes, Call.writes, hsame]
    rfl
  | create p =>
    simp only [Call.puts?, Call.removes, Call.writes, hsame]
    cases hdir : s.tree.isDir p.components with
    | true => simp [Call.apply, run_create_of_isDir hdir]
    | false => simp [Call.apply, run_create_of_not_isDir hdir, hputs]
  | write i bytes =>
    simp only [Call.puts?, Call.removes, Call.writes, Option.none_or]
    cases hi : s.handles[i]? with
    | none => simp [Call.apply, hi]
    | some h => exact data?_write hi (hs h (List.mem_of_getElem? hi)) bytes l
  | copy src dst =>
    simp only [Call.apply, Call.puts?, Call.removes, Call.writes, hsame]
    cases hfile : s.tree.file? src.components with
    | none => simp [Action.run, fileSystem, hfile, data?]
    | some f =>
      have hrun : ((fileSystem.copy src dst).run s.tree).2 = s.tree.addFile dst f.data := by
        simp [Action.run, fileSystem, hfile]
      have hsrc : s.tree.data? src.components = some f.data := by rw [data?, hfile]; rfl
      rw [hrun, hputs, hsrc]
      rfl
  | delete p recursive =>
    simp only [Call.apply, Call.puts?, Call.removes, Call.writes, hsame]
    exact data?_delete s.tree p recursive l
  | openFile p =>
    simp only [Call.puts?, Call.removes, Call.writes, hsame]
    cases hold : s.tree.data? p.components with
    | none => simp [Call.apply, run_openFile_of_missing hold]
    | some data =>
      simp only [Call.apply, run_openFile_of_file hold]
      rfl
  | list p =>
    simp only [Call.apply, Call.puts?, Call.removes, Call.writes, hsame]
    rfl

theorem writeAt_of_write {m' : Memory} {w' : Writer Memory}
    (h : (w.write bytes).run m = (.ok w', m')) : w'.writeAt = w.writeAt := by
  unfold Writer.write at h
  split at h
  · cases h
    rfl
  · obtain ⟨_, _, _, h⟩ := run_bind_eq_ok_iff.1 h
    cases h
    rfl

theorem Proper.apply (hs : s.Proper) (call : Call) : (call.apply s).Proper := by
  cases call with
  | create p =>
    cases hdir : s.tree.isDir p.components with
    | true => simpa only [Call.apply, run_create_of_isDir hdir] using hs
    | false =>
      simp only [Call.apply, run_create_of_not_isDir hdir]
      intro h hh
      rcases List.mem_append.1 hh with hold | hnew
      · exact hs h hold
      · rw [List.mem_singleton.1 hnew]
  | write i bytes =>
    simp only [Call.apply]
    split
    · exact hs
    · next h hi =>
      split
      · next w m hrun =>
        intro h' hh'
        rcases List.mem_or_eq_of_mem_set hh' with hold | rfl
        · exact hs h' hold
        · exact (writeAt_of_write hrun).trans (hs h (List.mem_of_getElem? hi))
      · exact hs
  | openFile p =>
    simp only [Call.apply]
    split
    · exact hs
    · exact hs
  | _ => exact hs

/-! ## Histories -/

theorem carryOut_append (s : Shared) (calls later : List Call) :
    s.carryOut (calls ++ later) = (s.carryOut calls).carryOut later :=
  List.foldl_append

theorem after_append (calls later : List Call) :
    after (calls ++ later) = (after calls).carryOut later :=
  carryOut_append _ calls later

theorem after_concat (calls : List Call) (call : Call) :
    after (calls ++ [call]) = call.apply (after calls) :=
  after_append calls [call]

theorem carryOut_after_concat (early : List Call) (call : Call) (late : List Call) :
    (after (early ++ [call])).carryOut late = after (early ++ call :: late) := by
  rw [← after_append, List.append_assoc]
  rfl

theorem proper_after (calls : List Call) : (after calls).Proper := by
  induction calls using List.reverseRecOn with
  | nil =>
    intro h hh
    cases hh
  | append_singleton calls call ih =>
    rw [after_concat]
    exact ih.apply call

theorem undisturbed_append {calls later : List Call} : Undisturbed l s (calls ++ later) ↔
    Undisturbed l s calls ∧ Undisturbed l (s.carryOut calls) later := by
  induction calls generalizing s with
  | nil => simp [Undisturbed, carryOut]
  | cons call calls ih =>
    rw [List.cons_append, Undisturbed, Undisturbed, ih, and_assoc, and_assoc]
    rfl

theorem written_append (calls later : List Call) : written l s (calls ++ later) =
    written l s calls ++ written l (s.carryOut calls) later := by
  induction calls generalizing s with
  | nil => rfl
  | cons call calls ih =>
    rw [List.cons_append, written, written, ih, List.append_assoc]
    rfl

theorem data?_of_undisturbed (hs : s.Proper) {calls : List Call} (h : Undisturbed l s calls) :
    (s.carryOut calls).tree.data? l = (s.tree.data? l).map (· ++ written l s calls) := by
  induction calls generalizing s with
  | nil => simp [carryOut, written]
  | cons call calls ih =>
    obtain ⟨hputs, hremoves, hrest⟩ := h
    change ((call.apply s).carryOut calls).tree.data? l = _
    rw [ih (hs.apply call) hrest, data?_apply hs, hputs, hremoves]
    simp [written, Function.comp_def]

/-- A file is at a location exactly if it was put there at some time and has been left there since;
it holds what it was put with and what has been written since. -/
theorem data?_after_eq_some_iff {calls : List Call} {bytes : Bytes} :
    (after calls).tree.data? l = some bytes ↔
      ∃ early call late data, calls = early ++ call :: late ∧
        call.puts? (after early) l = some data ∧
        Undisturbed l (after (early ++ [call])) late ∧
        bytes = data ++ written l (after (early ++ [call])) late := by
  constructor
  · intro h
    induction calls using List.reverseRecOn generalizing bytes with
    | nil => cases h
    | append_singleton calls last ih =>
      rw [after_concat, data?_apply (proper_after calls)] at h
      cases hputs : last.puts? (after calls) l with
      | some data =>
        rw [hputs, Option.some_or, Option.some.injEq] at h
        exact ⟨calls, last, [], data, rfl, hputs, trivial, by simp [written, h]⟩
      | none =>
        rw [hputs, Option.none_or] at h
        split at h
        · cases h
        · next hremoves =>
          obtain ⟨old, hold, rfl⟩ := Option.map_eq_some_iff.1 h
          obtain ⟨early, call, late, data, rfl, hcall, hlate, rfl⟩ := ih hold
          refine ⟨early, call, late ++ [last], data, by simp, hcall, ?_, ?_⟩
          · rw [undisturbed_append, carryOut_after_concat]
            exact ⟨hlate, hputs, Bool.eq_false_iff.2 hremoves, trivial⟩
          · rw [written_append, carryOut_after_concat, List.append_assoc]
            simp [written]
  · rintro ⟨early, call, late, data, rfl, hputs, hlate, rfl⟩
    rw [← carryOut_after_concat, data?_of_undisturbed (proper_after _) hlate, after_concat,
      data?_apply (proper_after early), hputs]
    rfl

/-- Where a call stands among some calls of which the last one is known. -/
theorem concat_eq_append_cons {α : Type} {xs ys zs : List α} {x y : α}
    (h : xs ++ [x] = ys ++ y :: zs) :
    (zs = [] ∧ xs = ys ∧ x = y) ∨ ∃ zs', zs = zs' ++ [x] ∧ xs = ys ++ y :: zs' := by
  cases zs using List.reverseRecOn with
  | nil =>
    obtain ⟨hfront, hlast⟩ := List.append_inj' h rfl
    exact .inl ⟨rfl, hfront, List.singleton_inj.1 hlast⟩
  | append_singleton zs z =>
    rw [← List.cons_append, ← List.append_assoc] at h
    obtain ⟨hfront, hlast⟩ := List.append_inj' h rfl
    exact .inr ⟨zs, by rw [List.singleton_inj.1 hlast], hfront⟩

/-- No file is at a location exactly if every file that was put there has been taken away since. -/
theorem data?_after_eq_none_iff {calls : List Call} :
    (after calls).tree.data? l = none ↔
      ∀ early call late, calls = early ++ call :: late →
        (call.puts? (after early) l).isSome = true →
        ∃ kept removal rest, late = kept ++ removal :: rest ∧
          removal.removes (after (early ++ call :: kept)) l = true := by
  induction calls using List.reverseRecOn with
  | nil => exact iff_of_true rfl fun early call late heq => by simp at heq
  | append_singleton calls last ih =>
    rw [after_concat, data?_apply (proper_after calls)]
    cases hputs : last.puts? (after calls) l with
    | some data =>
      refine iff_of_false (by simp) fun h => ?_
      obtain ⟨kept, removal, rest, heq, _⟩ := h calls last [] rfl (by rw [hputs]; rfl)
      simp at heq
    | none =>
      -- The last call puts no file there, so every file was put there by a call before it.
      have hbefore {early : List Call} {call : Call} {late : List Call}
          (heq : calls ++ [last] = early ++ call :: late)
          (hcall : (call.puts? (after early) l).isSome = true) :
          ∃ late', late = late' ++ [last] ∧ calls = early ++ call :: late' := by
        refine (concat_eq_append_cons heq).resolve_left ?_
        rintro ⟨_, rfl, rfl⟩
        rw [hputs] at hcall
        cases hcall
      rw [Option.none_or]
      cases hremoves : last.removes (after calls) l with
      | true =>
        refine iff_of_true (if_pos rfl) fun early call late heq hcall => ?_
        obtain ⟨late', rfl, rfl⟩ := hbefore heq hcall
        exact ⟨late', last, [], rfl, hremoves⟩
      | false =>
        rw [if_neg Bool.false_ne_true, Option.map_eq_none_iff, ih]
        constructor
        · intro h early call late heq hcall
          obtain ⟨late', rfl, hcalls⟩ := hbefore heq hcall
          obtain ⟨kept, removal, rest, rfl, hremoval⟩ := h early call late' hcalls hcall
          exact ⟨kept, removal, rest ++ [last], by simp, hremoval⟩
        · rintro h early call late rfl hcall
          obtain ⟨kept, removal, rest, heq, hremoval⟩ :=
            h early call (late ++ [last]) (by simp) hcall
          rcases concat_eq_append_cons heq with ⟨_, rfl, rfl⟩ | ⟨rest', _, hlate⟩
          · rw [hremoves] at hremoval
            cases hremoval
          · exact ⟨kept, removal, rest', hlate, hremoval⟩

/-! ## Handles and streams -/

/-- What has been opened keeps its number, a handle its path and a stream what it shows. -/
structure Keeps (s t : Shared) : Prop where
  handles : s.handles.map (·.path) <+: t.handles.map (·.path)
  streams : s.streams <+: t.streams

theorem keeps_withTree (s : Shared) (tree : Memory) : Keeps s { s with tree := tree } :=
  ⟨List.prefix_rfl, List.prefix_rfl⟩

theorem keeps_apply (s : Shared) (call : Call) : Keeps s (call.apply s) := by
  cases call with
  | create p =>
    simp only [Call.apply]
    split
    · refine ⟨?_, List.prefix_rfl⟩
      rw [List.map_append]
      exact List.prefix_append _ _
    · exact keeps_withTree s _
  | write i bytes =>
    simp only [Call.apply]
    split
    · exact keeps_withTree s s.tree
    · next h hi =>
      split
      · next w tree _ =>
        obtain ⟨hlt, rfl⟩ := List.getElem?_eq_some_iff.1 hi
        have hlt' : i < (s.handles.map (·.path)).length := by rwa [List.length_map]
        have hself := List.set_getElem_self hlt'
        rw [List.getElem_map] at hself
        have hpaths := (List.map_set (l := s.handles) (a := ⟨_, w⟩)).trans hself
        exact ⟨hpaths.symm ▸ List.prefix_rfl, List.prefix_rfl⟩
      · exact keeps_withTree s _
  | openFile p =>
    simp only [Call.apply]
    split
    · exact ⟨List.prefix_rfl, List.prefix_append _ _⟩
    · exact keeps_withTree s _
  | _ => exact keeps_withTree s _

theorem keeps_carryOut (s : Shared) (calls : List Call) : Keeps s (s.carryOut calls) := by
  induction calls generalizing s with
  | nil => exact keeps_withTree s s.tree
  | cons call calls ih =>
    have hstep := keeps_apply s call
    have hrest := ih (call.apply s)
    exact ⟨hstep.handles.trans hrest.handles, hstep.streams.trans hrest.streams⟩

/-- A file that is created gives a handle of its path, which is there from then on. -/
theorem path_of_create {early late : List Call}
    (h : (after early).tree.isDir p.components = false) :
    ((after (early ++ .create p :: late)).handles[(after early).handles.length]?).map (·.path) =
      some p := by
  have hopened : ((Call.create p).apply (after early)).handles.map (·.path) =
      (after early).handles.map (·.path) ++ [p] := by
    simp [Call.apply, run_create_of_not_isDir h]
  obtain ⟨more, hkept⟩ := (keeps_carryOut ((Call.create p).apply (after early)) late).handles
  rw [← carryOut_after_concat, after_concat, ← List.getElem?_map, ← hkept, hopened]
  simp

/-- A file that is opened gives a stream that always shows what the file holds then. -/
theorem stream_of_openFile {early late : List Call}
    (h : (after early).tree.data? p.components = some bytes) :
    (after (early ++ .openFile p :: late)).streams[(after early).streams.length]? =
      some fun _ => ByteStream.ofBytes bytes := by
  have hopened : ((Call.openFile p).apply (after early)).streams =
      (after early).streams ++ [fun _ => ByteStream.ofBytes bytes] := by
    simp [Call.apply, run_openFile_of_file h]
  obtain ⟨more, hkept⟩ := (keeps_carryOut ((Call.openFile p).apply (after early)) late).streams
  rw [← carryOut_after_concat, after_concat, ← hkept, hopened]
  simp

/-- However calls on a tree follow each other, they alone tell what it holds. There is no file at a
path exactly if every file that was put there has been taken away since. Otherwise the file holds
what the last call that put it there has put, followed by all that was written to its path since,
through new handles and old ones. A write of some bytes fails exactly if there is no file at the
path of its handle, and then changes nothing. A handle is for the path of its creation, and a stream
always shows what its file held when it was opened. -/
theorem read?_after_told_by_calls (calls : List Call) :
    (∀ p, (after calls).tree.read? p = none ↔
      ∀ early call late, calls = early ++ call :: late →
        (call.puts? (after early) p.components).isSome = true →
        ∃ kept removal rest, late = kept ++ removal :: rest ∧
          removal.removes (after (early ++ call :: kept)) p.components = true) ∧
    (∀ p bytes, (after calls).tree.read? p = some bytes ↔
      ∃ early call late data, calls = early ++ call :: late ∧
        call.puts? (after early) p.components = some data ∧
        Undisturbed p.components (after (early ++ [call])) late ∧
        bytes = data ++ written p.components (after (early ++ [call])) late) ∧
    (∀ (i : Nat) (h : Handle) (bytes : Bytes), (after calls).handles[i]? = some h → bytes ≠ [] →
      ((∃ w t, (h.writer.write bytes).run (after calls).tree = (.ok w, t)) ↔
        (after calls).tree.read? h.path ≠ none) ∧
      ((after calls).tree.read? h.path = none →
        (h.writer.write bytes).run (after calls).tree =
          (.error (.deletedWhileOpen h.path.text), (after calls).tree))) ∧
    (∀ early p late, calls = early ++ .create p :: late →
      (after early).tree.isDir p.components = false →
      ((after calls).handles[(after early).handles.length]?).map (·.path) = some p) ∧
    ∀ early p late bytes, calls = early ++ .openFile p :: late →
      (after early).tree.read? p = some bytes →
      ∃ stream, (after calls).streams[(after early).streams.length]? = some stream ∧
        ∀ world, stream world = .ofBytes bytes := by
  refine ⟨fun p => data?_after_eq_none_iff, fun p bytes => data?_after_eq_some_iff, ?_, ?_, ?_⟩
  · intro i h bytes hi hne
    have hw := proper_after calls h (List.mem_of_getElem? hi)
    refine ⟨⟨fun ⟨w, t, hrun⟩ hnone => ?_, fun hthere => ?_⟩, run_write_of_missing hw hne⟩
    · rw [run_write_of_missing hw hne hnone] at hrun
      cases hrun
    · obtain ⟨old, hold⟩ := Option.ne_none_iff_exists'.1 hthere
      obtain ⟨t, hrun, _⟩ := run_write_of_file hw hne hold
      exact ⟨_, t, hrun⟩
  · rintro early p late rfl hdir
    exact path_of_create hdir
  · rintro early p late bytes rfl hread
    exact ⟨_, stream_of_openFile hread, fun _ => rfl⟩

/-- An old handle writes to the file that was created anew at its path, a stream keeps the old
bytes, and with the directory above it the file is gone for both handles. -/
theorem read?_after_told_by_calls_reopened :
    let calls : List Call := [.create ⟨"/d/f"⟩, .write 0 [1, 2], .openFile ⟨"/d//f"⟩,
      .create ⟨"/d/f"⟩, .write 1 [3], .write 0 [4]]
    let gone : Shared := after (calls ++ [.delete ⟨"/d"⟩ true])
    (after calls).tree.read? ⟨"/d/./f"⟩ = some [3, 4] ∧
      (∃ stream, (after calls).streams[0]? = some stream ∧
        ∀ world, stream world = .ofBytes [1, 2]) ∧
      ∀ i < 2, ∃ h, gone.handles[i]? = some h ∧ h.path = ⟨"/d/f"⟩ ∧
        (h.writer.write [5]).run gone.tree = (.error (.deletedWhileOpen "/d/f"), gone.tree) := by
  intro calls gone
  obtain ⟨-, hholds, -, -, hstreams⟩ := read?_after_told_by_calls calls
  obtain ⟨-, -, hwrites, hcreated, -⟩ :=
    read?_after_told_by_calls (calls ++ [.delete ⟨"/d"⟩ true])
  have hgone : gone.tree.read? ⟨"/d/f"⟩ = none := by decide
  have hrefused (i : Nat)
      (hpath : (gone.handles[i]?).map (·.path) = some ⟨"/d/f"⟩) :
      ∃ h, gone.handles[i]? = some h ∧ h.path = ⟨"/d/f"⟩ ∧
        (h.writer.write [5]).run gone.tree =
          (.error (.deletedWhileOpen "/d/f"), gone.tree) := by
    obtain ⟨h, hi, hp⟩ := Option.map_eq_some_iff.1 hpath
    have hrun := (hwrites i h [5] hi (by decide)).2 (by rw [hp]; exact hgone)
    exact ⟨h, hi, hp, by rw [hp] at hrun; exact hrun⟩
  refine ⟨(hholds _ _).2 ⟨calls.take 3, .create ⟨"/d/f"⟩, calls.drop 4, [], rfl, by decide,
    ⟨by decide, by decide, by decide, by decide, trivial⟩, by decide⟩, ?_, fun i hi => ?_⟩
  · exact hstreams (calls.take 2) ⟨"/d//f"⟩ (calls.drop 3) [1, 2] rfl (by decide)
  · obtain rfl | rfl : i = 0 ∨ i = 1 := by omega
    · exact hrefused 0 (hcreated [] _ _ rfl (by decide))
    · exact hrefused 1 (hcreated (calls.take 3) _ _ rfl (by decide))

end Shared
end OffloadCheck.Memory
