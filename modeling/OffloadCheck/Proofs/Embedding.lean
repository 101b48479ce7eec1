import OffloadCheck.Comparison
import OffloadCheck.Storage.Transfer

/-! # Steps over a part of a world

A map `f` puts a world into a larger one. A step over the larger world follows a step over the
smaller one when, run on an image of `f`, it ends the same way, gives a related value and leaves the
image of what the other leaves. All that a comparison or a copy does on a filesystem is built from
its calls, so it is enough to know the calls. -/
namespace OffloadCheck

variable {σ τ ε ε' α α' β β' : Type} {f : σ → τ}

namespace Action

/-- Two runs ended the same way, the second one in the image of where the first one ended. -/
inductive Agree (f : σ → τ) (R : α → α' → Prop) : Except ε α × σ → Except ε α' × τ → Prop
  | ok {a b t} : R a b → Agree f R (.ok a, t) (.ok b, f t)
  | error {e t} : Agree f R (.error e, t) (.error e, f t)

/-- The step `y` does on the image of a world what `x` does on the world. -/
def Follows (f : σ → τ) (R : α → α' → Prop) (x : Action σ ε α) (y : Action τ ε α') : Prop :=
  ∀ s, Agree f R (x.run s) (y.run (f s))

theorem Follows.run_eq {x : Action σ ε α} {y : Action τ ε α} (h : Follows f Eq x y) (s : σ) :
    y.run (f s) = ((x.run s).1, f (x.run s).2) := by
  have hs := h s
  generalize x.run s = rx at hs
  generalize y.run (f s) = ry at hs
  cases hs with
  | ok hab => rw [hab]
  | error => rfl

theorem follows_of_run_eq {x : Action σ ε α} {y : Action τ ε α}
    (h : ∀ s, y.run (f s) = ((x.run s).1, f (x.run s).2)) : Follows f Eq x y := by
  intro s
  rw [h]
  rcases x.run s with ⟨e | a, t⟩
  · exact .error
  · exact .ok rfl

theorem follows_pure {R : α → α' → Prop} {a : α} {b : α'} (h : R a b) :
    Follows f R (pure a : Action σ ε α) (pure b) := fun _ => .ok h

theorem follows_ofExcept (r : Except ε α) :
    Follows f Eq (ofExcept r : Action σ ε α) (ofExcept r) :=
  follows_of_run_eq fun _ => rfl

theorem follows_fail {R : α → α' → Prop} (e : ε) :
    Follows f R (fail e : Action σ ε α) (fail e) := fun _ => .error

theorem follows_world : Follows f (fun s t => t = f s) (world : Action σ ε σ) world :=
  fun _ => .ok rfl

theorem Follows.bind {R : α → α' → Prop} {S : β → β' → Prop} {x : Action σ ε α}
    {y : Action τ ε α'} {g : α → Action σ ε β} {h : α' → Action τ ε β'} (hxy : Follows f R x y)
    (hgh : ∀ a b, R a b → Follows f S (g a) (h b)) : Follows f S (x >>= g) (y >>= h) := by
  intro s
  have hs := hxy s
  generalize hx : x.run s = rx at hs
  generalize hy : y.run (f s) = ry at hs
  cases hs with
  | ok hab =>
    rw [run_bind_of_ok hx, run_bind_of_ok hy]
    exact hgh _ _ hab _
  | error =>
    rw [run_bind_of_error hx, run_bind_of_error hy]
    exact .error

theorem Follows.map {x : Action σ ε α} {y : Action τ ε α} (h : Follows f Eq x y) (g : α → β) :
    Follows f Eq (g <$> x) (g <$> y) := by
  rw [map_eq_bind, map_eq_bind]
  refine h.bind ?_
  intro a _ ha
  subst ha
  exact follows_pure rfl

theorem Follows.discard {R : α → α' → Prop} {x : Action σ ε α} {y : Action τ ε α'}
    (h : Follows f R x y) : Follows f Eq (discard x) (discard y) := by
  refine h.bind ?_
  intro _ _ _
  exact follows_pure rfl

theorem Follows.mapError {R : α → α' → Prop} {x : Action σ ε α} {y : Action τ ε α'}
    (h : Follows f R x y) (g : ε → ε') : Follows f R (x.mapError g) (y.mapError g) := by
  intro s
  have hs := h s
  simp only [run] at hs
  simp only [run, Action.mapError]
  generalize x s = rx at hs
  generalize y (f s) = ry at hs
  cases hs with
  | ok hab => exact .ok hab
  | error => exact .error

variable {get : τ → σ} {put : σ → τ → τ}

/-- A step run on a part of a world follows the step itself. -/
theorem follows_within (hget : ∀ s, get (f s) = s) (hput : ∀ s t, put t (f s) = f t)
    (x : Action σ ε α) : Follows f Eq x (x.within get put) := by
  refine follows_of_run_eq fun s => ?_
  rw [run_within, hget, hput]

end Action

open OffloadCheck.Action

/-! ## Filesystems -/

/-- A writer that follows another one has the same position and writes what that one writes. -/
structure Writer.Follows (f : σ → τ) (v : Writer σ) (w : Writer τ) : Prop where
  position : w.position = v.position
  writeAt : ∀ i bytes, Action.Follows f Eq (v.writeAt i bytes) (w.writeAt i bytes)

namespace Writer.Follows

variable {v : Writer σ} {w : Writer τ}

theorem write (h : Writer.Follows f v w) (bytes : Bytes) :
    Action.Follows f (Writer.Follows f) (v.write bytes) (w.write bytes) := by
  unfold Writer.write
  split
  · exact follows_pure h
  · rw [h.position]
    refine (h.writeAt _ bytes).bind ?_
    intro _ _ _
    exact follows_pure ⟨rfl, h.writeAt⟩

theorem writeRefills (h : Writer.Follows f v w) (copied : Nat) (refills : List Refill) :
    Action.Follows f Eq (v.writeRefills copied refills) (w.writeRefills copied refills) := by
  induction refills generalizing v w copied with
  | nil => exact follows_pure rfl
  | cons r rs ih =>
    refine (h.write r.bytes).bind ?_
    intro v' w' h'
    exact ih h' (copied + r.bytes.length)

end Writer.Follows

/-- A filesystem follows another one when its calls do. -/
structure FileSystem.Follows (f : σ → τ) (fs : FileSystem σ) (gs : FileSystem τ) : Prop where
  list : ∀ p, Action.Follows f Eq (fs.list p) (gs.list p)
  openFile : ∀ p, Action.Follows f (fun g h => ∀ s, h (f s) = g s) (fs.openFile p) (gs.openFile p)
  create : ∀ p, Action.Follows f (Writer.Follows f) (fs.create p) (gs.create p)
  isPresent : ∀ p s, gs.isPresent p (f s) = fs.isPresent p s

namespace FileSystem

/-- A filesystem that lives in a part of a world follows the filesystem itself. -/
theorem follows_within {get : τ → σ} {put : σ → τ → τ} (hget : ∀ s, get (f s) = s)
    (hput : ∀ s t, put t (f s) = f t) (fs : FileSystem σ) :
    fs.Follows f (fs.within get put) where
  list p := Action.follows_within hget hput _
  openFile p := by
    have hbind : fs.openFile p = fs.openFile p >>= pure := (bind_pure _).symm
    rw [hbind]
    refine (Action.follows_within hget hput (fs.openFile p)).bind ?_
    intro g _ hg
    subst hg
    exact follows_pure fun s => by rw [hget]
  create p := by
    have hbind : fs.create p = fs.create p >>= pure := (bind_pure _).symm
    rw [hbind]
    refine (Action.follows_within hget hput (fs.create p)).bind ?_
    intro v _ hv
    subst hv
    exact follows_pure ⟨rfl, fun i bytes => Action.follows_within hget hput _⟩
  isPresent p s := by simp only [within, hget]

namespace Follows

variable {fs : FileSystem σ} {gs : FileSystem τ}

theorem putFile (h : fs.Follows f gs) (p : Path) (bytes : Bytes) :
    Action.Follows f Eq (fs.putFile p bytes) (gs.putFile p bytes) := by
  refine (h.create p).bind ?_
  intro v w hvw
  exact ((hvw.write bytes).mapError StorageError.io).discard

theorem transfer {fs' : FileSystem σ} {gs' : FileSystem τ} (h : fs.Follows f gs)
    (h' : fs'.Follows f gs') (src dst : Path) :
    Action.Follows f Eq (fs.transfer src fs' dst) (gs.transfer src gs' dst) := by
  refine (h.openFile src).bind ?_
  intro g g' hg
  refine (h'.create dst).bind ?_
  intro v w hvw
  refine follows_world.bind ?_
  intro s _ hs
  subst hs
  rw [hg]
  refine Action.Follows.mapError ?_ StorageError.io
  refine (hvw.writeRefills 0 (g s).refills).bind ?_
  intro copied _ hcopied
  subst hcopied
  cases (g s).failure? with
  | none => exact follows_pure rfl
  | some failure => exact follows_fail failure

theorem contents (h : fs.Follows f gs) (p : Path) :
    Action.Follows f Eq (fs.contents p) (gs.contents p) := by
  refine (h.openFile p).bind ?_
  intro g g' hg
  refine follows_world.bind ?_
  intro s _ hs
  subst hs
  rw [hg]
  exact follows_ofExcept _

theorem manifest (h : fs.Follows f gs) (dir : Path) :
    Action.Follows f Eq (fs.manifest dir) (gs.manifest dir) :=
  (h.list dir).map Manifest.ofListing

theorem compareFiles (h : fs.Follows f gs) (r c : Path) (index : Nat) (names : List String) :
    Action.Follows f Eq (fs.compareFiles r c index names) (gs.compareFiles r c index names) := by
  induction names generalizing index with
  | nil => exact follows_pure rfl
  | cons name names ih =>
    refine (h.openFile (r.join name)).bind ?_
    intro g g' hg
    refine (h.openFile (c.join name)).bind ?_
    intro k k' hk
    refine follows_world.bind ?_
    intro s _ hs
    subst hs
    rw [hg, hk]
    refine (follows_ofExcept _).bind ?_
    intro found _ hfound
    subst hfound
    cases found with
    | some d => exact follows_pure rfl
    | none => exact ih (index + 1)

theorem compareDirs (h : fs.Follows f gs) (r c : Path) :
    Action.Follows f Eq (fs.compareDirs r c) (gs.compareDirs r c) := by
  refine (h.manifest r).bind ?_
  intro m _ hm
  subst hm
  refine (h.manifest c).bind ?_
  intro n _ hn
  subst hn
  cases m.shapeMismatch? n with
  | some shape => exact follows_pure rfl
  | none =>
    refine (h.compareFiles r c 0 (m.entries.map (·.name))).bind ?_
    intro found _ hfound
    subst hfound
    cases found with
    | some mismatch => exact follows_pure rfl
    | none =>
      dsimp only
      split
      · exact follows_pure rfl
      · exact follows_pure rfl

theorem compare (h : fs.Follows f gs) (reference candidate : Option Path) :
    Action.Follows f Eq (fs.compare reference candidate) (gs.compare reference candidate) := by
  cases reference with
  | none => cases candidate <;> exact follows_pure rfl
  | some r =>
    cases candidate with
    | none => exact follows_pure rfl
    | some c => exact h.compareDirs r c

end Follows
end FileSystem

/-- A part of a world that can be read and replaced. -/
structure Part (σ τ : Type) where
  get : σ → τ
  put : τ → σ → σ
  get_put : ∀ t s, get (put t s) = t
  put_get : ∀ s, put (get s) s = s
  put_put : ∀ t u s, put t (put u s) = put t s

namespace Part

/-- The first of two worlds next to each other, without the second. -/
def beside {κ : Type} : Part (σ × κ) σ :=
  ⟨Prod.fst, fun w s => (w, s.2), fun _ _ => rfl, fun _ => rfl, fun _ _ _ => rfl⟩

def behind {κ : Type} : Part (κ × σ) σ :=
  ⟨Prod.snd, fun w s => (s.1, w), fun _ _ => rfl, fun _ => rfl, fun _ _ _ => rfl⟩

variable (part : Part σ τ)

/-- A filesystem in a part of a world. -/
def fileSystem {ν : Type} (fs : FileSystem τ ν) : FileSystem σ ν := fs.within part.get part.put

theorem follows_fileSystem (fs : FileSystem τ) (s : σ) :
    fs.Follows (fun t => part.put t s) (part.fileSystem fs) :=
  fs.follows_within (fun t => part.get_put t s) fun t u => part.put_put u t s

/-- What follows a step on the part does to the world what the step does to the part. -/
theorem run_eq {x : Action τ ε α} {y : Action σ ε α} {s : σ}
    (h : Action.Follows (fun t => part.put t s) Eq x y) :
    y.run s = ((x.run (part.get s)).1, part.put (x.run (part.get s)).2 s) := by
  have hrun := h.run_eq (part.get s)
  rw [part.put_get] at hrun
  exact hrun

/-- A run that fails in the larger world is a run that fails on the part. -/
theorem eq_error {R : α → α' → Prop} {x : Action τ ε α} {y : Action σ ε α'} {s t : σ} {e : ε}
    (h : Action.Follows (fun t => part.put t s) R x y) (hrun : y.run s = (.error e, t)) :
    ∃ u, x.run (part.get s) = (.error e, u) ∧ t = part.put u s := by
  have hagree := h (part.get s)
  dsimp only at hagree
  rw [part.put_get, hrun] at hagree
  generalize x.run (part.get s) = rx at hagree
  cases hagree
  exact ⟨_, rfl, rfl⟩

variable {fs : FileSystem τ} {p : Path} {s t : σ}

/-- A stream that is opened in a part of a world shows what it shows on the part. -/
theorem openFile_eq_ok {stream : σ → ByteStream}
    (h : ((part.fileSystem fs).openFile p).run s = (.ok stream, t)) :
    ∃ shown, (fs.openFile p).run (part.get s) = (.ok shown, part.get t) ∧
      stream = fun u => shown (part.get u) := by
  obtain ⟨shown, _, hopen, hpure⟩ := run_bind_eq_ok_iff.1 h
  cases hpure
  obtain ⟨u, hrun, rfl⟩ := run_within_eq_ok_iff.1 hopen
  exact ⟨shown, by rw [hrun, part.get_put], rfl⟩

/-- A writer that is created in a part of a world writes into the part. -/
theorem create_eq_ok {w : Writer σ}
    (h : ((part.fileSystem fs).create p).run s = (.ok w, t)) :
    ∃ v, (fs.create p).run (part.get s) = (.ok v, part.get t) ∧
      (w = ⟨v.position, fun i bytes => (v.writeAt i bytes).within part.get part.put⟩) ∧
      t = part.put (part.get t) s := by
  obtain ⟨v, _, hcreate, hpure⟩ := run_bind_eq_ok_iff.1 h
  cases hpure
  obtain ⟨u, hrun, rfl⟩ := run_within_eq_ok_iff.1 hcreate
  exact ⟨v, by rw [hrun, part.get_put], rfl, by rw [part.get_put]⟩

/-- A world that is nothing but the part. -/
def whole : Part σ σ := ⟨id, fun t _ => t, fun _ _ => rfl, fun _ => rfl, fun _ _ _ => rfl⟩

theorem run_whole {x y : Action σ ε α} {s : σ}
    (h : Action.Follows (fun t => whole.put t s) Eq x y) : y.run s = x.run s :=
  whole.run_eq h

end Part

end OffloadCheck
