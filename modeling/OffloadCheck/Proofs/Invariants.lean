import OffloadCheck.Proofs.Embedding

/-! # What steps keep

A step preserves a property of the world when the property holds after it however it ends; with the
property goes a restriction on how it may fail. Comparisons, copies and writes of whole files are
built from the calls of a filesystem, so they preserve what its calls preserve. A filesystem lasts
when nothing that is present on it disappears under these calls. -/
namespace OffloadCheck

variable {σ τ ε ε' α β : Type}

namespace Action

variable {γ : Type} {g : σ → γ} {P : σ → Prop} {E : ε → Prop} {E' : ε' → Prop}

/-- The step keeps `P`, and it fails only with what `E` admits. -/
def Preserves (P : σ → Prop) (E : ε → Prop) (x : Action σ ε α) : Prop :=
  ∀ s, P s → P (x.run s).2 ∧ ∀ e, (x.run s).1 = .error e → E e

/-- The step keeps `P` and may fail in any way. -/
abbrev Sustains (P : σ → Prop) (x : Action σ ε α) : Prop := Preserves P (fun _ => True) x

theorem preserves_pure (a : α) : Preserves P E (pure a) := by
  intro s hs
  refine ⟨hs, ?_⟩
  intro e he
  cases he

theorem preserves_fail {e : ε} (h : E e) : Preserves P E (fail e : Action σ ε α) := by
  intro s hs
  refine ⟨hs, ?_⟩
  intro e' he
  cases he
  exact h

theorem preserves_world : Preserves P E (world : Action σ ε σ) := by
  intro s hs
  refine ⟨hs, ?_⟩
  intro e he
  cases he

theorem preserves_change {f : σ → σ} (h : ∀ s, P s → P (f s)) :
    Preserves P E (change f : Action σ ε Unit) := by
  intro s hs
  refine ⟨h s hs, ?_⟩
  intro e he
  cases he

theorem sustains_ofExcept (r : Except ε α) : Sustains P (ofExcept r : Action σ ε α) :=
  fun _ hs => ⟨hs, fun _ _ => trivial⟩

theorem sustains_of_state {x : Action σ ε α} (h : ∀ s, P s → P (x.run s).2) : Sustains P x :=
  fun s hs => ⟨h s hs, fun _ _ => trivial⟩

/-- The second step is only needed for what the first one can give. -/
theorem Preserves.bind_of_run {x : Action σ ε α} {f : α → Action σ ε β} (hx : Preserves P E x)
    (hf : ∀ {s a t}, P s → x.run s = (.ok a, t) → Preserves P E (f a)) :
    Preserves P E (x >>= f) := by
  intro s hs
  obtain ⟨hP, hE⟩ := hx s hs
  rcases hrun : x.run s with ⟨e | a, t⟩
  · rw [hrun] at hP hE
    rw [run_bind_of_error hrun]
    refine ⟨hP, ?_⟩
    intro e' he
    cases he
    exact hE e rfl
  · rw [hrun] at hP
    rw [run_bind_of_ok hrun]
    exact hf hs hrun t hP

theorem Preserves.bind {x : Action σ ε α} {f : α → Action σ ε β} (hx : Preserves P E x)
    (hf : ∀ a, Preserves P E (f a)) : Preserves P E (x >>= f) :=
  hx.bind_of_run fun _ _ => hf _

theorem Preserves.discard {x : Action σ ε α} (hx : Preserves P E x) :
    Preserves P E (discard x) :=
  hx.bind fun _ => preserves_pure _

theorem Preserves.mapError {x : Action σ ε α} {f : ε → ε'} (hx : Preserves P E x)
    (hf : ∀ e, E e → E' (f e)) : Preserves P E' (x.mapError f) := by
  intro s hs
  obtain ⟨hP, hE⟩ := hx s hs
  rcases hrun : x.run s with ⟨e | a, t⟩
  · rw [hrun] at hP hE
    rw [run_mapError_of_error hrun]
    refine ⟨hP, ?_⟩
    intro e' he
    cases he
    exact hf e (hE e rfl)
  · rw [hrun] at hP
    rw [run_mapError_of_ok hrun]
    refine ⟨hP, ?_⟩
    intro e he
    cases he

theorem sustains_mapError {x : Action σ ε α} (hx : Sustains P x) (f : ε → ε') :
    Sustains P (x.mapError f) := hx.mapError fun _ _ => trivial

/-- A failure that is caught keeps what the step keeps. -/
theorem Preserves.attempt {x : Action σ ε α} (hx : Preserves P E x) :
    Preserves P E' (x.attempt : Action σ ε' (Except ε α)) := by
  intro s hs
  refine ⟨(hx s hs).1, ?_⟩
  intro e he
  cases he

theorem Preserves.within {get : σ → τ} {put : τ → σ → σ} {Q : τ → Prop} {x : Action τ ε α}
    (hx : Preserves Q E x) (hget : ∀ s, P s → Q (get s)) (hput : ∀ t s, P s → Q t → P (put t s)) :
    Preserves P E (x.within get put) := by
  intro s hs
  obtain ⟨hQ, hE⟩ := hx (get s) (hget s hs)
  rw [run_within]
  exact ⟨hput _ s hs hQ, hE⟩

/-- The step leaves what `g` reads of the world as it was. -/
def Keeps (g : σ → γ) (x : Action σ ε α) : Prop := ∀ s, g (x.run s).2 = g s

theorem keeps_iff_sustains {x : Action σ ε α} :
    Keeps g x ↔ ∀ c, Sustains (fun s => g s = c) x := by
  constructor
  · intro h c
    exact sustains_of_state fun s hs => (h s).trans hs
  · intro h s
    exact (h (g s) s rfl).1

theorem keeps_pure (a : α) : Keeps g (pure a : Action σ ε α) := fun _ => rfl

theorem keeps_fail (e : ε) : Keeps g (fail e : Action σ ε α) := fun _ => rfl

theorem keeps_world : Keeps g (world : Action σ ε σ) := fun _ => rfl

theorem keeps_change {h : σ → σ} (hgh : ∀ s, g (h s) = g s) :
    Keeps g (change h : Action σ ε Unit) := hgh

theorem Keeps.bind {x : Action σ ε α} {h : α → Action σ ε β} (hx : Keeps g x)
    (hh : ∀ a, Keeps g (h a)) : Keeps g (x >>= h) :=
  keeps_iff_sustains.2 fun c =>
    Preserves.bind (keeps_iff_sustains.1 hx c) fun a => keeps_iff_sustains.1 (hh a) c

theorem Keeps.discard {x : Action σ ε α} (hx : Keeps g x) : Keeps g (discard x) :=
  hx.bind fun _ => keeps_pure _

end Action

open OffloadCheck.Action

/-! ## Filesystems -/

variable {P : σ → Prop}

/-- Copying keeps what writing keeps. -/
theorem Writer.sustains_writeRefills {w : Writer σ}
    (h : ∀ i bytes, Sustains P (w.writeAt i bytes)) (copied : Nat) (refills : List Refill) :
    Sustains P (w.writeRefills copied refills) := by
  induction refills generalizing w copied with
  | nil => exact preserves_pure copied
  | cons r rs ih =>
    unfold Writer.writeRefills Writer.write
    split
    · exact ih h (copied + r.bytes.length)
    · rw [bind_assoc]
      refine (h _ _).bind fun _ => ?_
      rw [pure_bind]
      exact @ih ⟨w.position + r.bytes.length, w.writeAt⟩ h (copied + r.bytes.length)

/-- The calls for reading and writing keep `P`. -/
structure FileSystem.Sustains (fs : FileSystem σ) (P : σ → Prop) : Prop where
  list : ∀ p, Action.Sustains P (fs.list p)
  openFile : ∀ p, Action.Sustains P (fs.openFile p)
  create : ∀ p, Action.Sustains P (fs.create p)
  writeAt : ∀ {p s w t}, (fs.create p).run s = (.ok w, t) →
    ∀ i bytes, Action.Sustains P (w.writeAt i bytes)

namespace FileSystem

variable {fs : FileSystem σ}

theorem sustains_true (fs : FileSystem σ) : fs.Sustains fun _ => True where
  list _ := sustains_of_state fun _ _ => trivial
  openFile _ := sustains_of_state fun _ _ => trivial
  create _ := sustains_of_state fun _ _ => trivial
  writeAt _ _ _ := sustains_of_state fun _ _ => trivial

theorem Sustains.putFile (h : fs.Sustains P) (p : Path) (bytes : Bytes) :
    Action.Sustains P (fs.putFile p bytes) := by
  refine (h.create p).bind_of_run fun {s w t} _ hcreate => ?_
  have hwrite : Action.Sustains P (w.write bytes) := by
    unfold Writer.write
    split
    · exact preserves_pure w
    · exact Preserves.bind (h.writeAt hcreate _ _) fun _ => preserves_pure _
  exact (sustains_mapError hwrite StorageError.io).discard

theorem sustains_compareFiles (hopen : ∀ p, Action.Sustains P (fs.openFile p)) (r c : Path)
    (index : Nat) (names : List String) : Action.Sustains P (fs.compareFiles r c index names) := by
  induction names generalizing index with
  | nil => exact preserves_pure none
  | cons name names ih =>
    refine (hopen _).bind fun _ => (hopen _).bind fun _ => preserves_world.bind fun s => ?_
    refine (sustains_ofExcept _).bind fun found => ?_
    cases found with
    | some d => exact preserves_pure _
    | none => exact ih (index + 1)

/-- A comparison keeps what listing and opening keep. -/
theorem sustains_compare (hlist : ∀ p, Action.Sustains P (fs.list p))
    (hopen : ∀ p, Action.Sustains P (fs.openFile p)) (reference candidate : Option Path) :
    Action.Sustains P (fs.compare reference candidate) := by
  have hmanifest (dir : Path) : Action.Sustains P (fs.manifest dir) :=
    (hlist dir).bind fun _ => preserves_pure _
  cases reference with
  | none => cases candidate <;> exact preserves_pure _
  | some r =>
    cases candidate with
    | none => exact preserves_pure _
    | some c =>
      refine (hmanifest r).bind fun m => (hmanifest c).bind fun n => ?_
      cases m.shapeMismatch? n with
      | some shape => exact preserves_pure _
      | none =>
        refine (sustains_compareFiles hopen r c 0 _).bind fun found => ?_
        cases found with
        | some mismatch => exact preserves_pure _
        | none =>
          dsimp only
          split
          · exact preserves_pure _
          · exact preserves_pure _

theorem keeps_compare {γ : Type} {g : σ → γ} (hlist : ∀ p, Keeps g (fs.list p))
    (hopen : ∀ p, Keeps g (fs.openFile p)) (reference candidate : Option Path) :
    Keeps g (fs.compare reference candidate) :=
  keeps_iff_sustains.2 fun c => sustains_compare (fun p => keeps_iff_sustains.1 (hlist p) c)
    (fun p => keeps_iff_sustains.1 (hopen p) c) reference candidate

/-- In a part of a world the calls keep what they keep on the part, and what does not depend on the
part. -/
theorem Sustains.part {fs : FileSystem τ} {Q : τ → Prop} (h : fs.Sustains Q) (part : Part σ τ)
    (hget : ∀ s, P s → Q (part.get s)) (hput : ∀ t s, P s → Q t → P (part.put t s)) :
    (part.fileSystem fs).Sustains P := by
  have hwithin {δ ε : Type} {x : Action τ ε δ} (hx : Action.Sustains Q x) :
      Action.Sustains P (x.within part.get part.put) := hx.within hget hput
  constructor
  · exact fun p => hwithin (h.list p)
  · exact fun p => (hwithin (h.openFile p)).bind fun _ => preserves_pure _
  · exact fun p => (hwithin (h.create p)).bind fun _ => preserves_pure _
  · intro p s w t hcreate
    obtain ⟨v, hv, rfl, _⟩ := part.create_eq_ok hcreate
    exact fun i bytes => hwithin (h.writeAt hv i bytes)

/-! ## Presence -/

/-- Created files are present, and what is present stays present. -/
structure Lasting (fs : FileSystem σ) : Prop where
  created : ∀ {p s w t}, (fs.create p).run s = (.ok w, t) → fs.isPresent p t = true
  stays : ∀ p, fs.Sustains fun s => fs.isPresent p s = true

theorem Lasting.part {fs : FileSystem τ} (h : fs.Lasting) (part : Part σ τ) :
    (part.fileSystem fs).Lasting where
  created := by
    intro p s w t hcreate
    obtain ⟨v, hv, _⟩ := part.create_eq_ok hcreate
    exact h.created hv
  stays p := (h.stays p).part part (fun _ hs => hs) fun t s _ ht => by
    change fs.isPresent p (part.get (part.put t s)) = true
    rwa [part.get_put]

/-- A copy that ends well has opened its source, created its destination and written all that the
source held by then. -/
theorem transfer_eq_ok {source target : FileSystem σ} {src dst : Path} {s t : σ} {n : Nat}
    (h : (source.transfer src target dst).run s = (.ok n, t)) :
    ∃ stream u w v, (source.openFile src).run s = (.ok stream, u) ∧
      (target.create dst).run u = (.ok w, v) ∧
      (w.writeRefills 0 (stream v).refills).run v = (.ok n, t) := by
  obtain ⟨stream, u, hopen, h⟩ := run_bind_eq_ok_iff.1 h
  obtain ⟨w, v, hcreate, h⟩ := run_bind_eq_ok_iff.1 h
  obtain ⟨_, _, hworld, h⟩ := run_bind_eq_ok_iff.1 h
  cases hworld
  obtain ⟨copied, x, hwrite, hend⟩ := run_bind_eq_ok_iff.1 (run_mapError_eq_ok_iff.1 h)
  refine ⟨stream, u, w, v, hopen, hcreate, ?_⟩
  split at hend
  · cases hend
  · cases hend
    exact hwrite

/-- A copy ends well when the stream of its source does and all of it can be written. -/
theorem run_transfer_of_ok {source target : FileSystem σ} {src dst : Path} {s t u v : σ}
    {stream : σ → ByteStream} {w : Writer σ} {n : Nat}
    (hopen : (source.openFile src).run s = (.ok stream, u))
    (hcreate : (target.create dst).run u = (.ok w, v)) (hend : (stream v).failure? = none)
    (hwrite : (w.writeRefills 0 (stream v).refills).run v = (.ok n, t)) :
    (source.transfer src target dst).run s = (.ok n, t) := by
  unfold transfer
  rw [run_bind_of_ok hopen, run_bind_of_ok hcreate, run_bind_of_ok (run_world v)]
  refine run_mapError_of_ok ?_ StorageError.io
  rw [run_bind_of_ok hwrite, hend]
  rfl

/-- A copied file is present, wherever it was copied from. -/
theorem Lasting.isPresent_of_transfer (h : fs.Lasting) {source : FileSystem σ} {src dst : Path}
    {s t : σ} {n : Nat} (htransfer : (source.transfer src fs dst).run s = (.ok n, t)) :
    fs.isPresent dst t = true := by
  obtain ⟨stream, _, w, v, _, hcreate, hwrite⟩ := transfer_eq_ok htransfer
  have hkept := w.sustains_writeRefills ((h.stays dst).writeAt hcreate) 0 (stream v).refills v
    (h.created hcreate)
  rw [hwrite] at hkept
  exact hkept.1

end FileSystem
end OffloadCheck
