/-!
Steps over a world that may fail. A step is a function from the world before it to its result and
the world after it; a failure does not undo what was done before it.
-/
namespace OffloadCheck

/-- A step over a world `σ` that ends with a value or an error. -/
def Action (σ ε α : Type) := σ → Except ε α × σ

namespace Action

variable {σ τ ε ε' α β : Type}

def run (x : Action σ ε α) (s : σ) : Except ε α × σ := x s

instance : Monad (Action σ ε) where
  pure a := fun s => (.ok a, s)
  bind x f := fun s =>
    match x s with
    | (.ok a, s') => f a s'
    | (.error e, s') => (.error e, s')

def fail (e : ε) : Action σ ε α := fun s => (.error e, s)

/-- The present world. -/
def world : Action σ ε σ := fun s => (.ok s, s)

def setWorld (s : σ) : Action σ ε Unit := fun _ => (.ok (), s)

def change (f : σ → σ) : Action σ ε Unit := fun s => (.ok (), f s)

def ofExcept (r : Except ε α) : Action σ ε α := fun s => (r, s)

def mapError (f : ε → ε') (x : Action σ ε α) : Action σ ε' α := fun s =>
  match x s with
  | (.ok a, s') => (.ok a, s')
  | (.error e, s') => (.error (f e), s')

/-- Runs a step and gives its outcome, whichever it is. -/
def attempt (x : Action σ ε α) : Action σ ε' (Except ε α) := fun s =>
  let (r, s') := x s
  (.ok r, s')

/-- Runs a step on a part of the world. -/
def within (get : σ → τ) (put : τ → σ → σ) (x : Action τ ε α) : Action σ ε α := fun s =>
  let (r, t) := x (get s)
  (r, put t s)

@[simp] theorem run_pure (a : α) (s : σ) : (pure a : Action σ ε α).run s = (.ok a, s) := rfl

@[simp] theorem run_world (s : σ) : (world : Action σ ε σ).run s = (.ok s, s) := rfl

@[simp] theorem run_change (f : σ → σ) (s : σ) :
    (change f : Action σ ε Unit).run s = (.ok (), f s) := rfl

@[simp] theorem run_ofExcept (r : Except ε α) (s : σ) : (ofExcept r).run s = (r, s) := rfl

@[simp] theorem run_within (get : σ → τ) (put : τ → σ → σ) (x : Action τ ε α) (s : σ) :
    (x.within get put).run s = ((x.run (get s)).1, put (x.run (get s)).2 s) := rfl

theorem run_within_eq_ok_iff {get : σ → τ} {put : τ → σ → σ} {x : Action τ ε α} {s t : σ} {a : α} :
    (x.within get put).run s = (.ok a, t) ↔
      ∃ u, x.run (get s) = (.ok a, u) ∧ put u s = t := by
  rw [run_within, Prod.mk.injEq]
  constructor
  · intro h
    exact ⟨_, Prod.ext h.1 rfl, h.2⟩
  · rintro ⟨u, hrun, hput⟩
    rw [hrun]
    exact ⟨rfl, hput⟩

theorem run_bind_eq_ok_iff {x : Action σ ε α} {f : α → Action σ ε β} {s t : σ} {b : β} :
    (x >>= f).run s = (.ok b, t) ↔
      ∃ a u, x.run s = (.ok a, u) ∧ (f a).run u = (.ok b, t) := by
  simp only [run, bind]
  rcases x s with ⟨_ | a, u⟩
  · simp
  · exact ⟨fun h => ⟨a, u, rfl, h⟩, fun ⟨_, _, h, h'⟩ => by cases h; exact h'⟩

theorem run_bind_eq_error_iff {x : Action σ ε α} {f : α → Action σ ε β} {s t : σ} {e : ε} :
    (x >>= f).run s = (.error e, t) ↔
      x.run s = (.error e, t) ∨ ∃ a u, x.run s = (.ok a, u) ∧ (f a).run u = (.error e, t) := by
  simp only [run, bind]
  rcases x s with ⟨_ | a, u⟩
  · simp
  · constructor
    · exact fun h => .inr ⟨a, u, rfl, h⟩
    · rintro (h | ⟨_, _, h, h'⟩)
      · cases h
      · cases h
        exact h'

theorem run_bind_of_ok {x : Action σ ε α} {f : α → Action σ ε β} {s t : σ} {a : α}
    (h : x.run s = (.ok a, t)) : (x >>= f).run s = (f a).run t := by
  simp only [run] at h
  simp only [run, bind, h]

theorem run_bind_of_error {x : Action σ ε α} {f : α → Action σ ε β} {s t : σ} {e : ε}
    (h : x.run s = (.error e, t)) : (x >>= f).run s = (.error e, t) := by
  simp only [run] at h
  simp only [run, bind, h]

theorem run_bind_congr {x : Action σ ε α} {f : α → Action σ ε β} {s t : σ}
    (h : x.run s = x.run t) : (x >>= f).run s = (x >>= f).run t := by
  simp only [run] at h
  simp only [run, bind, h]

theorem run_discard_of_ok {x : Action σ ε α} {s t : σ} {a : α} (h : x.run s = (.ok a, t)) :
    (discard x).run s = (.ok (), t) := run_bind_of_ok h

theorem run_discard_of_error {x : Action σ ε α} {s t : σ} {e : ε} (h : x.run s = (.error e, t)) :
    (discard x).run s = (.error e, t) := run_bind_of_error h

theorem mapError_ok (f : ε → ε') (a : α) : (Except.ok a).mapError f = .ok a := rfl

theorem mapError_error (f : ε → ε') (e : ε) :
    (Except.error e : Except ε α).mapError f = .error (f e) := rfl

theorem run_mapError_of_ok {x : Action σ ε α} {s t : σ} {a : α} (h : x.run s = (.ok a, t))
    (f : ε → ε') : (x.mapError f).run s = (.ok a, t) := by
  simp only [run] at h
  simp only [run, mapError, h]

theorem run_mapError_of_error {x : Action σ ε α} {s t : σ} {e : ε} (h : x.run s = (.error e, t))
    (f : ε → ε') : (x.mapError f).run s = (.error (f e), t) := by
  simp only [run] at h
  simp only [run, mapError, h]

theorem run_mapError_eq_ok_iff {f : ε → ε'} {x : Action σ ε α} {s t : σ} {a : α} :
    (x.mapError f).run s = (.ok a, t) ↔ x.run s = (.ok a, t) := by
  simp only [run, mapError]
  rcases x s with ⟨_ | _, _⟩ <;> simp

theorem run_mapError_eq_error_iff {f : ε → ε'} {x : Action σ ε α} {s t : σ} {e : ε'} :
    (x.mapError f).run s = (.error e, t) ↔ ∃ e', x.run s = (.error e', t) ∧ f e' = e := by
  simp only [run, mapError]
  rcases x s with ⟨found | _, _⟩
  · simp only [Prod.mk.injEq, Except.error.injEq]
    exact ⟨fun h => ⟨found, ⟨rfl, h.2⟩, h.1⟩, fun ⟨_, h, he⟩ => ⟨h.1 ▸ he, h.2⟩⟩
  · simp

theorem run_attempt_of_run {x : Action σ ε α} {s t : σ} {r : Except ε α} (h : x.run s = (r, t)) :
    (x.attempt : Action σ ε' (Except ε α)).run s = (.ok r, t) := by
  simp only [run] at h
  simp only [run, attempt, h]

theorem map_eq_bind (f : α → β) (x : Action σ ε α) : f <$> x = x >>= fun a => pure (f a) := rfl

instance : LawfulMonad (Action σ ε) := LawfulMonad.mk' (Action σ ε)
  (fun x => by
    funext s
    change (match x s with
      | (.ok a, s') => (.ok a, s')
      | (.error e, s') => (.error e, s')) = x s
    rcases x s with ⟨_ | _, _⟩ <;> rfl)
  (fun _ _ => rfl)
  (fun x f g => by
    funext s
    simp only [bind]
    rcases x s with ⟨_ | _, _⟩ <;> rfl)

end Action
end OffloadCheck
