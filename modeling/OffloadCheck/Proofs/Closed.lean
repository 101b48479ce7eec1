import OffloadCheck.Proofs.Lifetimes

/-! # Closed sessions

Whatever leads to the submission of a job begins with a preflight, and the preflight of a closed
session fails before it looks at the environment, at the artifact or at a filesystem. So a closed
session answers all demands with one failure and calls nothing, and what becomes of its world is
what becomes of it elsewhere. -/
namespace OffloadCheck

open OffloadCheck.Action

variable {σ : Type}

namespace Session

/-! ## Demands -/

/-- What a session is asked for on the way to the submission of a job. -/
inductive Demand
  | preflight
  | planOffload (base : Properties) (transport : Transport) (remoteMerge remoteSpill : Bool)
  | runStandard (workload : Workload) (transport : Transport)
  | runRemoteMerge (workload : Workload) (transport : Transport)
  | runPoint (workload : Workload) (point : MatrixPoint)
  /-- The matrix has a first point, since an empty one asks for nothing. -/
  | runMatrix (workload : Workload) (first : MatrixPoint) (others : List MatrixPoint)

/-- The step that answers a demand, whatever it gives. -/
def answer (session : Session σ) : Demand → Step σ Unit
  | .preflight => discard session.preflight
  | .planOffload base transport remoteMerge remoteSpill =>
    discard (session.planOffload base transport remoteMerge remoteSpill)
  | .runStandard workload transport => discard (session.runStandard workload transport)
  | .runRemoteMerge workload transport => discard (session.runRemoteMerge workload transport)
  | .runPoint workload point => discard (session.runPoint workload point)
  | .runMatrix workload first others => discard (session.runMatrix workload (first :: others))

/-- A demand, or something else that happens in its world to a session. -/
inductive Turn (σ : Type)
  | asked (demand : Demand)
  | elsewhere (change : σ → σ)

/-- The answers to the demands in their order, and the state in the end. -/
def answers (session : Session σ) : List (Turn σ) → State σ → List (Except Failure Unit) × State σ
  | [], s => ([], s)
  | .asked demand :: turns, s =>
    let (given, t) := (session.answer demand).run s
    let (rest, u) := session.answers turns t
    (given :: rest, u)
  | .elsewhere change :: turns, s => session.answers turns { s with world := change s.world }

namespace Turn

/-- The demands among what happens. -/
def demands (turns : List (Turn σ)) : List Demand :=
  turns.filterMap fun
    | .asked demand => some demand
    | .elsewhere _ => none

/-- What becomes of the world when nothing is done about the demands. -/
def drift (turns : List (Turn σ)) (w : σ) : σ :=
  turns.foldl (fun w turn =>
    match turn with
    | .asked _ => w
    | .elsewhere change => change w) w

/-- The same happens where something else is next to the world. -/
def beside {κ : Type} : Turn σ → Turn (σ × κ)
  | .asked demand => .asked demand
  | .elsewhere change => .elsewhere fun s => (change s.1, s.2)

theorem demands_beside {κ : Type} (turns : List (Turn σ)) :
    demands (turns.map (beside (κ := κ))) = demands turns := by
  rw [demands, List.filterMap_map, demands]
  refine congrArg (List.filterMap · turns) (funext fun turn => ?_)
  cases turn <;> rfl

theorem drift_beside {κ : Type} (turns : List (Turn σ)) (w : σ) (k : κ) :
    drift (turns.map beside) (w, k) = (drift turns w, k) := by
  induction turns generalizing w with
  | nil => rfl
  | cons turn turns ih =>
    cases turn with
    | asked demand => exact ih w
    | elsewhere change => exact ih (change w)

end Turn

/-! ## Refusals -/

/-- How a closed session fails. -/
def refusal (session : Session σ) : Failure := .fixture ("session " ++ session.id ++ " is closed")

variable {session : Session σ} {s : State σ}

theorem run_preflight_of_closed (h : s.closed = true) :
    session.preflight.run s = (.error session.refusal, s) := by
  refine (run_bind_of_ok (run_world s)).trans ?_
  rw [if_pos h]
  rfl

theorem run_planOffload_of_closed (h : s.closed = true) (base : Properties)
    (transport : Transport) (remoteMerge remoteSpill : Bool) :
    (session.planOffload base transport remoteMerge remoteSpill).run s =
      (.error session.refusal, s) :=
  run_bind_of_error (run_preflight_of_closed h)

theorem run_runStandard_of_closed (h : s.closed = true) (workload : Workload)
    (transport : Transport) :
    (session.runStandard workload transport).run s = (.error session.refusal, s) :=
  run_bind_of_error (run_discard_of_error (run_preflight_of_closed h))

theorem run_runRemoteMerge_of_closed (h : s.closed = true) (workload : Workload)
    (transport : Transport) :
    (session.runRemoteMerge workload transport).run s = (.error session.refusal, s) :=
  run_bind_of_error (run_discard_of_error (run_preflight_of_closed h))

theorem run_runPoint_of_closed (h : s.closed = true) (workload : Workload) (point : MatrixPoint) :
    (session.runPoint workload point).run s = (.error session.refusal, s) := by
  obtain ⟨transport, scenario⟩ := point
  cases scenario with
  | standard => exact run_runStandard_of_closed h workload transport
  | remoteMerge => exact run_runRemoteMerge_of_closed h workload transport

theorem run_runMatrix_of_closed (h : s.closed = true) (workload : Workload) (first : MatrixPoint)
    (others : List MatrixPoint) :
    (session.runMatrix workload (first :: others)).run s = (.error session.refusal, s) :=
  run_bind_of_error (run_runPoint_of_closed h workload first)

/-- Each demand is refused before anything else is done. -/
theorem run_answer_of_closed (h : s.closed = true) (demand : Demand) :
    (session.answer demand).run s = (.error session.refusal, s) := by
  cases demand with
  | preflight => exact run_discard_of_error (run_preflight_of_closed h)
  | planOffload base transport remoteMerge remoteSpill =>
    exact run_discard_of_error
      (run_planOffload_of_closed h base transport remoteMerge remoteSpill)
  | runStandard workload transport =>
    exact run_discard_of_error (run_runStandard_of_closed h workload transport)
  | runRemoteMerge workload transport =>
    exact run_discard_of_error (run_runRemoteMerge_of_closed h workload transport)
  | runPoint workload point =>
    exact run_discard_of_error (run_runPoint_of_closed h workload point)
  | runMatrix workload first others =>
    exact run_discard_of_error (run_runMatrix_of_closed h workload first others)

theorem answers_of_closed (h : s.closed = true) (turns : List (Turn σ)) :
    session.answers turns s = ((Turn.demands turns).map fun _ => .error session.refusal,
      { s with world := Turn.drift turns s.world }) := by
  induction turns generalizing s with
  | nil => rfl
  | cons turn turns ih =>
    cases turn with
    | asked demand =>
      unfold answers
      rw [run_answer_of_closed h]
      dsimp only
      rw [ih h]
      rfl
    | elsewhere change => exact @ih { s with world := change s.world } h

/-! ## The slot of a closed session -/

/-- A closed session that has no staged artifact does not come to one. -/
theorem staged_carryOut_of_closed (hclosed : s.closed = true) (hstaged : s.staged = none)
    (operation : Operation σ) : (session.carryOut operation s).staged = none := by
  have of_eq {t : State σ} (h : t = s) : t.staged = none := h ▸ hstaged
  cases operation with
  | preflight => exact of_eq (congrArg Prod.snd (run_preflight_of_closed hclosed))
  | locateArtifact => exact hstaged
  | planBaseline base => exact hstaged
  | planOffload base transport remoteMerge remoteSpill =>
    exact of_eq (congrArg Prod.snd
      (run_planOffload_of_closed hclosed base transport remoteMerge remoteSpill))
  | submit properties workload => exact hstaged
  | runPoint workload point =>
    exact of_eq (congrArg Prod.snd (run_runPoint_of_closed hclosed workload point))
  | runMatrix workload points =>
    cases points with
    | nil => exact hstaged
    | cons first others =>
      exact of_eq (congrArg Prod.snd (run_runMatrix_of_closed hclosed workload first others))
  | close => exact of_eq (if_pos hclosed)
  | elsewhere change => exact hstaged

theorem staged_carryOutAll (session : Session σ) (operations : List (Operation σ))
    (h : s.closed = true → s.staged = none)
    (hclosed : (session.carryOutAll operations s).closed = true) :
    (session.carryOutAll operations s).staged = none := by
  induction operations generalizing s with
  | nil => exact h hclosed
  | cons operation operations ih =>
    refine ih (fun hnext => ?_) hclosed
    rw [(session.noted_carryOut operation s []).1, Bool.or_eq_true] at hnext
    by_cases hbefore : s.closed = true
    · exact staged_carryOut_of_closed hbefore (h hbefore) operation
    · -- Only a close closes an open session, and it empties the slot.
      have hclose := hnext.resolve_left hbefore
      obtain rfl : operation = .close := by cases operation <;> cases hclose; rfl
      exact session.staged_close (Bool.eq_false_iff.2 hbefore)

/-- After a close, whatever a session has been through, every demand is refused as long as it lives.
Nothing is done about it: the world is what it becomes elsewhere, no call on the cluster, on the
servers or on a filesystem is noted, and no artifact is staged. -/
theorem closed_session_is_inert (session : Session σ) (past : List (Operation σ)) (w : σ)
    (turns : List (Turn σ)) (log : List Event) :
    let closed := session.close (session.carryOutAll past (State.initial w))
    let refusals := (Turn.demands turns).map fun _ => Except.error session.refusal
    let after := { closed with world := Turn.drift turns closed.world }
    session.answers turns closed = (refusals, after) ∧
      session.noted.answers (turns.map Turn.beside) (closed.beside log) =
        (refusals, after.beside log) ∧
      after.staged = none := by
  intro closed refusals after
  have hclosed : closed.closed = true := session.closed_close _
  refine ⟨answers_of_closed hclosed turns, ?_, ?_⟩
  · have hnoted := @answers_of_closed _ session.noted (closed.beside log) hclosed
      (turns.map Turn.beside)
    rw [Turn.demands_beside, State.beside, Turn.drift_beside] at hnoted
    exact hnoted
  · have hstaged := session.staged_carryOutAll (past ++ [.close]) (s := State.initial w)
      (fun _ => rfl)
    rw [carryOutAll, List.foldl_append] at hstaged
    exact hstaged hclosed

end Session
end OffloadCheck
