import OffloadCheck.Proofs.Staging
import OffloadCheck.Proofs.Submissions

/-! # Stages told by what is answered

What a stage does follows from the answers it gets: of the preconditions, of the cluster that a job
is submitted to and of the filesystem on which outputs are compared. It `Passes` from one progress to
the next or `Fails`, and each rule names the answer that decides. A `Trail` leads through stages that
pass, one after the other. The stages of a matrix find what earlier ones leave for them
(`Stage.Supplied`), so going through them is such a trail, which ends where a stage fails. -/
namespace OffloadCheck

open OffloadCheck.Action

variable {σ : Type}

namespace Progress

/-- The progress after a run has been handed to the cluster. -/
def handed (p : Progress σ) (plan : RunPlan) (s : Session.State σ) : Progress σ :=
  { p with state := s, submitted := p.submitted ++ [plan] }

/-- The progress in a changed world. -/
def inWorld (p : Progress σ) (w : σ) : Progress σ := { p with state := { p.state with world := w } }

end Progress

namespace Session

open Progress

/-- The record of a job that was submitted in one world and has ended in another. -/
def executionOf (session : Session σ) (plan : RunPlan) (before : σ) (result : JobResult)
    (after : σ) : Execution where
  role := plan.role
  outputDirectory := (result.properties.get? Job.Keys.outputDir).map Path.mk
  exitCode := result.exitCode
  startedAt := session.host.now before
  finishedAt := session.host.now after

/-- A stage that passes, and the answer that it passes on. -/
inductive Passes (session : Session σ) (workload : Workload) :
    Stage → Progress σ → Progress σ → Prop
  | prepare {p : Progress σ} {artifact : StagedArtifact} {s : State σ} :
      session.preflight.run p.state = (.ok artifact, s) →
      Passes session workload .prepare p
        { p with state := s, reference? := none, candidate? := none, judged := [] }
  | readBase {p : Progress σ} :
      Passes session workload .readBase p
        { p with base := session.cluster.baseProperties p.state.world }
  /-- The job ended well. -/
  | run {mode : Mode} {p : Progress σ} {plan : RunPlan} {s : State σ} {result : JobResult} {w : σ} :
      (session.planRun mode p.base).run p.state = (.ok plan, s) →
      (session.cluster.submit plan.properties workload).run s.world = (.ok result, w) →
      result.exitCode = 0 →
      Passes session workload (.run mode) p
        (finish mode (session.executionOf plan s.world result w)
          (p.handed plan { s with world := w }))
  /-- The two outputs were compared and no mismatch was found. -/
  | judge {p : Progress σ} {reference candidate : Execution} {verdict : Verdict} {w : σ} :
      p.reference? = some reference → p.candidate? = some candidate →
      (session.clusterFs.compare reference.outputDirectory candidate.outputDirectory).run
        p.state.world = (.ok verdict, w) →
      (∀ mismatch, verdict ≠ .fail mismatch) →
      Passes session workload .judge p
        { p.inWorld w with
          candidate? := none, judged := p.judged ++ [⟨candidate, verdict⟩] }
  | report {point : MatrixPoint} {p : Progress σ} {reference : Execution} :
      p.reference? = some reference →
      Passes session workload (.report point) p
        { p with outcomes := p.outcomes ++ [⟨point, reference, p.judged⟩] }

/-- A stage that fails, and the answer that it fails on. -/
inductive Fails (session : Session σ) (workload : Workload) :
    Stage → Progress σ → Failure → Progress σ → Prop
  | unprepared {p : Progress σ} {e : Failure} {s : State σ} :
      session.preflight.run p.state = (.error e, s) →
      Fails session workload .prepare p e { p with state := s }
  /-- An offload run is not planned where the preconditions do not hold. -/
  | unplanned {mode : Mode} {p : Progress σ} {e : Failure} {s : State σ} :
      mode.isOffload = true → session.preflight.run p.state = (.error e, s) →
      Fails session workload (.run mode) p e { p with state := s }
  /-- The cluster refused the job or broke down. -/
  | unanswered {mode : Mode} {p : Progress σ} {plan : RunPlan} {e : Failure} {s : State σ} {w : σ} :
      (session.planRun mode p.base).run p.state = (.ok plan, s) →
      (session.cluster.submit plan.properties workload).run s.world = (.error e, w) →
      Fails session workload (.run mode) p e (p.handed plan { s with world := w })
  /-- The job ended with another exit code than zero. -/
  | job {mode : Mode} {p : Progress σ} {plan : RunPlan} {s : State σ} {result : JobResult} {w : σ} :
      (session.planRun mode p.base).run p.state = (.ok plan, s) →
      (session.cluster.submit plan.properties workload).run s.world = (.ok result, w) →
      result.exitCode ≠ 0 →
      Fails session workload (.run mode) p (.job plan.role workload.name result.exitCode)
        (p.handed plan { s with world := w })
  /-- The filesystem failed before there was a verdict. -/
  | unread {p : Progress σ} {reference candidate : Execution} {e : StorageError} {w : σ} :
      p.reference? = some reference → p.candidate? = some candidate →
      (session.clusterFs.compare reference.outputDirectory candidate.outputDirectory).run
        p.state.world = (.error e, w) →
      Fails session workload .judge p (.storage e) (p.inWorld w)
  | mismatch {p : Progress σ} {reference candidate : Execution} {mismatch : Mismatch} {w : σ} :
      p.reference? = some reference → p.candidate? = some candidate →
      (session.clusterFs.compare reference.outputDirectory candidate.outputDirectory).run
        p.state.world = (.ok (.fail mismatch), w) →
      Fails session workload .judge p (.mismatch mismatch) (p.inWorld w)

/-- Stages that pass one after the other. -/
inductive Trail (session : Session σ) (workload : Workload) :
    List Stage → Progress σ → Progress σ → Prop
  | nil {p : Progress σ} : Trail session workload [] p p
  | cons {stage : Stage} {stages : List Stage} {p m q : Progress σ} :
      session.Passes workload stage p m → Trail session workload stages m q →
      Trail session workload (stage :: stages) p q

/-- A trail through the first stages ends before one that fails. -/
def StopsWith (session : Session σ) (workload : Workload) (stages : List Stage) (p : Progress σ)
    (e : Failure) (q : Progress σ) : Prop :=
  ∃ early stage late m, stages = early ++ stage :: late ∧ session.Trail workload early p m ∧
    session.Fails workload stage m e q

/-- A job that is submitted on the way through stages. -/
structure Submission (session : Session σ) (workload : Workload) (stages : List Stage)
    (p : Progress σ) where
  early : List Stage
  mode : Mode
  late : List Stage
  /-- The progress when the run is due. -/
  progress : Progress σ
  plan : RunPlan
  /-- The state in which the job is submitted. -/
  state : State σ
  split : stages = early ++ .run mode :: late
  trail : session.Trail workload early p progress
  planned : (session.planRun mode progress.base).run progress.state = (.ok plan, state)

variable {session : Session σ} {workload : Workload} {stage : Stage} {stages early late : List Stage}
  {p m q : Progress σ} {e : Failure}

/-- The job ends well, and this is its record. -/
def Submission.Gives (job : session.Submission workload stages p) (execution : Execution) : Prop :=
  ∃ result w, (session.cluster.submit job.plan.properties workload).run job.state.world =
      (.ok result, w) ∧ result.exitCode = 0 ∧
    execution = session.executionOf job.plan job.state.world result w

theorem Trail.concat (h : session.Trail workload early p m)
    (hstage : session.Passes workload stage m q) :
    session.Trail workload (early ++ [stage]) p q := by
  induction h with
  | nil => exact .cons hstage .nil
  | cons hfirst _ ih => exact .cons hfirst (ih hstage)

theorem Trail.of_append (h : session.Trail workload (early ++ late) p q) :
    ∃ m, session.Trail workload early p m ∧ session.Trail workload late m q := by
  induction early generalizing p with
  | nil => exact ⟨p, .nil, h⟩
  | cons stage early ih =>
    rcases h with _ | ⟨hstage, h⟩
    obtain ⟨m, hearly, hlate⟩ := ih h
    exact ⟨m, .cons hstage hearly, hlate⟩

/-! ## Executions and comparisons -/

theorem run_onState {α : Type} {x : Step σ α} {r : Except Failure α} {s : State σ}
    (h : x.run p.state = (r, s)) : (onState x).run p = (r, { p with state := s }) := by
  rw [onState, run_within, h]

section Execute

variable {plan : RunPlan} {s : State σ} {result : JobResult} {w : σ}

/-- What follows on the submission when the cluster has answered. -/
theorem run_execute_of_ok
    (h : (session.cluster.submit plan.properties workload).run s.world = (.ok result, w)) :
    (session.execute workload plan).run s =
      (if result.exitCode = 0 then .ok (session.executionOf plan s.world result w)
        else .error (.job plan.role workload.name result.exitCode), { s with world := w }) := by
  have hnow (s : State σ) : (observe session.host.now).run s =
      (.ok (session.host.now s.world), s) := rfl
  rw [execute, run_bind_of_ok (hnow s), run_bind_of_ok (run_onWorld h), run_bind_of_ok (hnow _)]
  by_cases hcode : result.exitCode = 0
  · rw [if_pos hcode, if_pos hcode]
    rfl
  · rw [if_neg hcode, if_neg hcode]
    rfl

theorem run_execute_of_error
    (h : (session.cluster.submit plan.properties workload).run s.world = (.error e, w)) :
    (session.execute workload plan).run s = (.error e, { s with world := w }) := by
  have hnow : (observe session.host.now).run s = (.ok (session.host.now s.world), s) := rfl
  rw [execute, run_bind_of_ok hnow, run_bind_of_error (run_onWorld h)]

end Execute

section Judge

variable {reference candidate : Execution} {s : State σ} {w : σ}

theorem run_judge_of_error {e : StorageError}
    (h : (session.clusterFs.compare reference.outputDirectory candidate.outputDirectory).run
      s.world = (.error e, w)) :
    (session.judge reference candidate).run s = (.error (.storage e), { s with world := w }) :=
  run_bind_of_error (run_onWorld (run_mapError_of_error h Failure.storage))

theorem run_judge_of_fail {mismatch : Mismatch}
    (h : (session.clusterFs.compare reference.outputDirectory candidate.outputDirectory).run
      s.world = (.ok (.fail mismatch), w)) :
    (session.judge reference candidate).run s =
      (.error (.mismatch mismatch), { s with world := w }) :=
  run_bind_of_ok (run_onWorld (run_mapError_of_ok h Failure.storage))

theorem run_judge_of_ne_fail {verdict : Verdict}
    (h : (session.clusterFs.compare reference.outputDirectory candidate.outputDirectory).run
      s.world = (.ok verdict, w)) (hverdict : ∀ mismatch, verdict ≠ .fail mismatch) :
    (session.judge reference candidate).run s =
      (.ok ⟨candidate, verdict⟩, { s with world := w }) := by
  rw [judge, onStorage, run_bind_of_ok (run_onWorld (run_mapError_of_ok h Failure.storage))]
  cases verdict with
  | noOutput | pass _ _ => rfl
  | fail mismatch => exact absurd rfl (hverdict mismatch)

end Judge

/-- Only an offload run can fail to be planned, and then the preconditions do not hold. -/
theorem planRun_eq_error_iff {mode : Mode} {base : Properties} {s t : State σ} :
    (session.planRun mode base).run s = (.error e, t) ↔
      mode.isOffload = true ∧ session.preflight.run s = (.error e, t) := by
  cases mode with
  | baseline =>
    rw [planRun, run_planBaseline]
    simp [Mode.isOffload]
  | offload transport remoteMerge remoteSpill =>
    rw [planRun, run_planOffload]
    rcases session.preflight.run s with ⟨_ | artifact, u⟩
    · simp [Mode.isOffload]
    · simp

/-! ## Stages as they are gone through -/

theorem run_perform_run {mode : Mode} {plan : RunPlan} {s : State σ}
    (h : (session.planRun mode p.base).run p.state = (.ok plan, s)) :
    (session.perform workload (.run mode)).run p =
      (do
        let execution ← onState (session.execute workload plan)
        Action.change (finish mode execution)).run (p.handed plan s) := by
  rw [perform, run_bind_of_ok (run_world p), run_bind_of_ok (run_onState h)]
  rfl

theorem run_perform_judge {reference candidate : Execution} (hr : p.reference? = some reference)
    (hc : p.candidate? = some candidate) :
    (session.perform workload .judge).run p =
      (do
        let verdict ← onState (session.judge reference candidate)
        Action.change fun p =>
          { p with candidate? := none, judged := p.judged ++ [verdict] }).run p := by
  rw [perform, run_bind_of_ok (run_world p)]
  simp only [hr, hc]

theorem Passes.run_perform (h : session.Passes workload stage p q) :
    (session.perform workload stage).run p = (.ok (), q) := by
  cases h with
  | prepare h => exact run_bind_of_ok (run_onState (run_discard_of_ok h))
  | readBase => rfl
  | run hplan hsubmit hcode =>
    rw [run_perform_run hplan]
    have hexecute := run_execute_of_ok hsubmit
    rw [if_pos hcode] at hexecute
    rw [run_bind_of_ok (run_onState hexecute)]
    rfl
  | judge hr hc hcompare hverdict =>
    rw [run_perform_judge hr hc,
      run_bind_of_ok (run_onState (run_judge_of_ne_fail hcompare hverdict))]
    rfl
  | report h =>
    rw [perform, run_change, h]

theorem Fails.run_perform (h : session.Fails workload stage p e q) :
    (session.perform workload stage).run p = (.error e, q) := by
  cases h with
  | unprepared h => exact run_bind_of_error (run_onState (run_discard_of_error h))
  | unplanned hmode h =>
    exact run_bind_of_ok (run_world p) |>.trans
      (run_bind_of_error (run_onState (planRun_eq_error_iff.2 ⟨hmode, h⟩)))
  | unanswered hplan hsubmit =>
    rw [run_perform_run hplan]
    exact run_bind_of_error (run_onState (run_execute_of_error hsubmit))
  | job hplan hsubmit hcode =>
    rw [run_perform_run hplan]
    have hexecute := run_execute_of_ok hsubmit
    rw [if_neg hcode] at hexecute
    exact run_bind_of_error (run_onState hexecute)
  | unread hr hc hcompare =>
    rw [run_perform_judge hr hc]
    exact run_bind_of_error (run_onState (run_judge_of_error hcompare))
  | mismatch hr hc hcompare =>
    rw [run_perform_judge hr hc]
    exact run_bind_of_error (run_onState (run_judge_of_fail hcompare))

theorem Trail.run_performAll (h : session.Trail workload stages p q) :
    (session.performAll workload stages).run p = (.ok (), q) := by
  induction h with
  | nil => rfl
  | cons hstage _ ih => exact (run_bind_of_ok hstage.run_perform).trans ih

/-- A failing stage ends what is gone through. -/
theorem StopsWith.run_performAll (h : session.StopsWith workload stages p e q) :
    (session.performAll workload stages).run p = (.error e, q) := by
  obtain ⟨early, stage, late, m, rfl, htrail, hfails⟩ := h
  rw [performAll_append, run_bind_of_ok htrail.run_performAll]
  exact run_bind_of_error hfails.run_perform

end Session

/-! ## What stages find -/

/-- Whether comparisons and reports among the stages find what they need, given whether there is a
reference and whether there is a candidate before the first of them. -/
def Stage.supplied (reference candidate : Bool) : List Stage → Bool
  | [] => true
  | .prepare :: stages => supplied false false stages
  | .readBase :: stages => supplied reference candidate stages
  | .run mode :: stages =>
    if mode.isOffload then supplied reference true stages else supplied true candidate stages
  | .judge :: stages => reference && candidate && supplied reference false stages
  | .report _ :: stages => reference && supplied reference candidate stages

/-- The stages of a matrix find what they need. -/
theorem MatrixPoint.supplied_stages (points : List MatrixPoint) (reference candidate : Bool) :
    Stage.supplied reference candidate (points.flatMap MatrixPoint.stages) = true := by
  induction points generalizing reference candidate with
  | nil => rfl
  | cons point points ih =>
    obtain ⟨transport, scenario⟩ := point
    cases scenario with
    | standard => exact ih true false
    | remoteMerge => exact ih true false

namespace Progress

/-- The stages find what they need from here on. -/
def Supplies (p : Progress σ) (stages : List Stage) : Prop :=
  Stage.supplied p.reference?.isSome p.candidate?.isSome stages = true

end Progress

namespace Session

open Progress

variable {session : Session σ} {workload : Workload} {stage : Stage} {stages early late : List Stage}
  {p m q : Progress σ} {e : Failure}

/-- A stage that finds what it needs passes or fails by one of the rules, and when it passes, the
stages behind it find what they need. -/
theorem passes_or_fails (h : p.Supplies (stage :: stages)) :
    (∃ q, session.Passes workload stage p q ∧ q.Supplies stages) ∨
      ∃ e q, session.Fails workload stage p e q := by
  cases stage with
  | prepare =>
    rcases hrun : session.preflight.run p.state with ⟨e | artifact, s⟩
    · exact .inr ⟨e, _, .unprepared hrun⟩
    · exact .inl ⟨_, .prepare hrun, h⟩
  | readBase => exact .inl ⟨_, .readBase, h⟩
  | run mode =>
    rcases hplan : (session.planRun mode p.base).run p.state with ⟨e | plan, s⟩
    · obtain ⟨hmode, hpreflight⟩ := planRun_eq_error_iff.1 hplan
      exact .inr ⟨e, _, .unplanned hmode hpreflight⟩
    · rcases hsubmit : (session.cluster.submit plan.properties workload).run s.world with
        ⟨e | result, w⟩
      · exact .inr ⟨e, _, .unanswered hplan hsubmit⟩
      · by_cases hcode : result.exitCode = 0
        · refine .inl ⟨_, .run hplan hsubmit hcode, ?_⟩
          unfold Supplies Stage.supplied at h
          unfold Supplies finish
          split at h
          · next hmode =>
            rw [if_pos hmode]
            exact h
          · next hmode =>
            rw [if_neg hmode]
            exact h
        · exact .inr ⟨_, _, .job hplan hsubmit hcode⟩
  | judge =>
    unfold Supplies Stage.supplied at h
    rw [Bool.and_eq_true, Bool.and_eq_true] at h
    obtain ⟨⟨hr, hc⟩, hrest⟩ := h
    obtain ⟨reference, hr⟩ := Option.isSome_iff_exists.1 hr
    obtain ⟨candidate, hc⟩ := Option.isSome_iff_exists.1 hc
    rcases hcompare : (session.clusterFs.compare reference.outputDirectory
      candidate.outputDirectory).run p.state.world with ⟨e | verdict, w⟩
    · exact .inr ⟨_, _, .unread hr hc hcompare⟩
    · by_cases hverdict : ∃ mismatch, verdict = .fail mismatch
      · obtain ⟨mismatch, rfl⟩ := hverdict
        exact .inr ⟨_, _, .mismatch hr hc hcompare⟩
      · exact .inl ⟨_, .judge hr hc hcompare (not_exists.1 hverdict), hrest⟩
  | report point =>
    unfold Supplies Stage.supplied at h
    rw [Bool.and_eq_true] at h
    obtain ⟨reference, hr⟩ := Option.isSome_iff_exists.1 h.1
    exact .inl ⟨_, .report hr, h.2⟩

/-- Where a stage has passed, it has done so by one of the rules. -/
theorem passes_of_run_perform (h : p.Supplies (stage :: stages))
    (hrun : (session.perform workload stage).run p = (.ok (), q)) :
    session.Passes workload stage p q ∧ q.Supplies stages := by
  rcases passes_or_fails h with ⟨q', hpasses, hsupplies⟩ | ⟨e, q', hfails⟩
  · rw [hpasses.run_perform] at hrun
    cases hrun
    exact ⟨hpasses, hsupplies⟩
  · rw [hfails.run_perform] at hrun
    cases hrun

theorem fails_of_run_perform (h : p.Supplies (stage :: stages))
    (hrun : (session.perform workload stage).run p = (.error e, q)) :
    session.Fails workload stage p e q := by
  rcases passes_or_fails h with ⟨q', hpasses, hsupplies⟩ | ⟨e', q', hfails⟩
  · rw [hpasses.run_perform] at hrun
    cases hrun
  · rw [hfails.run_perform] at hrun
    cases hrun
    exact hfails

/-- Stages that have been gone through are a trail, also where others are to follow. -/
theorem trail_of_run_performAll (h : p.Supplies (stages ++ late))
    (hrun : (session.performAll workload stages).run p = (.ok (), q)) :
    session.Trail workload stages p q ∧ q.Supplies late := by
  induction stages generalizing p with
  | nil =>
    cases hrun
    exact ⟨.nil, h⟩
  | cons stage stages ih =>
    obtain ⟨_, m, hstage, hstages⟩ := run_bind_eq_ok_iff.1 hrun
    obtain ⟨hpasses, hsupplies⟩ := passes_of_run_perform h hstage
    obtain ⟨htrail, hlate⟩ := ih hsupplies hstages
    exact ⟨.cons hpasses htrail, hlate⟩

end Session
end OffloadCheck
