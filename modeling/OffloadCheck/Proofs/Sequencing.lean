import OffloadCheck.Proofs.Trails

/-! # Where a matrix stops

A matrix stops at the first stage that fails, which belongs to one of its points, and when none
fails it has an outcome for every point, in which all jobs ended well and every candidate was
compared with the reference of its own sequence. -/
namespace OffloadCheck

open OffloadCheck.Action

variable {σ : Type}

namespace Session

open Progress

variable (session : Session σ) (workload : Workload)

/-! ## The first stage that fails -/

theorem exists_failing {stages : List Stage} {p q : Progress σ} {e : Failure}
    (h : (session.performAll workload stages).run p = (.error e, q)) :
    ∃ early stage late m, stages = early ++ stage :: late ∧
      (session.performAll workload early).run p = (.ok (), m) ∧
      (session.perform workload stage).run m = (.error e, q) := by
  induction stages generalizing p with
  | nil => cases h
  | cons stage stages ih =>
    rcases run_bind_eq_error_iff.1 h with hstage | ⟨_, m, hstage, hstages⟩
    · exact ⟨[], stage, stages, p, rfl, rfl, hstage⟩
    · obtain ⟨early, failing, late, m', rfl, hearly, hfails⟩ := ih hstages
      exact ⟨stage :: early, failing, late, m', rfl, run_bind_eq_ok_iff.2 ⟨_, m, hstage, hearly⟩,
        hfails⟩

/-- The failing stage belongs to one point; all points before it are done. -/
theorem exists_failing_point {points : List MatrixPoint} {p q : Progress σ} {e : Failure}
    (h : (session.performAll workload (points.flatMap MatrixPoint.stages)).run p = (.error e, q)) :
    ∃ before point after early stage late m, points = before ++ point :: after ∧
      point.stages = early ++ stage :: late ∧
      (session.performAll workload (before.flatMap MatrixPoint.stages ++ early)).run p =
        (.ok (), m) ∧
      (session.perform workload stage).run m = (.error e, q) := by
  induction points generalizing p with
  | nil => cases h
  | cons point points ih =>
    rw [List.flatMap_cons, performAll_append] at h
    rcases run_bind_eq_error_iff.1 h with hpoint | ⟨_, m, hpoint, hpoints⟩
    · obtain ⟨early, stage, late, m, hstages, hearly, hfails⟩ :=
        session.exists_failing workload hpoint
      exact ⟨[], point, points, early, stage, late, m, rfl, hstages, hearly, hfails⟩
    · obtain ⟨before, failing, after, early, stage, late, m', rfl, hstages, hearly, hfails⟩ :=
        ih hpoints
      refine ⟨point :: before, failing, after, early, stage, late, m', rfl, hstages, ?_, hfails⟩
      rw [List.flatMap_cons, List.append_assoc, performAll_append]
      exact run_bind_eq_ok_iff.2 ⟨_, m, hpoint, hearly⟩

end Session

/-! ## Outcomes -/

/-- The executions of an outcome. -/
def Outcome.executions (o : Outcome) : List Execution :=
  o.reference :: o.candidates.map (·.execution)

/-- The outcome of a sequence that was begun at `p`. Its runs are those of the scenario, and each is
a job of this sequence that ended well. Every candidate was compared in this sequence with the
reference of this sequence, in the world of that moment, and without a mismatch. -/
structure Outcome.Complete (session : Session σ) (workload : Workload) (p : Progress σ)
    (o : Outcome) : Prop where
  reference : o.reference.role = .reference
  roles : o.candidates.map (·.execution.role) =
    o.point.scenario.roles.filter fun r => !r.isReference
  ran : ∀ execution ∈ o.executions,
    ∃ job : session.Submission workload o.point.stages p, job.Gives execution
  exitCodes : ∀ execution ∈ o.executions, execution.exitCode = 0
  compared : ∀ c ∈ o.candidates, ∃ early late m w,
    o.point.stages = early ++ .judge :: late ∧ session.Trail workload early p m ∧
    (session.clusterFs.compare o.reference.outputDirectory c.execution.outputDirectory).run
      m.state.world = (.ok c.verdict, w)
  unmatched : ∀ c ∈ o.candidates, ∀ mismatch, c.verdict ≠ .fail mismatch
  passed : o.allPassed = true

namespace Session

open Progress

variable {session : Session σ} {workload : Workload} {p m q : Progress σ} {base : Properties}
  {reference? candidate? : Option Execution} {judged : List Candidate} {outcomes : List Outcome}
  {stages early late : List Stage}

/-- The execution tells of the run of a mode among the stages from `p` on. -/
structure Ran (session : Session σ) (workload : Workload) (stages : List Stage) (p : Progress σ)
    (mode : Mode) (execution : Execution) : Prop where
  job : ∃ job : session.Submission workload stages p, job.Gives execution
  role : execution.role = mode.role
  exitCode : execution.exitCode = 0

/-- The candidate was compared among the stages from `p` on. -/
structure Compared (session : Session σ) (workload : Workload) (stages : List Stage)
    (p : Progress σ) (reference : Execution) (c : Candidate) : Prop where
  compared : ∃ early late m w, stages = early ++ .judge :: late ∧
    session.Trail workload early p m ∧
    (session.clusterFs.compare reference.outputDirectory c.execution.outputDirectory).run
      m.state.world = (.ok c.verdict, w)
  unmatched : ∀ mismatch, c.verdict ≠ .fail mismatch

theorem Compared.isPass {reference : Execution} {c : Candidate}
    (h : session.Compared workload stages p reference c) : c.verdict.isPass = true := by
  cases hverdict : c.verdict with
  | noOutput | pass _ _ => rfl
  | fail mismatch => exact absurd hverdict (h.unmatched mismatch)

theorem role_of_planRun {mode : Mode} {base : Properties} {s t : State σ} {plan : RunPlan}
    (h : (session.planRun mode base).run s = (.ok plan, t)) : plan.role = mode.role := by
  rcases session.run_planRun mode base s with ⟨_, _, hrun, hrole, _⟩ | ⟨_, _, hrun, _⟩
  · cases hrun.symm.trans h
    exact hrole
  · cases hrun.symm.trans h

theorem Passes.prepared (h : session.Passes workload .prepare m q)
    (hm : m.At base reference? candidate? judged outcomes) : q.At base none none [] outcomes := by
  cases h with
  | prepare _ => exact ⟨hm.base, rfl, rfl, rfl, hm.outcomes⟩

theorem Passes.exists_base (h : session.Passes workload .readBase m q)
    (hm : m.At base reference? candidate? judged outcomes) :
    ∃ found, q.At found reference? candidate? judged outcomes := by
  cases h with
  | readBase => exact ⟨_, rfl, hm.reference, hm.candidate, hm.judged, hm.outcomes⟩

theorem Passes.exists_execution {mode : Mode} (h : session.Passes workload (.run mode) m q)
    (stages : List Stage) (htrail : session.Trail workload early p m)
    (hsplit : stages = early ++ .run mode :: late)
    (hm : m.At base reference? candidate? judged outcomes) :
    ∃ execution, session.Ran workload stages p mode execution ∧
      q.At base (if mode.isOffload then reference? else some execution)
        (if mode.isOffload then some execution else candidate?) judged outcomes := by
  cases h with
  | @run _ _ plan s result w hplan hsubmit hcode =>
    have hgives : Submission.Gives ⟨early, mode, late, m, plan, s, hsplit, htrail, hplan⟩
        (session.executionOf plan s.world result w) := ⟨result, w, hsubmit, hcode, rfl⟩
    refine ⟨_, ⟨⟨_, hgives⟩, role_of_planRun hplan, hcode⟩, ?_⟩
    unfold finish
    split
    · exact ⟨hm.base, hm.reference, rfl, hm.judged, hm.outcomes⟩
    · exact ⟨hm.base, rfl, hm.candidate, hm.judged, hm.outcomes⟩

theorem Passes.exists_verdict {reference candidate : Execution}
    (h : session.Passes workload .judge m q) (stages : List Stage)
    (htrail : session.Trail workload early p m) (hsplit : stages = early ++ .judge :: late)
    (hm : m.At base (some reference) (some candidate) judged outcomes) :
    ∃ verdict, session.Compared workload stages p reference ⟨candidate, verdict⟩ ∧
      q.At base (some reference) none (judged ++ [⟨candidate, verdict⟩]) outcomes := by
  cases h with
  | judge hr hc hcompare hverdict =>
    obtain rfl := Option.some.inj (hm.reference.symm.trans hr)
    obtain rfl := Option.some.inj (hm.candidate.symm.trans hc)
    refine ⟨_, ⟨⟨early, late, m, _, hsplit, htrail, hcompare⟩, hverdict⟩, ?_⟩
    exact ⟨hm.base, hr, rfl, by rw [hm.judged], hm.outcomes⟩

theorem Passes.reported {point : MatrixPoint} {reference : Execution}
    (h : session.Passes workload (.report point) m q)
    (hm : m.At base (some reference) candidate? judged outcomes) :
    q.outcomes = outcomes ++ [⟨point, reference, judged⟩] := by
  cases h with
  | report hr =>
    obtain rfl := Option.some.inj (hm.reference.symm.trans hr)
    rw [← hm.outcomes, ← hm.judged]

theorem complete_standard {transport : Transport}
    (h : session.Trail workload (MatrixPoint.stages ⟨transport, .standard⟩) p q) :
    ∃ o, q.outcomes = p.outcomes ++ [o] ∧ o.point = ⟨transport, .standard⟩ ∧
      o.Complete session workload p := by
  let stages := MatrixPoint.stages ⟨transport, .standard⟩
  rcases h with _ | ⟨h₁, _ | ⟨h₂, _ | ⟨h₃, _ | ⟨h₄, _ | ⟨h₅, _ | ⟨h₆, _ | ⟨h₇, _ | ⟨h₈, _ | ⟨h₉,
    _ | _⟩⟩⟩⟩⟩⟩⟩⟩⟩
  have hafter := h₁.prepared ⟨rfl, rfl, rfl, rfl, rfl⟩
  obtain ⟨_, hafter⟩ := h₂.exists_base hafter
  have htrail := (Trail.nil.concat h₁).concat h₂
  obtain ⟨reference, hreference, hafter⟩ := h₃.exists_execution stages htrail rfl hafter
  have htrail := htrail.concat h₃
  obtain ⟨standard, hstandard, hafter⟩ := h₄.exists_execution stages htrail rfl hafter
  have htrail := htrail.concat h₄
  obtain ⟨_, hjudged, hafter⟩ := h₅.exists_verdict stages htrail rfl hafter
  obtain ⟨_, hafter⟩ := h₆.exists_base hafter
  have htrail := (htrail.concat h₅).concat h₆
  obtain ⟨spill, hspill, hafter⟩ := h₇.exists_execution stages htrail rfl hafter
  obtain ⟨_, hjudged', hafter⟩ := h₈.exists_verdict stages (htrail.concat h₇) rfl hafter
  refine ⟨_, h₉.reported hafter, rfl, hreference.role, ?_, ?_, ?_, ?_, ?_, ?_⟩
  · have hroles : [standard.role, spill.role] = [.standardOffload, .remoteSpillOffload] := by
      rw [hstandard.role, hspill.role]
      rfl
    exact hroles
  · exact List.forall_mem_cons.2 ⟨hreference.job,
      List.forall_mem_cons.2 ⟨hstandard.job, List.forall_mem_singleton.2 hspill.job⟩⟩
  · exact List.forall_mem_cons.2 ⟨hreference.exitCode,
      List.forall_mem_cons.2 ⟨hstandard.exitCode, List.forall_mem_singleton.2 hspill.exitCode⟩⟩
  · exact List.forall_mem_cons.2 ⟨hjudged.compared, List.forall_mem_singleton.2 hjudged'.compared⟩
  · exact List.forall_mem_cons.2 ⟨hjudged.unmatched, List.forall_mem_singleton.2 hjudged'.unmatched⟩
  · simpa [Outcome.allPassed] using ⟨hjudged.isPass, hjudged'.isPass⟩

theorem complete_remoteMerge {transport : Transport}
    (h : session.Trail workload (MatrixPoint.stages ⟨transport, .remoteMerge⟩) p q) :
    ∃ o, q.outcomes = p.outcomes ++ [o] ∧ o.point = ⟨transport, .remoteMerge⟩ ∧
      o.Complete session workload p := by
  let stages := MatrixPoint.stages ⟨transport, .remoteMerge⟩
  rcases h with _ | ⟨h₁, _ | ⟨h₂, _ | ⟨h₃, _ | ⟨h₄, _ | ⟨h₅, _ | ⟨h₆, _ | ⟨h₇, _ | _⟩⟩⟩⟩⟩⟩⟩
  have hafter := h₁.prepared ⟨rfl, rfl, rfl, rfl, rfl⟩
  obtain ⟨_, hafter⟩ := h₂.exists_base hafter
  have htrail := (Trail.nil.concat h₁).concat h₂
  obtain ⟨merged, hmerged, hafter⟩ := h₃.exists_execution stages htrail rfl hafter
  obtain ⟨_, hafter⟩ := h₄.exists_base hafter
  have htrail := (htrail.concat h₃).concat h₄
  obtain ⟨reference, hreference, hafter⟩ := h₅.exists_execution stages htrail rfl hafter
  obtain ⟨_, hjudged, hafter⟩ := h₆.exists_verdict stages (htrail.concat h₅) rfl hafter
  refine ⟨_, h₇.reported hafter, rfl, hreference.role, ?_, ?_, ?_, ?_, ?_, ?_⟩
  · have hroles : [merged.role] = [.remoteMergeOffload] := by
      rw [hmerged.role]
      rfl
    exact hroles
  · exact List.forall_mem_cons.2 ⟨hreference.job, List.forall_mem_singleton.2 hmerged.job⟩
  · exact List.forall_mem_cons.2
      ⟨hreference.exitCode, List.forall_mem_singleton.2 hmerged.exitCode⟩
  · exact List.forall_mem_singleton.2 hjudged.compared
  · exact List.forall_mem_singleton.2 hjudged.unmatched
  · simpa [Outcome.allPassed] using hjudged.isPass

/-- A sequence whose stages pass leaves a complete outcome. -/
theorem Trail.complete {point : MatrixPoint} (h : session.Trail workload point.stages p q) :
    ∃ o, q.outcomes = p.outcomes ++ [o] ∧ o.point = point ∧ o.Complete session workload p := by
  obtain ⟨transport, scenario⟩ := point
  cases scenario with
  | standard => exact complete_standard h
  | remoteMerge => exact complete_remoteMerge h

/-- A point that is run on its own leaves a complete outcome as well. -/
theorem complete_of_runPoint {point : MatrixPoint} {o : Outcome} {s t : State σ}
    (h : (session.runPoint workload point).run s = (.ok o, t)) :
    o.point = point ∧ o.Complete session workload (.start s) := by
  have htracks := Progress.tracks_runPoint session workload (.start s) point
  have hstart : (Progress.start s).state = s := rfl
  unfold Progress.Tracks at htracks
  rw [hstart, h] at htracks
  generalize hstages : (session.performAll workload point.stages).run (.start s) = found at htracks
  cases htracks with
  | @ok _ _ q houtcomes =>
    have hsupplies : (Progress.start s).Supplies (point.stages ++ []) := by
      have hsupplied := MatrixPoint.supplied_stages [point] false false
      rwa [List.flatMap_singleton, ← List.append_nil point.stages] at hsupplied
    obtain ⟨htrail, -⟩ := trail_of_run_performAll hsupplies hstages
    obtain ⟨o', houtcomes', hpoint, hcomplete⟩ := htrail.complete
    have hsame := List.append_cancel_left (houtcomes.symm.trans houtcomes')
    obtain rfl := List.head_eq_of_cons_eq hsame
    exact ⟨hpoint, hcomplete⟩

/-- Outcomes of sequences that were gone through one after the other. -/
inductive Earned (session : Session σ) (workload : Workload) :
    Progress σ → List Outcome → Progress σ → Prop
  | nil {p : Progress σ} : Earned session workload p [] p
  | cons {o : Outcome} {os : List Outcome} {p m q : Progress σ} :
      session.Trail workload o.point.stages p m → o.Complete session workload p →
      Earned session workload m os q → Earned session workload p (o :: os) q

theorem Trail.earned {points : List MatrixPoint}
    (h : session.Trail workload (points.flatMap MatrixPoint.stages) p q) :
    ∃ os, q.outcomes = p.outcomes ++ os ∧ os.map (·.point) = points ∧
      session.Earned workload p os q := by
  induction points generalizing p with
  | nil =>
    cases h
    exact ⟨[], (List.append_nil _).symm, rfl, .nil⟩
  | cons point points ih =>
    rw [List.flatMap_cons] at h
    obtain ⟨m, hpoint, hrest⟩ := h.of_append
    obtain ⟨o, houtcomes, rfl, hcomplete⟩ := hpoint.complete
    obtain ⟨os, hos, rfl, hearned⟩ := ih hrest
    refine ⟨o :: os, ?_, rfl, .cons hpoint hcomplete hearned⟩
    rw [hos, houtcomes, List.append_assoc]
    rfl

end Session

namespace Session

open Progress

/-! ## The law -/

/-- What is submitted from the start on. -/
theorem submitted_of_adds {session : Session σ} {s : State σ} {q : Progress σ} {added : List Role}
    (h : (Progress.start s).Adds session q added) :
    q.submitted.map (·.role) = added ∧
      q.submitted.map (·.outputDirectory) = session.outputsFrom s.planned added :=
  ⟨h.roles, h.outputs⟩

variable (session : Session σ) (workload : Workload)

theorem flatMap_roles_stages (points : List MatrixPoint) :
    (points.flatMap MatrixPoint.stages).flatMap Stage.roles =
      points.flatMap (·.scenario.roles) := by
  simp only [List.flatMap_assoc, MatrixPoint.roles_stages]

/-- The stages decide the result of a matrix and the state it leaves. -/
theorem run_runMatrix (points : List MatrixPoint) {p q : Progress σ} {r : Except Failure Unit}
    (hp : p.outcomes = [])
    (h : (session.performAll workload (points.flatMap MatrixPoint.stages)).run p = (r, q)) :
    (session.runMatrix workload points).run p.state = (r.map fun _ => q.outcomes, q.state) := by
  have htracks := Progress.tracks_runMatrix session workload p points
  unfold Progress.Tracks at htracks
  rw [h] at htracks
  generalize (session.runMatrix workload points).run p.state = found at htracks
  cases htracks with
  | ok houtcomes =>
    rw [hp, List.nil_append] at houtcomes
    rw [← houtcomes]
    rfl
  | error => rfl

/-- A recorded session goes through the same stages, so they tell of both sessions. -/
theorem run_runMatrix_recorded (points : List MatrixPoint) {s : State σ} {q : Progress σ}
    {r : Except Failure Unit}
    (h : (session.performAll workload (points.flatMap MatrixPoint.stages)).run (Progress.start s) =
      (r, q)) :
    (session.recorded.runMatrix workload points).run (s.beside []) =
      (r.map fun _ => q.outcomes, q.state.beside (q.requests workload)) := by
  have hrecorded := (session.follows_performAll workload
    (points.flatMap MatrixPoint.stages)).run_eq (Progress.start s)
  rw [h] at hrecorded
  exact session.recorded.run_runMatrix workload points rfl hrecorded

/-- When no stage fails, the runs of all points are submitted. -/
theorem adds_of_completed {points : List MatrixPoint} {p q : Progress σ}
    (h : (session.performAll workload (points.flatMap MatrixPoint.stages)).run p = (.ok (), q)) :
    p.Adds session q (points.flatMap (·.scenario.roles)) := by
  have hadds := session.adds_performAll workload h
  rw [flatMap_roles_stages] at hadds
  exact hadds

/-- When a stage fails, what it submits before it does is the beginning of its own runs. -/
theorem adds_of_failed {stage : Stage} {m q : Progress σ} {e : Failure}
    (h : (session.perform workload stage).run m = (.error e, q)) :
    ∃ last, last <+: stage.roles ∧ m.Adds session q last := by
  rcases session.adds_perform workload stage m with ⟨_, _, herror, hnone⟩ | hsome
  · rw [h] at herror
    cases herror
    exact ⟨[], List.nil_prefix, hnone⟩
  · rw [h] at hsome
    exact ⟨stage.roles, List.prefix_rfl, hsome⟩

/-- Whatever is submitted takes the next identifiers. -/
theorem exists_adds {stages : List Stage} {p q : Progress σ} {r : Except Failure Unit}
    (h : (session.performAll workload stages).run p = (r, q)) :
    ∃ added, p.Adds session q added := by
  cases r with
  | ok _ => exact ⟨_, session.adds_performAll workload h⟩
  | error e =>
    obtain ⟨early, stage, late, m, rfl, hearly, hfails⟩ := session.exists_failing workload h
    obtain ⟨last, _, hadded⟩ := session.adds_of_failed workload hfails
    exact ⟨_, (session.adds_performAll workload hearly).trans hadded⟩

variable {session workload}

/-- How a matrix ends that is begun at `p`: with an outcome for each of its points, all of whose runs
were submitted, or at the first stage that fails. Of the point of that stage, only the runs of the
stages up to it were submitted, and nothing of the points behind it. -/
inductive Ends (session : Session σ) (workload : Workload) (points : List MatrixPoint)
    (p : Progress σ) : Except Failure (List Outcome) → Progress σ → Prop
  | completed {outcomes : List Outcome} {q : Progress σ} :
      outcomes.map (·.point) = points → session.Earned workload p outcomes q →
      q.submitted.map (·.role) = points.flatMap (·.scenario.roles) →
      Ends session workload points p (.ok outcomes) q
  | stopped {before after : List MatrixPoint} {point : MatrixPoint} {early late : List Stage}
      {stage : Stage} {last : List Role} {e : Failure} {m q : Progress σ} :
      points = before ++ point :: after → point.stages = early ++ stage :: late →
      session.Trail workload (before.flatMap MatrixPoint.stages ++ early) p m →
      session.Fails workload stage m e q → last <+: stage.roles →
      early.flatMap Stage.roles ++ last <+: point.scenario.roles →
      q.submitted.map (·.role) =
        before.flatMap (·.scenario.roles) ++ (early.flatMap Stage.roles ++ last) →
      Ends session workload points p (.error e) q

theorem ends_of_completed {points : List MatrixPoint} {s : State σ} {q : Progress σ}
    (h : (session.performAll workload (points.flatMap MatrixPoint.stages)).run (Progress.start s) =
      (.ok (), q)) :
    session.Ends workload points (.start s) (.ok q.outcomes) q := by
  have hsupplies : (Progress.start s).Supplies (points.flatMap MatrixPoint.stages ++ []) := by
    rw [List.append_nil]
    exact MatrixPoint.supplied_stages points _ _
  obtain ⟨htrail, -⟩ := trail_of_run_performAll hsupplies h
  obtain ⟨outcomes, houtcomes, hpoints, hearned⟩ := htrail.earned
  obtain ⟨hroles, -⟩ := submitted_of_adds (session.adds_of_completed workload h)
  have heq : q.outcomes = outcomes := houtcomes
  rw [heq]
  exact .completed hpoints hearned hroles

theorem ends_of_stopped {points : List MatrixPoint} {s : State σ} {q : Progress σ} {e : Failure}
    (h : (session.performAll workload (points.flatMap MatrixPoint.stages)).run (Progress.start s) =
      (.error e, q)) :
    session.Ends workload points (.start s) (.error e) q := by
  obtain ⟨before, point, after, early, stage, late, m, rfl, hstages, hearly, hfails⟩ :=
    session.exists_failing_point workload h
  obtain ⟨last, hlast, hadded⟩ := session.adds_of_failed workload hfails
  have hadds := session.adds_performAll workload hearly
  rw [List.flatMap_append, flatMap_roles_stages] at hadds
  obtain ⟨hroles, -⟩ := submitted_of_adds (hadds.trans hadded)
  rw [List.append_assoc] at hroles
  have hprefix : early.flatMap Stage.roles ++ last <+: point.scenario.roles := by
    rw [← point.roles_stages, hstages, List.flatMap_append, List.flatMap_cons]
    exact (List.prefix_append_right_inj _).2 (hlast.trans (List.prefix_append _ _))
  have hsplit : (before ++ point :: after).flatMap MatrixPoint.stages =
      (before.flatMap MatrixPoint.stages ++ early) ++
        stage :: (late ++ after.flatMap MatrixPoint.stages) := by
    rw [List.flatMap_append, List.flatMap_cons, hstages]
    simp
  have hsupplies : (Progress.start s).Supplies ((before.flatMap MatrixPoint.stages ++ early) ++
      stage :: (late ++ after.flatMap MatrixPoint.stages)) := by
    rw [← hsplit]
    exact MatrixPoint.supplied_stages _ _ _
  obtain ⟨htrail, hlate⟩ := trail_of_run_performAll hsupplies hearly
  exact .stopped rfl hstages htrail (fails_of_run_perform hlate hfails) hlast hprefix hroles

theorem Ends.stopsWith {points : List MatrixPoint} {p q : Progress σ} {e : Failure}
    (h : session.Ends workload points p (.error e) q) :
    session.StopsWith workload (points.flatMap MatrixPoint.stages) p e q := by
  cases h with
  | @stopped before after point early late stage last _ m _ hpoints hstages htrail hfails =>
    subst hpoints
    refine ⟨before.flatMap MatrixPoint.stages ++ early, stage,
      late ++ after.flatMap MatrixPoint.stages, m, ?_, htrail, hfails⟩
    rw [List.flatMap_append, List.flatMap_cons, hstages]
    simp

variable (session workload)

/-- A matrix goes through the stages of its points in order until one of them fails, and that one's
failure is its result. The cluster is handed exactly the runs of the stages that were gone through,
in their order and each under an identifier of its own; the run of the failing stage is among them
when it got as far as its submission. Where no stage fails, there is a complete outcome for each
point, in order. -/
theorem runMatrix_stops_at_first_failure (points : List MatrixPoint) (s : State σ) :
    ∃ (result : Except Failure (List Outcome)) (q : Progress σ),
      (session.runMatrix workload points).run s = (result, q.state) ∧
      (session.recorded.runMatrix workload points).run (s.beside []) =
        (result, q.state.beside (q.requests workload)) ∧
      q.submitted.map (·.outputDirectory) =
        session.outputsFrom s.planned (q.submitted.map (·.role)) ∧
      ((∃ outcomes, result = .ok outcomes) ↔ ∀ e q',
        ¬ session.StopsWith workload (points.flatMap MatrixPoint.stages) (.start s) e q') ∧
      session.Ends workload points (.start s) result q := by
  rcases hrun : (session.performAll workload (points.flatMap MatrixPoint.stages)).run
    (Progress.start s) with ⟨r, q⟩
  refine ⟨r.map fun _ => q.outcomes, q, session.run_runMatrix workload points rfl hrun,
    session.run_runMatrix_recorded workload points hrun, ?_, ?_⟩
  · obtain ⟨added, hadds⟩ := session.exists_adds workload hrun
    obtain ⟨hroles, houtputs⟩ := submitted_of_adds hadds
    rw [hroles]
    exact houtputs
  · cases r with
    | ok _ =>
      refine ⟨⟨fun _ e q' hstops => ?_, fun _ => ⟨q.outcomes, rfl⟩⟩, ends_of_completed hrun⟩
      rw [hstops.run_performAll] at hrun
      cases hrun
    | error e =>
      have hends := ends_of_stopped hrun
      refine ⟨⟨?_, fun hnone => absurd hends.stopsWith (hnone e q)⟩, hends⟩
      intro hok
      obtain ⟨_, hok⟩ := hok
      cases hok

/-! ## A job that fails -/

/-- A session whose cluster counts its jobs, each of which ends by its number as given. Its client
artifact is in place. -/
def counted (base : Properties) (job : Nat → Properties → JobResult) : Session Nat where
  id := "counted"
  settings := sample.settings
  host := ⟨fun _ _ => false, fun _ => default, Text.ofNat⟩
  cluster := ⟨fun _ => pure (), pure (), fun _ => base, fun ps _ n => (.ok (job n ps), n + 1)⟩
  servers := ⟨fun _ => pure (), fun _ => pure (), fun _ => "host:1", pure ()⟩
  clusterFs := sample.storage.within (fun _ => ()) fun _ n => n
  buildFs := sample.storage.within (fun _ => ()) fun _ n => n
  quorum := "host:1"

/-- The state of such a session before its first job. -/
def countedState : State Nat := ⟨0, sampleState.staged, false, 0⟩

/-- Every job but the first one ends with an exit code of its own. -/
def stumbling (base : Properties) : Session Nat :=
  counted base fun n ps => ⟨if n = 0 then 0 else 7, ps⟩

/-- The second job ends the whole matrix, which would submit eight more. -/
theorem second_job_stops_matrix : ∃ q : Progress Nat,
    ((stumbling .empty).runMatrix ⟨"wordcount", []⟩ Matrix.full).run countedState =
      (.error (.job .standardOffload "wordcount" 7), q.state) ∧ q.submitted.length = 2 ∧
    (stumbling .empty).StopsWith ⟨"wordcount", []⟩ (Matrix.full.flatMap MatrixPoint.stages)
      (.start countedState) (.job .standardOffload "wordcount" 7) q := by
  obtain ⟨result, q, hreturned, hhanded, _, _, hends⟩ :=
    runMatrix_stops_at_first_failure (stumbling .empty) ⟨"wordcount", []⟩ Matrix.full countedState
  have hresult : (((stumbling .empty).runMatrix ⟨"wordcount", []⟩ Matrix.full).run
      countedState).1 = .error (.job .standardOffload "wordcount" 7) := rfl
  have hrecord : (((stumbling .empty).recorded.runMatrix ⟨"wordcount", []⟩ Matrix.full).run
      (countedState.beside [])).2.world.2.length = 2 := rfl
  rw [hreturned] at hresult
  obtain rfl : result = _ := hresult
  rw [hhanded] at hrecord
  refine ⟨q, hreturned, ?_, hends.stopsWith⟩
  rw [← hrecord]
  exact (List.length_map _).symm

end Session
end OffloadCheck
