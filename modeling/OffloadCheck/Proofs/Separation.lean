import OffloadCheck.Proofs.Paths
import OffloadCheck.Proofs.Sequencing

/-! # Whether compared outputs lie apart

Every run is handed an output directory of its own, but what is compared is the directory that the
job has left in its properties. So two compared outputs lie apart as far as the jobs of the sequence
let them: where one passes, both have been left by jobs that were handed directories apart from each
other, and they differ unless two jobs that were handed different directories have left the same one
(`Session.KeepsOutputsApart`). A cluster that numbers the directories keeps them apart; one that
pins the directory has an output compared with itself. -/
namespace OffloadCheck.Session

open OffloadCheck.Action

variable {σ : Type} {session : Session σ} {workload : Workload} {stages : List Stage}
  {p : Progress σ} {s t : State σ}

/-! ## Jobs and their directories -/

/-- The job was told to leave its output in this directory. -/
def Submission.Handed (job : session.Submission workload stages p) (dir : Path) : Prop :=
  job.plan.properties.get? Job.Keys.outputDir = some dir.text

/-- Jobs of these stages that were handed different output directories and have ended well have not
left the same one. -/
def KeepsOutputsApart (session : Session σ) (workload : Workload) (stages : List Stage)
    (p : Progress σ) : Prop :=
  ∀ (job job' : session.Submission workload stages p) (e e' : Execution) (a a' b b' : Path),
    job.Handed a → job'.Handed a' → a.components ≠ a'.components →
    job.Gives e → job'.Gives e' → e.outputDirectory = some b → e'.outputDirectory = some b' →
    b.components ≠ b'.components

theorem handed_of_planRun {mode : Mode} {base : Properties} {plan : RunPlan}
    (h : (session.planRun mode base).run s = (.ok plan, t)) :
    ∃ id, plan.properties.get? Job.Keys.outputDir =
      some (RunPlan.outputFor session.settings plan.role id).text := by
  cases mode with
  | baseline =>
    rw [planRun, run_planBaseline] at h
    cases h
    exact ⟨_, RunPlan.outputDir_ofProperties _ _ _ _ _⟩
  | offload transport remoteMerge remoteSpill =>
    obtain ⟨artifact, id, rfl⟩ := session.planOffload_eq_ok h
    exact ⟨id, RunPlan.outputDir_ofProperties _ _ _ _ _⟩

/-- The job of an execution was handed a directory for the role of the execution. -/
theorem Submission.Gives.exists_handed {job : session.Submission workload stages p}
    {execution : Execution} (h : job.Gives execution) :
    ∃ id, job.Handed (RunPlan.outputFor session.settings execution.role id) := by
  obtain ⟨result, w, _, _, rfl⟩ := h
  exact handed_of_planRun job.planned

/-- A comparison passes only where both outputs are present. -/
theorem present_of_compare_pass {fs : FileSystem σ} {reference? candidate? : Option Path} {w w' : σ}
    {files bytes : Nat}
    (h : (fs.compare reference? candidate?).run w = (.ok (.pass files bytes), w')) :
    ∃ r c, reference? = some r ∧ candidate? = some c := by
  cases reference? with
  | none => cases candidate? <;> cases h
  | some r =>
    cases candidate? with
    | none => cases h
    | some c => exact ⟨r, c, rfl, rfl⟩

/-! ## Outputs that are compared -/

/-- Where a comparison passes, the two outputs were left by jobs of the sequence that had been handed
directories apart from each other, whatever identifiers they were given. They are different
directories if the jobs of the sequence keep their outputs apart. -/
theorem passed_outputs_lie_apart {point : MatrixPoint} {o : Outcome}
    (h : (session.runPoint workload point).run s = (.ok o, t)) :
    ∀ c ∈ o.candidates, ∀ files bytes, c.verdict = .pass files bytes →
      (∃ (job job' : session.Submission workload point.stages (.start s)) (id id' : String),
        job.Gives o.reference ∧ job'.Gives c.execution ∧
        job.Handed (RunPlan.outputFor session.settings o.reference.role id) ∧
        job'.Handed (RunPlan.outputFor session.settings c.execution.role id') ∧
        Apart (RunPlan.outputFor session.settings o.reference.role id).components
          (RunPlan.outputFor session.settings c.execution.role id').components) ∧
      ∃ r d, o.reference.outputDirectory = some r ∧ c.execution.outputDirectory = some d ∧
        (session.KeepsOutputsApart workload point.stages (.start s) →
          r.components ≠ d.components) := by
  intro c hc files bytes hpass
  obtain ⟨rfl, hcomplete⟩ := complete_of_runPoint h
  obtain ⟨_, _, _, _, _, _, hcompare⟩ := hcomplete.compared c hc
  rw [hpass] at hcompare
  obtain ⟨r, d, hr, hd⟩ := present_of_compare_pass hcompare
  obtain ⟨job, hjob⟩ := hcomplete.ran o.reference List.mem_cons_self
  obtain ⟨job', hjob'⟩ := hcomplete.ran c.execution
    (List.mem_cons_of_mem _ (List.mem_map.2 ⟨c, hc, rfl⟩))
  obtain ⟨id, hhanded⟩ := hjob.exists_handed
  obtain ⟨id', hhanded'⟩ := hjob'.exists_handed
  have hroles : o.reference.role ≠ c.execution.role := by
    have hrole : c.execution.role ∈ o.candidates.map (·.execution.role) :=
      List.mem_map.2 ⟨c, hc, rfl⟩
    rw [hcomplete.roles] at hrole
    rw [hcomplete.reference]
    intro heq
    rw [← heq] at hrole
    simp [Role.isReference] at hrole
  have hapart := RunPlan.apart_outputFor session.settings hroles id id'
  refine ⟨⟨job, job', id, id', hjob, hjob', hhanded, hhanded', hapart⟩, r, d, hr, hd, ?_⟩
  intro hkeeps
  exact hkeeps job job' _ _ _ _ r d hhanded hhanded' (fun heq => hapart.1 (heq ▸ List.prefix_rfl))
    hjob hjob' hr hd

/-! ## Two clusters -/

section Counted

variable (base : Properties) (job : Nat → Properties → JobResult)

/-- Outputs that are both there compare as empty. -/
theorem run_judge_counted {reference candidate : Execution} {r d : Path}
    (hr : reference.outputDirectory = some r) (hd : candidate.outputDirectory = some d)
    (s : State Nat) :
    ((counted base job).judge reference candidate).run s = (.ok ⟨candidate, .pass 0 0⟩, s) := by
  have hmanifest : Manifest.ofListing [] = ⟨[], 0⟩ := by simp [Manifest.ofListing, Manifest.byName]
  have hlist (p : Path) : ((counted base job).clusterFs.manifest p).run s.world =
      (.ok ⟨[], 0⟩, s.world) := by
    rw [← hmanifest]
    rfl
  refine run_judge_of_ne_fail ?_ (by simp)
  rw [hr, hd, FileSystem.compare, FileSystem.compareDirs, run_bind_of_ok (hlist r),
    run_bind_of_ok (hlist d)]
  rfl

/-- Where jobs end well and leave an output directory, the sequence ends with a pass. -/
theorem run_counted (workload : Workload)
    (hjob : ∀ n ps, (job n ps).exitCode = 0 ∧
      ((job n ps).properties.get? Job.Keys.outputDir).isSome = true) :
    ∃ o t c ps ps', ((counted base job).runPoint workload ⟨.grpc, .remoteMerge⟩).run countedState =
        (.ok o, t) ∧ o.candidates = [c] ∧ c.verdict = .pass 0 0 ∧
      c.execution.outputDirectory =
        ((job 0 ps).properties.get? Job.Keys.outputDir).map Path.mk ∧
      o.reference.outputDirectory =
        ((job 1 ps').properties.get? Job.Keys.outputDir).map Path.mk := by
  have hpreflight : (counted base job).preflight.run countedState =
      (.ok ⟨"client.jar", ⟨"/rss.jar/client.jar"⟩⟩, countedState) := rfl
  have hbase (s : State Nat) :
      (observe (counted base job).cluster.baseProperties).run s = (.ok base, s) := rfl
  have hexecute (plan : RunPlan) (s : State Nat) :
      ((counted base job).execute workload plan).run s =
        (.ok ((counted base job).executionOf plan s.world (job s.world plan.properties)
          (s.world + 1)), { s with world := s.world + 1 }) := by
    have hsubmit : ((counted base job).cluster.submit plan.properties workload).run s.world =
        (.ok (job s.world plan.properties), s.world + 1) := rfl
    rw [run_execute_of_ok hsubmit, if_pos (hjob _ _).1]
  obtain ⟨plan, u, hplan, hu⟩ : ∃ plan u, ((counted base job).planRun (.offload .grpc true false)
      base).run countedState = (.ok plan, u) ∧ u.world = 0 := ⟨_, _, rfl, rfl⟩
  obtain ⟨plan', u', hplan', hu'⟩ : ∃ plan' u', ((counted base job).planRun .baseline base).run
      { u with world := 1 } = (.ok plan', u') ∧ u'.world = 1 := ⟨_, _, rfl, rfl⟩
  let merged := (counted base job).executionOf plan 0 (job 0 plan.properties) 1
  let reference := (counted base job).executionOf plan' 1 (job 1 plan'.properties) 2
  obtain ⟨d, hd⟩ : ∃ d, merged.outputDirectory = some d :=
    Option.isSome_iff_exists.1 (Option.isSome_map.trans (hjob 0 plan.properties).2)
  obtain ⟨r, hr⟩ : ∃ r, reference.outputDirectory = some r :=
    Option.isSome_iff_exists.1 (Option.isSome_map.trans (hjob 1 plan'.properties).2)
  have hmerged : ((counted base job).runOffload workload base .grpc true false).run countedState =
      (.ok merged, { u with world := 1 }) := by
    refine (run_bind_of_ok hplan).trans ?_
    rw [hexecute, hu]
  have hreference : ((counted base job).runReference workload base).run { u with world := 1 } =
      (.ok reference, { u' with world := 2 }) := by
    refine (run_bind_of_ok hplan').trans ?_
    rw [hexecute, hu']
  refine ⟨⟨⟨.grpc, .remoteMerge⟩, reference, [⟨merged, .pass 0 0⟩]⟩, { u' with world := 2 },
    ⟨merged, .pass 0 0⟩, plan.properties, plan'.properties, ?_, rfl, rfl, rfl, rfl⟩
  change ((counted base job).runRemoteMerge workload .grpc).run countedState = _
  rw [runRemoteMerge, run_bind_of_ok (run_discard_of_ok hpreflight), run_bind_of_ok (hbase _),
    run_bind_of_ok hmerged, run_bind_of_ok (hbase _), run_bind_of_ok hreference,
    run_bind_of_ok (run_judge_counted base job hr hd _)]
  rfl

end Counted

/-- A job leaves the directory of its number, whatever it was handed. -/
def numbered (n : Nat) (ps : Properties) : JobResult :=
  ⟨0, ps.set Job.Keys.outputDir ("/out-" ++ Text.ofNat n)⟩

def numbering : Session Nat := counted .empty numbered

/-- The two jobs of a sequence, by their plans and their numbers. -/
theorem exists_plans_numbering (workload : Workload) : ∃ plan plan',
    ∀ job : numbering.Submission workload (MatrixPoint.stages ⟨.grpc, .remoteMerge⟩)
        (.start countedState),
      (job.plan = plan ∧ job.state.world = 0) ∨ job.plan = plan' ∧ job.state.world = 1 := by
  obtain ⟨q, plan, u, hearly, hplan, hu⟩ : ∃ (q : Progress Nat) (plan : RunPlan) (u : State Nat),
      (numbering.performAll workload [.prepare, .readBase]).run (.start countedState) =
        (.ok (), q) ∧
      (numbering.planRun (.offload .grpc true false) q.base).run q.state = (.ok plan, u) ∧
      u.world = 0 := ⟨_, _, _, rfl, rfl, rfl⟩
  obtain ⟨q', plan', u', hearly', hplan', hu'⟩ : ∃ (q : Progress Nat) (plan : RunPlan)
      (u : State Nat),
      (numbering.performAll workload [.prepare, .readBase, .run (.offload .grpc true false),
        .readBase]).run (.start countedState) = (.ok (), q) ∧
      (numbering.planRun .baseline q.base).run q.state = (.ok plan, u) ∧ u.world = 1 :=
    ⟨_, _, _, rfl, rfl, rfl⟩
  refine ⟨plan, plan', fun job => ?_⟩
  obtain ⟨early, mode, late, progress, found, s, hsplit, htrail, hplanned⟩ := job
  have hrun := htrail.run_performAll
  -- The runs of the sequence are its third and its fifth stage.
  rcases early with _ | ⟨_, _ | ⟨_, _ | ⟨_, _ | ⟨_, _ | ⟨_, _ | ⟨_, _ | ⟨_, _⟩⟩⟩⟩⟩⟩⟩ <;>
    simp [MatrixPoint.stages] at hsplit
  · obtain ⟨rfl, rfl, rfl, _⟩ := hsplit
    cases hearly.symm.trans hrun
    cases hplan.symm.trans hplanned
    exact .inl ⟨rfl, hu⟩
  · obtain ⟨rfl, rfl, rfl, rfl, rfl, _⟩ := hsplit
    cases hearly'.symm.trans hrun
    cases hplan'.symm.trans hplanned
    exact .inr ⟨rfl, hu'⟩

theorem keepsOutputsApart_numbering (workload : Workload) :
    numbering.KeepsOutputsApart workload (MatrixPoint.stages ⟨.grpc, .remoteMerge⟩)
      (.start countedState) := by
  obtain ⟨plan, plan', hplans⟩ := exists_plans_numbering workload
  intro job job' e e' a a' b b' ha ha' hne hgives hgives' hb hb'
  have hleft {job : numbering.Submission workload (MatrixPoint.stages ⟨.grpc, .remoteMerge⟩)
      (.start countedState)} {e : Execution} {b : Path} (hgives : job.Gives e)
      (hb : e.outputDirectory = some b) : b = ⟨"/out-" ++ Text.ofNat job.state.world⟩ := by
    obtain ⟨result, w, hsubmit, _, rfl⟩ := hgives
    cases hsubmit
    rw [executionOf, numbered, Properties.get?_set, if_pos rfl] at hb
    exact (Option.some.inj hb).symm
  have hsame (h : job.plan = job'.plan) : a.components = a'.components := by
    unfold Submission.Handed at ha ha'
    rw [h, ha'] at ha
    exact congrArg (fun text => (Path.mk text).components) (Option.some.inj ha).symm
  rw [hleft hgives hb, hleft hgives' hb']
  rcases hplans job with ⟨hplan, hnumber⟩ | ⟨hplan, hnumber⟩
  · rcases hplans job' with ⟨hplan', _⟩ | ⟨_, hnumber'⟩
    · exact absurd (hsame (hplan.trans hplan'.symm)) hne
    · rw [hnumber, hnumber']
      decide
  · rcases hplans job' with ⟨_, hnumber'⟩ | ⟨hplan', _⟩
    · rw [hnumber, hnumber']
      decide
    · exact absurd (hsame (hplan.trans hplan'.symm)) hne

/-- On a cluster that numbers the output directories, two different directories are compared. -/
theorem numbered_outputs_differ :
    numbering.KeepsOutputsApart ⟨"wordcount", []⟩ (MatrixPoint.stages ⟨.grpc, .remoteMerge⟩)
      (.start countedState) ∧
    ∃ o t c r d, (numbering.runPoint ⟨"wordcount", []⟩ ⟨.grpc, .remoteMerge⟩).run countedState =
        (.ok o, t) ∧ c ∈ o.candidates ∧ c.verdict = .pass 0 0 ∧
      o.reference.outputDirectory = some r ∧ c.execution.outputDirectory = some d ∧
      r.components ≠ d.components := by
  have hkeeps := keepsOutputsApart_numbering ⟨"wordcount", []⟩
  obtain ⟨o, t, c, _, _, hrun, hcandidates, hpass, _⟩ :=
    run_counted .empty numbered ⟨"wordcount", []⟩ fun n ps =>
      ⟨rfl, by simp [numbered, Properties.get?_set]⟩
  have hc : c ∈ o.candidates := by simp [hcandidates]
  obtain ⟨_, r, d, hr, hd, hapart⟩ := passed_outputs_lie_apart hrun c hc 0 0 hpass
  exact ⟨hkeeps, o, t, c, r, d, hrun, hc, hpass, hr, hd, hapart hkeeps⟩

/-- Every job leaves one and the same directory. -/
def pinned (_ : Nat) (ps : Properties) : JobResult := ⟨0, ps.set Job.Keys.outputDir "/pinned"⟩

def pinning : Session Nat := counted .empty pinned

/-- On a cluster that pins the output directory an output passes that is the reference itself,
although no two runs share an identifier. -/
theorem pinned_output_is_compared_with_itself :
    (∀ i j, pinning.host.runId i = pinning.host.runId j → i = j) ∧
    ∃ o t c, (pinning.runPoint ⟨"wordcount", []⟩ ⟨.grpc, .remoteMerge⟩).run countedState =
        (.ok o, t) ∧ c ∈ o.candidates ∧ c.verdict = .pass 0 0 ∧
      o.reference.outputDirectory = some ⟨"/pinned"⟩ ∧
      c.execution.outputDirectory = some ⟨"/pinned"⟩ := by
  obtain ⟨o, t, c, ps, ps', hrun, hcandidates, hpass, hcandidate, hreference⟩ :=
    run_counted .empty pinned ⟨"wordcount", []⟩ fun n ps =>
      ⟨rfl, by simp [pinned, Properties.get?_set]⟩
  rw [pinned, Properties.get?_set, if_pos rfl] at hcandidate hreference
  have hc : c ∈ o.candidates := by simp [hcandidates]
  exact ⟨fun _ _ => Text.ofNat_injective, o, t, c, hrun, hc, hpass, hreference, hcandidate⟩

end OffloadCheck.Session
