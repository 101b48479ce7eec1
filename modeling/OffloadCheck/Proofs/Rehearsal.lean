import OffloadCheck.Proofs.Preconditions
import OffloadCheck.Proofs.Trails

/-! # What rehearsed runs come to

The jobs of a rehearsed cluster write part files into a memory tree. A run into a vacant directory
leaves there the files of its role, and disturbs neither the outputs of runs of other roles nor the
staged artifact; so all outputs of a sequence are still as they were written when they are compared,
and the comparison passes exactly when the files of the roles are the same. -/
namespace OffloadCheck.Session

open Job Memory

variable {σ : Type} {session : Session σ} {artifact : StagedArtifact} {s t : State σ}

/-! ## Runs -/

/-- A plan from properties that leave the role open describes the role of its mode. -/
theorem Ready.run_planRun (h : session.Ready artifact s) {base : Properties}
    (hcollector : base.get? Keys.outputCollector = none)
    (hmerge : base.get? Keys.remoteMerge = none) (mode : Mode) :
    ∃ plan, (session.planRun mode base).run s = (.ok plan, { s with planned := s.planned + 1 }) ∧
      plan.outputDirectory = RunPlan.outputFor session.settings mode.role
        (session.host.runId s.planned) ∧
      plan.properties.role = mode.role ∧
      plan.properties.get? Keys.outputDir = some plan.outputDirectory.text := by
  cases mode with
  | baseline =>
    refine ⟨_, session.run_planBaseline base s, rfl, ?_, RunPlan.outputDir_ofProperties _ _ _ _ _⟩
    rw [RunPlan.role_baseline, Properties.role, hcollector]
    rfl
  | offload transport remoteMerge remoteSpill =>
    have hrun := session.run_planOffload base transport remoteMerge remoteSpill s
    rw [h.run_preflight] at hrun
    refine ⟨_, hrun, rfl, ?_, RunPlan.outputDir_ofProperties _ _ _ _ _⟩
    have hswitch : base.getSwitch? Keys.remoteMerge = none := by
      rw [Properties.getSwitch?, hmerge]
      rfl
    rw [RunPlan.role_offload, hswitch]
    cases remoteMerge <;> rfl

theorem run_execute {workload : Workload} {plan : RunPlan} {properties : Properties} {w : σ}
    (h : (session.cluster.submit plan.properties workload).run s.world =
      (.ok ⟨0, properties⟩, w)) :
    (session.execute workload plan).run s =
      (.ok ⟨plan.role, (properties.get? Keys.outputDir).map Path.mk, 0, session.host.now s.world,
        session.host.now w⟩, { s with world := w }) := by
  rw [run_execute_of_ok h, if_pos rfl]
  rfl

/-- What changes leaves the preconditions in force. -/
theorem Rehearsal.ready_of_ready (rehearsal : session.Rehearsal) (h : session.Ready artifact s)
    (hclosed : t.closed = s.closed) (hstaged : t.staged = s.staged)
    (hpresent : session.clusterFs.isPresent artifact.sharedPath t.world = true) :
    session.Ready artifact t := by
  have hset : (fun name => !session.host.isSet name t.world) =
      fun name => !session.host.isSet name s.world := by
    funext name
    rw [rehearsal.environment name t.world s.world]
  exact ⟨hclosed.trans h.opened, hset ▸ h.environment, hstaged.trans h.staged, hpresent⟩

/-- What a run leaves that wrote the files of its role into a directory. -/
structure Rehearsal.Leaves (rehearsal : session.Rehearsal) (artifact : StagedArtifact) (role : Role)
    (dir : Path) (s t : State σ) (execution : Execution) : Prop where
  directory : execution.outputDirectory = some dir
  output : HasOutput (rehearsal.memory.get t.world) dir (rehearsal.script.contents role)
  grows : Grows dir.components (rehearsal.memory.get s.world) (rehearsal.memory.get t.world)
  ready : session.Ready artifact t
  planned : t.planned = s.planned + 1

/-- A run into a vacant directory ends well and leaves the files of its role there. -/
theorem Rehearsal.exists_run (rehearsal : session.Rehearsal) (hscript : rehearsal.script.Faithful)
    (h : session.Ready artifact s) (workload : Workload) (mode : Mode)
    (hvacant : Vacant (rehearsal.memory.get s.world)
      (RunPlan.outputFor session.settings mode.role (session.host.runId s.planned)).components) :
    ∃ execution t,
      (session.planRun mode rehearsal.script.base >>= session.execute workload).run s =
        (.ok execution, t) ∧
      rehearsal.Leaves artifact mode.role
        (RunPlan.outputFor session.settings mode.role (session.host.runId s.planned)) s t
        execution := by
  obtain ⟨plan, hplan, hdir, hrole, hproperties⟩ :=
    h.run_planRun hscript.collector hscript.remoteMerge mode
  rw [← hdir] at hvacant ⊢
  have hne : plan.outputDirectory.components ≠ [] := by
    rw [hdir]
    exact RunPlan.outputFor_ne_nil _ _ _
  obtain ⟨w, hsubmit, houtput, hgrows⟩ := hscript.run_submit rehearsal.memory rehearsal.memory_note
    workload hproperties hne hvacant
  rw [← rehearsal.clusterFs, ← rehearsal.cluster] at hsubmit
  rw [hrole] at houtput
  have hpresent : session.clusterFs.isPresent artifact.sharedPath w = true := by
    have hbefore := h.present
    rw [rehearsal.clusterFs] at hbefore ⊢
    exact isPresent_grows rehearsal.memory hbefore hgrows
  have hexecute := @run_execute σ session { s with planned := s.planned + 1 } workload plan _ w
    hsubmit
  refine ⟨_, _, (Action.run_bind_of_ok hplan).trans hexecute, ?_, houtput, hgrows,
    rehearsal.ready_of_ready h rfl rfl hpresent, rfl⟩
  simp [hproperties]

/-! ## Comparisons -/

/-- A comparison passes when both outputs hold the same files, else it ends the sequence. -/
theorem Rehearsal.run_judge (rehearsal : session.Rehearsal) (h : session.Ready artifact s)
    {reference candidate : Execution} {r c : Path} {R C : SortedMap String Bytes}
    (hreference : reference.outputDirectory = some r)
    (hcandidate : candidate.outputDirectory = some c)
    (hr : HasOutput (rehearsal.memory.get s.world) r R)
    (hc : HasOutput (rehearsal.memory.get s.world) c C) :
    ∃ t, Same (rehearsal.memory.get s.world) (rehearsal.memory.get t.world) ∧
      session.Ready artifact t ∧ t.planned = s.planned ∧
      ((C = R ∧ (session.judge reference candidate).run s =
          (.ok ⟨candidate, .pass R.size (bytesIn R)⟩, t)) ∨
        C ≠ R ∧ ∃ mismatch, (session.judge reference candidate).run s =
          (.error (.mismatch mismatch), t)) := by
  have hshows := shows_fileSystem rehearsal.memory (rehearsal.memory.get s.world)
  have hsame := same_compare rehearsal.memory (some r) (some c) s.world
  rw [← rehearsal.clusterFs] at hshows hsame
  rcases hcompare : (session.clusterFs.compare (some r) (some c)).run s.world with ⟨result, w⟩
  rw [hcompare] at hsame
  have hready : session.Ready artifact { s with world := w } := by
    refine rehearsal.ready_of_ready h rfl rfl ?_
    have hbefore := h.present
    rw [rehearsal.clusterFs] at hbefore ⊢
    exact (isPresent_same rehearsal.memory hsame).trans hbefore
  refine ⟨{ s with world := w }, hsame, hready, rfl, ?_⟩
  have hresult {found : Except StorageError Verdict}
      (hf : (rehearsal.memory.get s.world).answers.Finding (some r) (some c) found) :
      (session.clusterFs.compare reference.outputDirectory candidate.outputDirectory).run s.world =
        (found, w) := by
    have hfst := hshows.compare_of_finding ⟨rfl, rfl⟩ hf
    rw [hreference, hcandidate, hcompare]
    rw [hcompare] at hfst
    rw [← hfst]
  by_cases hCR : C = R
  · subst hCR
    have hpass := hresult (hr.finding_of_same hc)
    exact .inl ⟨rfl, run_judge_of_ne_fail hpass (by simp)⟩
  · obtain ⟨mismatch, hf⟩ := hr.finding_of_ne hc (Ne.symm hCR)
    exact .inr ⟨hCR, mismatch, run_judge_of_fail (hresult hf)⟩

/-! ## Sequences of runs -/

theorem Rehearsal.run_observe_base (rehearsal : session.Rehearsal) (s : State σ) :
    (observe session.cluster.baseProperties).run s = (.ok rehearsal.script.base, s) := by
  have hbase : session.cluster.baseProperties s.world = rehearsal.script.base := by
    rw [rehearsal.cluster]
    rfl
  rw [← hbase]
  rfl

/-- The directories of the runs of a scenario hold nothing. -/
def Rehearsal.Unused (rehearsal : session.Rehearsal) (scenario : Scenario) (s : State σ) : Prop :=
  ∀ dir ∈ session.outputsFrom s.planned scenario.roles,
    Vacant (rehearsal.memory.get s.world) dir.components

/-- The verdict on outputs that both hold the given files. -/
def passed (files : SortedMap String Bytes) : Verdict := .pass files.size (bytesIn files)

/-- An offload run into a vacant directory apart from the output of the reference, and its
comparison with the reference. -/
theorem Rehearsal.exists_judged (rehearsal : session.Rehearsal)
    (hscript : rehearsal.script.Faithful) (h : session.Ready artifact s) (workload : Workload)
    (transport : Transport)
    (remoteMerge remoteSpill : Bool) {reference : Execution} {r dir : Path}
    {R : SortedMap String Bytes} (hreference : reference.outputDirectory = some r)
    (hr : HasOutput (rehearsal.memory.get s.world) r R)
    (hdir : dir = RunPlan.outputFor session.settings (Role.ofSwitches remoteMerge remoteSpill)
      (session.host.runId s.planned))
    (hapart : Apart r.components dir.components)
    (hvacant : Vacant (rehearsal.memory.get s.world) dir.components) :
    ∃ candidate u t,
      (session.runOffload workload rehearsal.script.base transport remoteMerge remoteSpill).run s =
        (.ok candidate, u) ∧
      session.Ready artifact t ∧ t.planned = s.planned + 1 ∧
      HasOutput (rehearsal.memory.get t.world) r R ∧
      Grows dir.components (rehearsal.memory.get s.world) (rehearsal.memory.get t.world) ∧
      ((rehearsal.script.contents (Role.ofSwitches remoteMerge remoteSpill) = R ∧
          (session.judge reference candidate).run u = (.ok ⟨candidate, passed R⟩, t)) ∨
        rehearsal.script.contents (Role.ofSwitches remoteMerge remoteSpill) ≠ R ∧
          ∃ mismatch, (session.judge reference candidate).run u =
            (.error (.mismatch mismatch), t)) := by
  subst hdir
  obtain ⟨candidate, u, hrun, hleaves⟩ := rehearsal.exists_run hscript h workload
    (.offload transport remoteMerge remoteSpill) hvacant
  have hr' := hr.grows hleaves.grows hapart
  obtain ⟨t, hsame, hready, hplanned, hjudge⟩ := rehearsal.run_judge hleaves.ready hreference
    hleaves.directory hr' hleaves.output
  exact ⟨candidate, u, t, hrun, hready, hplanned.trans hleaves.planned, hr'.same hsame,
    hleaves.grows.trans (hsame.grows _), hjudge⟩

/-- What a sequence comes to whose candidates all hold the files of the reference exactly when
`same`: it ends well with nothing but passes, or it ends with a mismatch. -/
inductive Decided (same : Prop) (files : SortedMap String Bytes) :
    Except Failure Outcome × State σ → Prop
  | passed {o u} : same → (∀ c ∈ o.candidates, c.verdict = passed files) →
      Decided same files (.ok o, u)
  | mismatched {mismatch u} : ¬ same → Decided same files (.error (.mismatch mismatch), u)

theorem Rehearsal.run_runStandard (rehearsal : session.Rehearsal)
    (hscript : rehearsal.script.Faithful) (hpreflight : session.preflight.run s = (.ok artifact, t))
    (hunused : rehearsal.Unused .standard t) (workload : Workload) (transport : Transport) :
    Decided
      (rehearsal.script.contents .standardOffload = rehearsal.script.contents .reference ∧
        rehearsal.script.contents .remoteSpillOffload = rehearsal.script.contents .reference)
      (rehearsal.script.contents .reference)
      ((session.runStandard workload transport).run s) := by
  have hready := rehearsal.ready_of_preflight hpreflight
  have hdiscard := Action.run_discard_of_ok hpreflight
  obtain ⟨hvacant₁, hvacant₂, hvacant₃⟩ :
      Vacant (rehearsal.memory.get t.world) (RunPlan.outputFor session.settings .reference
        (session.host.runId t.planned)).components ∧
      Vacant (rehearsal.memory.get t.world) (RunPlan.outputFor session.settings .standardOffload
        (session.host.runId (t.planned + 1))).components ∧
      Vacant (rehearsal.memory.get t.world) (RunPlan.outputFor session.settings .remoteSpillOffload
        (session.host.runId (t.planned + 1 + 1))).components := by
    simpa [Unused, outputsFrom, Scenario.roles] using hunused
  unfold runStandard
  rw [Action.run_bind_of_ok hdiscard, Action.run_bind_of_ok (rehearsal.run_observe_base t)]
  obtain ⟨reference, t₁, hrun₁, hleaves₁⟩ :=
    rehearsal.exists_run hscript hready workload .baseline hvacant₁
  have hplanned₁ := hleaves₁.planned
  rw [← hplanned₁] at hvacant₂ hvacant₃
  -- The directories of the offload runs are still vacant after the reference run.
  replace hvacant₂ := hvacant₂.grows hleaves₁.grows
    (RunPlan.apart_outputFor session.settings (by decide) _ _)
  replace hvacant₃ := hvacant₃.grows hleaves₁.grows
    (RunPlan.apart_outputFor session.settings (by decide) _ _)
  obtain ⟨standard, u₂, t₂, hrun₂, hready₂, hplanned₂, houtput₂, hgrows₂, hjudge₂⟩ :=
    rehearsal.exists_judged hscript hleaves₁.ready workload transport false false
      hleaves₁.directory hleaves₁.output rfl
      (RunPlan.apart_outputFor session.settings (by decide) _ _) hvacant₂
  have hreference : (session.runReference workload rehearsal.script.base).run t =
      (.ok reference, t₁) := hrun₁
  rw [Action.run_bind_of_ok hreference, Action.run_bind_of_ok hrun₂]
  rcases hjudge₂ with ⟨hsame₂, hjudge₂⟩ | ⟨hne₂, mismatch, hjudge₂⟩
  · rw [Action.run_bind_of_ok hjudge₂, Action.run_bind_of_ok (rehearsal.run_observe_base t₂)]
    rw [← hplanned₂] at hvacant₃
    replace hvacant₃ := hvacant₃.grows hgrows₂
      (RunPlan.apart_outputFor session.settings (by decide) _ _)
    obtain ⟨spill, u₃, t₃, hrun₃, _, _, _, _, hjudge₃⟩ :=
      rehearsal.exists_judged hscript hready₂ workload transport false true hleaves₁.directory
        houtput₂ rfl (RunPlan.apart_outputFor session.settings (by decide) _ _) hvacant₃
    rw [Action.run_bind_of_ok hrun₃]
    rcases hjudge₃ with ⟨hsame₃, hjudge₃⟩ | ⟨hne₃, mismatch, hjudge₃⟩
    · rw [Action.run_bind_of_ok hjudge₃]
      refine .passed ⟨hsame₂, hsame₃⟩ ?_
      intro c hc
      simp only [List.mem_cons, List.not_mem_nil, or_false] at hc
      rcases hc with rfl | rfl
      · rfl
      · rfl
    · rw [Action.run_bind_of_error hjudge₃]
      exact .mismatched fun hsame => hne₃ hsame.2
  · rw [Action.run_bind_of_error hjudge₂]
    exact .mismatched fun hsame => hne₂ hsame.1

theorem Rehearsal.run_runRemoteMerge (rehearsal : session.Rehearsal)
    (hscript : rehearsal.script.Faithful) (hpreflight : session.preflight.run s = (.ok artifact, t))
    (hunused : rehearsal.Unused .remoteMerge t) (workload : Workload) (transport : Transport) :
    Decided
      (rehearsal.script.contents .remoteMergeOffload = rehearsal.script.contents .reference)
      (rehearsal.script.contents .reference)
      ((session.runRemoteMerge workload transport).run s) := by
  have hready := rehearsal.ready_of_preflight hpreflight
  have hdiscard := Action.run_discard_of_ok hpreflight
  obtain ⟨hvacant₁, hvacant₂⟩ :
      Vacant (rehearsal.memory.get t.world) (RunPlan.outputFor session.settings .remoteMergeOffload
        (session.host.runId t.planned)).components ∧
      Vacant (rehearsal.memory.get t.world) (RunPlan.outputFor session.settings .reference
        (session.host.runId (t.planned + 1))).components := by
    simpa [Unused, outputsFrom, Scenario.roles] using hunused
  unfold runRemoteMerge
  rw [Action.run_bind_of_ok hdiscard, Action.run_bind_of_ok (rehearsal.run_observe_base t)]
  obtain ⟨merged, t₁, hrun₁, hleaves₁⟩ :=
    rehearsal.exists_run hscript hready workload (.offload transport true false) hvacant₁
  have hplanned₁ := hleaves₁.planned
  rw [← hplanned₁] at hvacant₂
  have hroles : Role.reference ≠ .remoteMergeOffload := by decide
  replace hvacant₂ := hvacant₂.grows hleaves₁.grows
    (RunPlan.apart_outputFor session.settings hroles _ _)
  obtain ⟨reference, t₂, hrun₂, hleaves₂⟩ :=
    rehearsal.exists_run hscript hleaves₁.ready workload .baseline hvacant₂
  -- The output of the offload run is still there after the reference run.
  have hmerged := hleaves₁.output.grows hleaves₂.grows
    (RunPlan.apart_outputFor session.settings hroles.symm _ _)
  obtain ⟨t₃, _, _, _, hjudge⟩ := rehearsal.run_judge hleaves₂.ready hleaves₂.directory
    hleaves₁.directory hleaves₂.output hmerged
  have hoffload : (session.runOffload workload rehearsal.script.base transport true false).run t =
      (.ok merged, t₁) := hrun₁
  have hreference : (session.runReference workload rehearsal.script.base).run t₁ =
      (.ok reference, t₂) := hrun₂
  rw [Action.run_bind_of_ok hoffload, Action.run_bind_of_ok (rehearsal.run_observe_base t₁),
    Action.run_bind_of_ok hreference]
  rcases hjudge with ⟨hsame, hjudge⟩ | ⟨hne, mismatch, hjudge⟩
  · rw [Action.run_bind_of_ok hjudge]
    refine .passed hsame ?_
    intro c hc
    obtain rfl := List.mem_singleton.1 hc
    rfl
  · rw [Action.run_bind_of_error hjudge]
    exact .mismatched hne

theorem Decided.summary {same : Prop} {files : SortedMap String Bytes}
    {result : Except Failure Outcome × State σ} (h : Decided same files result) :
    ((∃ o u, result = (.ok o, u)) ↔ same) ∧
      (∀ o u, result = (.ok o, u) →
        ∀ c ∈ o.candidates, c.verdict = .pass files.size (bytesIn files)) ∧
      ∀ e u, result = (.error e, u) → e.isMismatch = true := by
  cases h with
  | passed hsame hpassed =>
    refine ⟨⟨fun _ => hsame, fun _ => ⟨_, _, rfl⟩⟩, ?_, ?_⟩
    · intro o u h
      cases h
      exact hpassed
    · intro e u h
      cases h
  | mismatched hne =>
    refine ⟨⟨?_, fun hsame => absurd hsame hne⟩, ?_, ?_⟩
    · intro h
      obtain ⟨o, u, ⟨⟩⟩ := h
    · intro o u h
      cases h
    · intro e u h
      cases h
      rfl

/-- Let the preflight of a rehearsed session succeed and leave the directories of the runs unused.
Then a sequence of runs ends well exactly when the runs of its offload roles leave the same files as
those of the reference; every candidate then passes with their number and their summed length, and
otherwise the sequence ends with a mismatch. -/
theorem rehearsed_runs_ok_iff (rehearsal : session.Rehearsal)
    (hscript : rehearsal.script.Faithful) (hpreflight : session.preflight.run s = (.ok artifact, t))
    (workload : Workload) (transport : Transport) :
    let files := rehearsal.script.contents
    let standard := (session.runStandard workload transport).run s
    let remoteMerge := (session.runRemoteMerge workload transport).run s
    (rehearsal.Unused .standard t →
      ((∃ o u, standard = (.ok o, u)) ↔
        files .standardOffload = files .reference ∧
          files .remoteSpillOffload = files .reference) ∧
      (∀ o u, standard = (.ok o, u) → ∀ c ∈ o.candidates,
        c.verdict = .pass (files .reference).size (bytesIn (files .reference))) ∧
      ∀ e u, standard = (.error e, u) → e.isMismatch = true) ∧
    (rehearsal.Unused .remoteMerge t →
      ((∃ o u, remoteMerge = (.ok o, u)) ↔ files .remoteMergeOffload = files .reference) ∧
      (∀ o u, remoteMerge = (.ok o, u) → ∀ c ∈ o.candidates,
        c.verdict = .pass (files .reference).size (bytesIn (files .reference))) ∧
      ∀ e u, remoteMerge = (.error e, u) → e.isMismatch = true) := by
  intro files standard remoteMerge
  constructor
  · intro hunused
    exact (rehearsal.run_runStandard hscript hpreflight hunused workload transport).summary
  · intro hunused
    exact (rehearsal.run_runRemoteMerge hscript hpreflight hunused workload transport).summary

/-! ## A trial -/

/-- Two parts that standard offload runs write in the other order, and of which runs merged on the
servers lose the last one. -/
def trialScript : JobScript where
  base := .empty
  parts := [⟨"part-r-00000", [1, 2]⟩, ⟨"part-r-00001", []⟩]
  writesMarker := true
  writesOutput := true
  exitCode? _ := none
  altered role parts :=
    match role with
    | .standardOffload => parts.reverse
    | .remoteMergeOffload => parts.dropLast
    | _ => parts

theorem faithful_trialScript : trialScript.Faithful where
  marker := rfl
  output := rfl
  exits _ := rfl
  collector := rfl
  remoteMerge := rfl
  names role := by cases role <;> decide

/-- The memory tree of the trial. -/
def trialMemory : Part (Memory × ClusterLog) Memory :=
  ⟨Prod.fst, fun m s => (m, s.2), fun _ _ => rfl, fun _ => rfl, fun _ _ _ => rfl⟩

/-- A session on the memory tree, whose cluster follows the script. -/
def trial : Session (Memory × ClusterLog) where
  id := "trial"
  settings := Settings.default
  host := ⟨fun _ _ => true, fun _ => default, Text.ofNat⟩
  cluster := trialScript.cluster (trialMemory.fileSystem fileSystem) fun f s => (s.1, f s.2)
  servers := ⟨fun _ => pure (), fun _ => pure (), fun _ => "host:1", pure ()⟩
  clusterFs := trialMemory.fileSystem fileSystem
  buildFs := trialMemory.fileSystem fileSystem
  quorum := "host:1"

def trialRehearsal : trial.Rehearsal where
  script := trialScript
  memory := trialMemory
  note f s := (s.1, f s.2)
  memory_note _ _ := rfl
  clusterFs := rfl
  cluster := rfl
  environment _ _ _ := rfl

/-- The trial with its client artifact staged. -/
def trialState : State (Memory × ClusterLog) where
  world := (Memory.empty.addFile ⟨"/rss.jar/client.jar"⟩ [], .empty)
  staged := some ⟨"client.jar", ⟨"/rss.jar/client.jar"⟩⟩
  closed := false
  planned := 0

theorem run_preflight_trial :
    trial.preflight.run trialState = (.ok ⟨"client.jar", ⟨"/rss.jar/client.jar"⟩⟩, trialState) :=
  Ready.run_preflight ⟨rfl, rfl, rfl, by decide⟩

theorem unused_trial (scenario : Scenario) : trialRehearsal.Unused scenario trialState := by
  intro dir hdir
  obtain ⟨⟨role, n⟩, _, rfl⟩ := List.mem_map.1 hdir
  have hempty : Vacant Memory.empty (RunPlan.outputFor Settings.default role
      (Text.ofNat n)).components := fun l => ⟨rfl, rfl⟩
  have hputs := puts_addFile Memory.empty ⟨"/rss.jar/client.jar"⟩ []
  rw [← List.append_nil (Path.components _)] at hputs
  refine hempty.grows hputs.grows ?_
  obtain ⟨word, below, hcomponents⟩ :=
    RunPlan.components_outputFor Settings.default role (Text.ofNat n)
  rw [hcomponents]
  have hroot : Settings.default.outputRoot.components =
      [.root] ++ .normal "tmp" :: [.normal "TestMRJobs"] := by decide
  have hartifact : Path.components ⟨"/rss.jar/client.jar"⟩ =
      [.root] ++ .normal "rss.jar" :: [.normal "client.jar"] := by decide
  have hne : Component.normal "tmp" ≠ .normal "rss.jar" := by decide
  rw [hroot, hartifact, List.append_assoc]
  exact Apart.of_ne [.root] hne _ _

/-- In the trial the standard sequence ends well, and the lost part is found out. -/
theorem trial_finds_lost_part :
    (∃ o u, (trial.runStandard ⟨"wordcount", []⟩ .grpc).run trialState = (.ok o, u)) ∧
      ¬ ∃ o u, (trial.runRemoteMerge ⟨"wordcount", []⟩ .grpc).run trialState = (.ok o, u) := by
  obtain ⟨hstandard, hmerge⟩ := rehearsed_runs_ok_iff trialRehearsal faithful_trialScript
    run_preflight_trial ⟨"wordcount", []⟩ .grpc
  constructor
  · exact (hstandard (unused_trial .standard)).1.2 (by decide)
  · intro hok
    have hsame := (hmerge (unused_trial .remoteMerge)).1.1 hok
    exact absurd hsame (by decide)

end OffloadCheck.Session
