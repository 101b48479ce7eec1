import Mathlib.Data.List.Induction
import OffloadCheck.Proofs.PropertyValues
import OffloadCheck.Proofs.Sequencing

/-! # What the runs of a matrix differ in

The properties of a run differ from those it starts from at the keys of its mode only: where it
writes, the memory it is pinned to and, for an offload run, its way to the servers. Every run starts
from the properties that the cluster has at that time, never from those of an earlier run. So where
the cluster always answers the same, nothing piles up from run to run, and two runs differ in nothing
but what their modes write. -/
namespace OffloadCheck

open Job OffloadCheck.Action

variable {σ : Type}

/-- The keys at which a run of a mode may differ from what it starts from. -/
def Mode.writes : Mode → List String
  | .baseline => Keys.outputDir :: Keys.pinned
  | .offload .. =>
    Keys.outputDir :: (Keys.pinned ++ Keys.shuffle ++ Keys.remoteMerge :: Keys.artifact ++
      Keys.servers)

/-! ## Plans -/

namespace Properties

/-- The memory of a run is that of the sizes. -/
structure Pinned (ps : Properties) (sizes : ResourceSizes) : Prop where
  mapOptions : ps.get? Keys.mapOptions =
    some ("-Xmx" ++ Text.ofNat sizes.mapMemory.toNat ++ "m")
  mapMemory : ps.get? Keys.mapMemory = some (Text.ofNat sizes.mapMemory.toNat)
  reduceMemory : ps.get? Keys.reduceMemory = some (Text.ofNat sizes.reduceMemory.toNat)
  sortBuffer : ps.get? Keys.sortBuffer = some (Text.ofNat sizes.sortBuffer.toNat)

/-- The client artifact is on the classpaths: on that of tasks it is the one element behind those of
the properties that the run was made from, on that of containers it stands in front. -/
structure Wired (ps : Properties) (settings : Settings) (base : Properties)
    (artifact : StagedArtifact) : Prop where
  files : ps.get? Keys.classpathFiles = some (String.ofList (Text.joinWith ','
    (listed (base.get? Keys.classpathFiles) ++ [artifact.sharedPath.text.toList])))
  /-- A path without a comma is one element. -/
  elements : artifact.sharedPath.text ≠ "" → ',' ∉ artifact.sharedPath.text.toList →
    listed (ps.get? Keys.classpathFiles) =
      listed (base.get? Keys.classpathFiles) ++ [artifact.sharedPath.text.toList]
  application : ps.get? Keys.applicationClasspath =
    some ("$PWD/" ++ settings.sharedArtifactDir.fileName?.getD "" ++ "/" ++ artifact.fileName ++
      "," ++ (base.get? Keys.applicationClasspath).getD defaultApplicationClasspath)

theorem pinned_pinned (ps : Properties) (sizes : ResourceSizes) :
    (ps.pinned sizes).Pinned sizes where
  mapOptions := by
    simp [pinned, setInt, get?_set, Keys.mapOptions, Keys.mapMemory, Keys.reduceMemory,
      Keys.sortBuffer]
  mapMemory := by
    simp [pinned, setInt, get?_set, Keys.mapMemory, Keys.reduceMemory, Keys.sortBuffer]
    rfl
  reduceMemory := by
    simp [pinned, setInt, get?_set, Keys.reduceMemory, Keys.sortBuffer]
    rfl
  sortBuffer := by
    simp [pinned, setInt, get?_set]
    rfl

/-- Sizes stay pinned where the keys for them are not written again. -/
theorem Pinned.congr {ps qs : Properties} {sizes : ResourceSizes} (h : ps.Pinned sizes)
    (hkeys : ∀ key ∈ Keys.pinned, qs.get? key = ps.get? key) : qs.Pinned sizes where
  mapOptions := (hkeys _ (by decide)).trans h.mapOptions
  mapMemory := (hkeys _ (by decide)).trans h.mapMemory
  reduceMemory := (hkeys _ (by decide)).trans h.reduceMemory
  sortBuffer := (hkeys _ (by decide)).trans h.sortBuffer

/-- One more element is put behind those that a list has, with a comma in between. -/
theorem extended_eq_joinWith (old : Option String) (v : String) :
    extended old v = String.ofList (Text.joinWith ',' (listed old ++ [v.toList])) := by
  cases old with
  | none => exact (String.ofList_toList).symm
  | some text =>
    by_cases htext : text = ""
    · rw [extended, if_pos htext, listed, if_pos htext]
      exact (String.ofList_toList).symm
    · rw [extended, if_neg htext, listed, if_neg htext,
        Text.joinWith_concat (Text.splitOn_ne_nil ',' text.toList), Text.joinWith_splitOn]
      refine String.toList_injective ?_
      simp

theorem get?_classpathFiles_withArtifact (ps : Properties) (artifact : StagedArtifact)
    (sharedName : String) :
    (ps.withArtifact artifact sharedName).get? Keys.classpathFiles =
      some (extended (ps.get? Keys.classpathFiles) artifact.sharedPath.text) := by
  have hne : Keys.classpathFiles ≠ Keys.applicationClasspath := by decide
  simp [withArtifact, appendList, get?_set, hne]

theorem get?_applicationClasspath_withArtifact (ps : Properties) (artifact : StagedArtifact)
    (sharedName : String) :
    (ps.withArtifact artifact sharedName).get? Keys.applicationClasspath =
      some ("$PWD/" ++ sharedName ++ "/" ++ artifact.fileName ++ "," ++
        (ps.get? Keys.applicationClasspath).getD defaultApplicationClasspath) := by
  have hne : Keys.applicationClasspath ≠ Keys.classpathFiles := by decide
  simp [withArtifact, appendList, get?_set, hne]

end Properties

namespace RunPlan

/-- The plan leaves the properties it was made from as they were outside the keys of its mode, pins
the memory to the sizes of the settings, and an offload run has the artifact of the slot added once
to the classpaths it was made from. -/
structure Controlled (plan : RunPlan) (settings : Settings) (base : Properties)
    (slot : Option StagedArtifact) : Prop where
  frame : ∀ key ∉ plan.mode.writes, plan.properties.get? key = base.get? key
  pinned : plan.properties.Pinned settings.resources
  wired : plan.mode.isOffload = true →
    ∃ artifact, slot = some artifact ∧ plan.properties.Wired settings base artifact

theorem get?_baseline (settings : Settings) (id : String) (base : Properties) {key : String}
    (h : key ≠ Keys.outputDir) :
    (baseline settings id base).properties.get? key =
      (base.pinned settings.resources).get? key := by
  rw [baseline, ofProperties, Properties.get?_set, if_neg h]

theorem controlled_baseline (settings : Settings) (id : String) (base : Properties)
    (slot : Option StagedArtifact) :
    (baseline settings id base).Controlled settings base slot where
  frame key h := by
    obtain ⟨hdir, hpinned⟩ := List.ne_and_not_mem_of_not_mem_cons h
    rw [get?_baseline _ _ _ hdir, Properties.get?_pinned _ _ hpinned]
  pinned := by
    refine (base.pinned_pinned settings.resources).congr fun key h => ?_
    have hdir : key ≠ Keys.outputDir := by
      intro heq
      subst heq
      exact absurd h (by decide)
    rw [get?_baseline _ _ _ hdir]
  wired h := by cases h

variable (settings : Settings) (quorum : String) (artifact : StagedArtifact) (id : String)
  (base : Properties) (transport : Transport) (remoteMerge remoteSpill : Bool)

/-- Before the artifact is added to the classpaths, they are what they were. -/
theorem get?_classpath_shuffle {key : String} (h : key ∈ Keys.artifact) :
    ((base.pinned settings.resources).withOffloadShuffle settings.reduceDirectMemory remoteMerge
      remoteSpill).get? key = base.get? key := by
  have hout : ∀ key ∈ Keys.artifact, key ∉ Keys.remoteMerge :: (Keys.shuffle ++ Keys.pinned) := by
    decide
  obtain ⟨hmerge, hrest⟩ := List.ne_and_not_mem_of_not_mem_cons (hout key h)
  rw [List.mem_append, not_or] at hrest
  rw [Properties.get?_withOffloadShuffle _ _ _ _ hrest.1 fun _ => hmerge,
    Properties.get?_pinned _ _ hrest.2]

/-- The keys of the artifact are read from an offload plan as they were written for it. -/
theorem get?_offload_eq_artifact {key : String} (h : key ∈ Keys.artifact) :
    (offload settings quorum artifact id base transport remoteMerge
        remoteSpill).properties.get? key =
      (((base.pinned settings.resources).withOffloadShuffle settings.reduceDirectMemory remoteMerge
        remoteSpill).withArtifact artifact
          (settings.sharedArtifactDir.fileName?.getD "")).get? key := by
  have hout : ∀ key ∈ Keys.artifact, key ≠ Keys.outputDir ∧ key ≠ Keys.transport ∧
      key ≠ Keys.coordinatorQuorum := by decide
  obtain ⟨hdir, htransport, hquorum⟩ := hout key h
  rw [offload, ofProperties, Properties.get?_set, if_neg hdir, Properties.get?_set,
    if_neg htransport, Properties.get?_set, if_neg hquorum]

theorem controlled_offload :
    (offload settings quorum artifact id base transport remoteMerge remoteSpill).Controlled
      settings base (some artifact) where
  frame key h := by
    have hkey : key ∉ Keys.outputDir :: (Keys.pinned ++ Keys.shuffle ++
      Keys.remoteMerge :: Keys.artifact ++ Keys.servers) := h
    simp only [List.mem_cons, List.mem_append, not_or] at hkey
    obtain ⟨hdir, ⟨⟨hpinned, hshuffle⟩, hmerge, hartifact⟩, hservers⟩ := hkey
    rw [get?_offload_eq_shuffle, Properties.get?_withOffloadShuffle _ _ _ _ hshuffle fun _ => hmerge,
      Properties.get?_pinned _ _ hpinned]
    simp only [List.mem_cons, List.mem_append, not_or]
    exact ⟨hdir, hartifact, hservers⟩
  pinned := by
    refine (base.pinned_pinned settings.resources).congr fun key h => ?_
    have hout : ∀ key ∈ Keys.pinned,
        key ∉ Keys.outputDir :: (Keys.artifact ++ Keys.servers) ∧ key ∉ Keys.shuffle ∧
          key ≠ Keys.remoteMerge := by decide
    obtain ⟨hrest, hshuffle, hmerge⟩ := hout key h
    rw [get?_offload_eq_shuffle _ _ _ _ _ _ _ _ _ hrest,
      Properties.get?_withOffloadShuffle _ _ _ _ hshuffle fun _ => hmerge]
  wired _ := by
    have hfiles : (offload settings quorum artifact id base transport remoteMerge
        remoteSpill).properties.get? Keys.classpathFiles = some (Properties.extended
          (base.get? Keys.classpathFiles) artifact.sharedPath.text) := by
      rw [get?_offload_eq_artifact _ _ _ _ _ _ _ _ (by decide),
        Properties.get?_classpathFiles_withArtifact, get?_classpath_shuffle _ _ _ _ (by decide)]
    refine ⟨artifact, rfl, ?_, fun hne hcomma => ?_, ?_⟩
    · rw [hfiles, Properties.extended_eq_joinWith]
    · rw [hfiles, Properties.listed_extended _ hne hcomma]
    · rw [get?_offload_eq_artifact _ _ _ _ _ _ _ _ (by decide),
        Properties.get?_applicationClasspath_withArtifact,
        get?_classpath_shuffle _ _ _ _ (by decide)]

end RunPlan

/-! ## Runs -/

namespace Session

open Progress

variable (session : Session σ) (workload : Workload)

/-- A preflight leaves the artifact that it hands out in the slot. -/
theorem staged_of_preflight {session : Session σ} {s t : State σ} {artifact : StagedArtifact}
    (h : session.preflight.run s = (.ok artifact, t)) : t.staged = some artifact := by
  obtain ⟨_, h⟩ := preflight_eq_ok h
  rcases stagedOr_eq_ok h with ⟨hheld, rfl⟩ | ⟨_, _, ht⟩
  · exact (held_eq_some_iff.1 hheld).1
  · rw [ht]

theorem controlled_of_planRun {session : Session σ} {mode : Mode} {base : Properties}
    {s t : State σ} {plan : RunPlan} (h : (session.planRun mode base).run s = (.ok plan, t)) :
    plan.mode = mode ∧ plan.Controlled session.settings base t.staged := by
  cases mode with
  | baseline =>
    have hrun := session.run_planBaseline base s
    cases hrun.symm.trans h
    exact ⟨rfl, RunPlan.controlled_baseline _ _ _ _⟩
  | offload transport remoteMerge remoteSpill =>
    have hrun := session.run_planOffload base transport remoteMerge remoteSpill s
    rcases hp : session.preflight.run s with ⟨e | artifact, u⟩
    · rw [hp] at hrun
      cases hrun.symm.trans h
    · rw [hp] at hrun
      cases hrun.symm.trans h
      refine ⟨rfl, ?_⟩
      rw [staged_of_preflight hp]
      exact RunPlan.controlled_offload _ _ _ _ _ _ _ _

/-- A stage submits nothing, or the plan that it makes. -/
theorem submitted_perform (stage : Stage) (p : Progress σ) :
    ((session.perform workload stage).run p).2.submitted = p.submitted ∨
      ∃ mode plan t, stage = .run mode ∧
        (session.planRun mode p.base).run p.state = (.ok plan, t) ∧
        ((session.perform workload stage).run p).2.submitted = p.submitted ++ [plan] := by
  have hcount (h : stage.roles = []) :
      ((session.perform workload stage).run p).2.submitted = p.submitted :=
    (Prod.mk.inj (session.keeps_count_perform workload h p)).1
  cases stage with
  | prepare | readBase | judge | report => exact .inl (hcount rfl)
  | run mode =>
    rcases session.count_run workload mode p with ⟨plan, t, hrun, hcount⟩ | ⟨e, t, _, hperform⟩
    · exact .inr ⟨mode, plan, t, rfl, hrun, (Prod.mk.inj hcount).1⟩
    · rw [hperform]
      exact .inl rfl

/-- Every run that stages submit is planned by one of them, after all earlier submissions. -/
theorem exists_planning {stages : List Stage} {p : Progress σ} {n : Nat} {plan : RunPlan}
    (hn : p.submitted.length ≤ n)
    (h : ((session.performAll workload stages).run p).2.submitted[n]? = some plan) :
    ∃ early mode late m t, stages = early ++ .run mode :: late ∧
      (session.performAll workload early).run p = (.ok (), m) ∧ m.submitted.length = n ∧
      (session.planRun mode m.base).run m.state = (.ok plan, t) := by
  -- From the end of the stages on, a run is submitted by the last one or by those before it.
  induction stages using List.reverseRecOn with
  | nil =>
    have hnone : p.submitted[n]? = none := List.getElem?_eq_none hn
    rw [performAll, run_pure, hnone] at h
    cases h
  | append_singleton stages last ih =>
    have hbefore (h : ((session.performAll workload stages).run p).2.submitted[n]? = some plan) :
        ∃ early mode late m t, stages ++ [last] = early ++ .run mode :: late ∧
          (session.performAll workload early).run p = (.ok (), m) ∧ m.submitted.length = n ∧
          (session.planRun mode m.base).run m.state = (.ok plan, t) := by
      obtain ⟨early, mode, late, m, t, rfl, hfound⟩ := ih h
      exact ⟨early, mode, late ++ [last], m, t, by simp, hfound⟩
    rw [performAll_append] at h
    rcases hrun : (session.performAll workload stages).run p with ⟨e | _, m⟩
    · rw [run_bind_of_error hrun] at h
      rw [hrun] at hbefore
      exact hbefore h
    · have hsingle : session.performAll workload [last] = session.perform workload last :=
        bind_pure _
      rw [run_bind_of_ok hrun, hsingle] at h
      rw [hrun] at hbefore
      rcases session.submitted_perform workload last m with hsame | ⟨mode, made, t, rfl, hmade, hadds⟩
      · rw [hsame] at h
        exact hbefore h
      · rw [hadds, List.getElem?_append] at h
        split at h
        · exact hbefore h
        · next hlater =>
          obtain ⟨hlt, _⟩ := List.getElem?_eq_some_iff.1 h
          have hlength : m.submitted.length = n := by
            rw [List.length_singleton] at hlt
            omega
          rw [hlength, Nat.sub_self] at h
          obtain rfl := Option.some.inj h
          exact ⟨stages, mode, [], m, t, rfl, hrun, hlength, hmade⟩

/-! ## The properties that runs start from -/

theorem keeps_base_perform {stage : Stage} (h : stage ≠ .readBase) :
    Keeps Progress.base (session.perform workload stage) := by
  have honState {α : Type} (x : Step σ α) : Keeps Progress.base (onState x) := fun _ => rfl
  cases stage with
  | prepare => exact (honState _).bind fun _ => keeps_change fun _ => rfl
  | readBase => exact absurd rfl h
  | run mode =>
    have hsubmit (plan : RunPlan) : Keeps Progress.base (session.submitRun workload plan) :=
      Keeps.bind (keeps_change fun _ => rfl) fun _ => honState _
    refine keeps_world.bind fun p => (honState _).bind fun plan => (hsubmit plan).bind fun e => ?_
    refine keeps_change fun p => ?_
    unfold finish
    split
    · rfl
    · rfl
  | judge =>
    refine keeps_world.bind fun p => ?_
    split
    · exact (honState _).bind fun verdict => keeps_change fun _ => rfl
    · exact keeps_pure ()
  | report point =>
    refine keeps_change fun p => ?_
    split
    · rfl
    · rfl

/-- Where the cluster always answers the same, stages that read what it answers leave that to start
from. -/
theorem base_of_performAll {session : Session σ} {base : Properties}
    (hbase : ∀ w, session.cluster.baseProperties w = base) {stages : List Stage}
    {p q : Progress σ} (h : (session.performAll workload stages).run p = (.ok (), q))
    (hread : .readBase ∈ stages ∨ p.base = base) : q.base = base := by
  induction stages generalizing p with
  | nil =>
    cases h
    exact hread.resolve_left List.not_mem_nil
  | cons stage stages ih =>
    obtain ⟨_, m, hstage, hstages⟩ := run_bind_eq_ok_iff.1 h
    refine ih hstages ?_
    by_cases hreads : stage = .readBase
    · subst hreads
      cases hstage
      exact .inr (hbase _)
    · have hkeeps := session.keeps_base_perform workload hreads p
      rw [hstage] at hkeeps
      refine hread.imp (fun hmem => ?_) hkeeps.trans
      exact (List.mem_cons.1 hmem).resolve_left (Ne.symm hreads)

/-- Whatever run of a matrix one looks at, the properties of the cluster were read before it. -/
theorem readBase_mem_of_stages {points : List MatrixPoint} {early late : List Stage} {mode : Mode}
    (h : points.flatMap MatrixPoint.stages = early ++ .run mode :: late) :
    .readBase ∈ early := by
  cases points with
  | nil =>
    have hlength := congrArg List.length h
    simp at hlength
  | cons point points =>
    obtain ⟨rest, hrest⟩ : ∃ rest, (point :: points).flatMap MatrixPoint.stages =
        .prepare :: .readBase :: rest := by
      obtain ⟨transport, scenario⟩ := point
      cases scenario
      · exact ⟨_, rfl⟩
      · exact ⟨_, rfl⟩
    rw [hrest] at h
    match early with
    | [] => cases h
    | [_] => cases h
    | _ :: _ :: _ =>
      cases h
      simp

/-! ## The law -/

/-- The `n`-th run that was submitted is this job, planned from the given properties. -/
structure Submission.Submits {session : Session σ} {workload : Workload} {stages : List Stage}
    {p : Progress σ} (job : session.Submission workload stages p) (base : Properties) (n : Nat)
    (plan : RunPlan) : Prop where
  mode : job.mode = plan.mode
  position : job.progress.submitted.length = n
  base : job.progress.base = base
  plan : job.plan = plan

/-- Where the cluster always answers with the same properties, every run that a matrix submits is
controlled: outside the keys of its mode its properties are those of the cluster, its memory is
pinned to the sizes of the settings, and an offload run has the artifact that its preflight handed
out added once to the classpaths of the cluster, however many runs went before it. -/
theorem submitted_runs_are_controlled (session : Session σ) {base : Properties}
    (hbase : ∀ w, session.cluster.baseProperties w = base) (workload : Workload)
    (points : List MatrixPoint) (s : State σ) :
    ∃ (result : Except Failure (List Outcome)) (q : Progress σ),
      (session.runMatrix workload points).run s = (result, q.state) ∧
      (session.recorded.runMatrix workload points).run (s.beside []) =
        (result, q.state.beside (q.requests workload)) ∧
      ∀ n plan, q.submitted[n]? = some plan →
        ∃ job : session.Submission workload (points.flatMap MatrixPoint.stages) (.start s),
          job.Submits base n plan ∧ plan.Controlled session.settings base job.state.staged := by
  rcases hrun : (session.performAll workload (points.flatMap MatrixPoint.stages)).run
    (Progress.start s) with ⟨r, q⟩
  refine ⟨r.map fun _ => q.outcomes, q, session.run_runMatrix workload points rfl hrun,
    session.run_runMatrix_recorded workload points hrun, fun n plan hplan => ?_⟩
  have hsubmitted : ((session.performAll workload (points.flatMap MatrixPoint.stages)).run
      (Progress.start s)).2.submitted[n]? = some plan := by
    rw [hrun]
    exact hplan
  obtain ⟨early, mode, late, m, t, hstages, hearly, hlength, hplanned⟩ :=
    session.exists_planning workload (Nat.zero_le n) hsubmitted
  have hread := base_of_performAll workload hbase hearly (.inl (readBase_mem_of_stages hstages))
  have hsupplies : (Progress.start s).Supplies (early ++ .run mode :: late) := by
    rw [← hstages]
    exact MatrixPoint.supplied_stages points _ _
  obtain ⟨htrail, -⟩ := trail_of_run_performAll hsupplies hearly
  obtain ⟨hmode, hcontrolled⟩ := controlled_of_planRun hplanned
  rw [hread] at hcontrolled
  exact ⟨⟨early, mode, late, m, plan, t, hstages, htrail, hplanned⟩,
    ⟨hmode.symm, hlength, hread, rfl⟩, hcontrolled⟩

/-- The properties of a cluster that has classpaths of its own and asks for other memory. -/
def heavyBase : Properties :=
  (Properties.set .empty Keys.classpathFiles "a.jar,b.jar").set Keys.mapMemory "1"
    |>.set Keys.applicationClasspath "lib/*" |>.set "queue" "nightly"

/-- A session whose jobs end well and leave no output. -/
def silent (base : Properties) : Session Nat := counted base fun _ _ => ⟨0, .empty⟩

/-- The third run that is submitted is the second offload run. It has the elements of the cluster and
the artifact on its classpaths, the memory of the settings, and the queue of the cluster. -/
theorem third_run_is_controlled :
    ∃ (result : Except Failure (List Outcome)) (q : Progress Nat) (plan : RunPlan)
      (artifact : StagedArtifact),
      ((silent heavyBase).recorded.runMatrix ⟨"wordcount", []⟩ [⟨.grpc, .standard⟩]).run
        (countedState.beside []) = (result, q.state.beside (q.requests ⟨"wordcount", []⟩)) ∧
      q.submitted[2]? = some plan ∧ plan.mode.isOffload = true ∧
      artifact.sharedPath.text = "/rss.jar/client.jar" ∧
      Properties.listed (plan.properties.get? Keys.classpathFiles) =
        ["a.jar", "b.jar", "/rss.jar/client.jar"].map String.toList ∧
      plan.properties.get? Keys.applicationClasspath =
        some ("$PWD/" ++ "rss.jar" ++ "/" ++ artifact.fileName ++ "," ++ "lib/*") ∧
      plan.properties.get? Keys.mapMemory = some "500" ∧
      plan.properties.get? "queue" = some "nightly" := by
  obtain ⟨result, q, -, hhanded, hruns⟩ := submitted_runs_are_controlled
    (silent heavyBase) (fun _ => rfl) ⟨"wordcount", []⟩ [⟨.grpc, .standard⟩] countedState
  -- What the cluster was handed tells the run from a reference run, and where its artifact lies.
  obtain ⟨properties, hrequest, htransport, hfiles⟩ : ∃ properties,
      (((silent heavyBase).recorded.runMatrix ⟨"wordcount", []⟩ [⟨.grpc, .standard⟩]).run
        (countedState.beside [])).2.world.2[2]? = some (properties, ⟨"wordcount", []⟩) ∧
      properties.get? Keys.transport = some "GRPC" ∧
      properties.get? Keys.classpathFiles = some "a.jar,b.jar,/rss.jar/client.jar" :=
    ⟨_, rfl, rfl, rfl⟩
  rw [hhanded] at hrequest
  obtain ⟨plan, hplan, hproperties⟩ : ∃ plan, q.submitted[2]? = some plan ∧
      plan.properties = properties := by
    have hmap : (q.submitted.map fun plan => (plan.properties, (⟨"wordcount", []⟩ : Workload)))[2]? =
        some (properties, ⟨"wordcount", []⟩) := hrequest
    rw [List.getElem?_map, Option.map_eq_some_iff] at hmap
    obtain ⟨plan, hplan, heq⟩ := hmap
    exact ⟨plan, hplan, (Prod.mk.inj heq).1⟩
  subst hproperties
  obtain ⟨job, -, hcontrolled⟩ := hruns 2 plan hplan
  have hoffload : plan.mode.isOffload = true := by
    cases hmode : plan.mode with
    | offload => rfl
    | baseline =>
      have hsame := hcontrolled.frame Keys.transport (by rw [hmode]; decide)
      rw [htransport] at hsame
      cases hsame
  obtain ⟨artifact, -, hwired⟩ := hcontrolled.wired hoffload
  have hpath : artifact.sharedPath.text = "/rss.jar/client.jar" := by
    have hjoined := hwired.files
    rw [hfiles] at hjoined
    have hback : "a.jar,b.jar,".toList ++ "/rss.jar/client.jar".toList =
        "a.jar,b.jar,".toList ++ artifact.sharedPath.text.toList :=
      (congrArg String.toList (Option.some.inj hjoined)).trans String.toList_ofList
    exact String.toList_injective (List.append_cancel_left hback).symm
  refine ⟨result, q, plan, artifact, hhanded, hplan, hoffload, hpath, ?_, ?_, ?_, ?_⟩
  · rw [hwired.elements (by rw [hpath]; decide) (by rw [hpath]; decide), hpath]
    rfl
  · exact hwired.application
  · exact hcontrolled.pinned.mapMemory
  · have hbaseline : "queue" ∉ Mode.baseline.writes := by decide
    have hwrites : "queue" ∉ (Mode.offload .grpc false false).writes := by decide
    refine hcontrolled.frame "queue" ?_
    cases plan.mode with
    | baseline => exact hbaseline
    | offload => exact hwrites

end Session
end OffloadCheck
