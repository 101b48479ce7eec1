import OffloadCheck.Proofs.Rehearsal
import OffloadCheck.Proofs.Recording
import OffloadCheck.Proofs.Stores

/-! # What a matrix does, in order

A watched session notes when it begins to copy the artifact out of the build and when it hands a job
to its cluster; otherwise it does what the session does. Once the preconditions of a session with a
rehearsed cluster are met they stay met, whatever its jobs write, because nothing that is present on
its storage disappears. So the artifact is copied by the first preflight of a matrix or not at all,
every submission comes later, and after the first preflight no precondition can fail. -/
namespace OffloadCheck

open OffloadCheck.Action

variable {σ α : Type}

/-- What a session does to its build and its cluster. -/
inductive Activity
  /-- A copy of the artifact begins. -/
  | copy (source : Path)
  /-- A job is handed to the cluster. -/
  | submission (request : Request)

/-- What is copied, if anything is. -/
def Activity.source? : Activity → Option Path
  | .copy source => some source
  | .submission _ => none

/-- The world with one more activity noted. -/
def Activity.note (activity : Activity) (s : σ × List Activity) : σ × List Activity :=
  (s.1, s.2 ++ [activity])

/-- A precondition is not met. -/
def Failure.IsConfiguration (e : Failure) : Prop := ∃ reason, e = .configuration reason

namespace Session

/-- The session that notes its activities. -/
def watched (session : Session σ) : Session (σ × List Activity) :=
  { session.beside with
    cluster := { session.cluster.beside with
      submit := fun properties workload => do
        Action.change (Activity.submission (properties, workload)).note
        session.cluster.beside.submit properties workload }
    buildFs := { session.buildFs.beside with
      openFile := fun path => do
        Action.change (Activity.copy path).note
        session.buildFs.beside.openFile path } }

end Session

/-! ## Notes change nothing else -/

section Projections

variable {κ ε : Type}

theorem follows_fst (x : Action σ ε α) :
    Follows Prod.fst Eq (x.within Prod.fst fun w (s : σ × κ) => (w, s.2)) x := by
  intro s
  rw [run_within]
  rcases x.run s.1 with ⟨e | a, w⟩
  · exact @Agree.error _ _ _ _ _ _ _ e (w, s.2)
  · exact @Agree.ok _ _ _ _ _ _ _ a a (w, s.2) rfl

theorem Action.Follows.after_change {τ β : Type} {f : σ → τ} {R : α → β → Prop} {g : σ → σ}
    {x : Action σ ε α} {y : Action τ ε β} (h : Follows f R x y) (hg : ∀ s, f (g s) = f s) :
    Follows f R (do Action.change g; x) y := by
  intro s
  rw [run_bind_of_ok (run_change g s), ← hg s]
  exact h (g s)

theorem FileSystem.follows_fst (fs : FileSystem σ) :
    fs.beside.Follows (Prod.fst : σ × κ → σ) fs where
  list p := OffloadCheck.follows_fst _
  openFile p := by
    have hbind : fs.openFile p = fs.openFile p >>= pure := (bind_pure _).symm
    rw [hbind]
    refine (OffloadCheck.follows_fst (fs.openFile p)).bind ?_
    intro g _ hg
    subst hg
    exact follows_pure fun s => rfl
  create p := by
    have hbind : fs.create p = fs.create p >>= pure := (bind_pure _).symm
    rw [hbind]
    refine (OffloadCheck.follows_fst (fs.create p)).bind ?_
    intro v _ hv
    subst hv
    exact follows_pure ⟨rfl, fun i bytes => OffloadCheck.follows_fst _⟩
  isPresent p s := rfl

end Projections

namespace Session

theorem mirrored_watched (session : Session σ) : session.watched.Mirrored Prod.fst session where
  id := rfl
  settings := rfl
  quorum := rfl
  isSet _ _ := rfl
  now _ := rfl
  runId := rfl
  baseProperties _ := rfl
  clusterFs := session.clusterFs.follows_fst
  buildFs :=
    { session.buildFs.follows_fst with
      openFile := fun p => (session.buildFs.follows_fst.openFile p).after_change fun _ => rfl }

/-- A watched matrix comes to what the matrix itself comes to. -/
theorem run_matrix_watched (session : Session σ) (workload : Workload) (points : List MatrixPoint)
    (s : State (σ × List Activity)) :
    (session.runMatrix workload points).run (s.map Prod.fst) =
      (((session.watched.runMatrix workload points).run s).1,
        ((session.watched.runMatrix workload points).run s).2.map Prod.fst) :=
  (session.mirrored_watched.runMatrix
    (fun _ _ => (follows_fst _).after_change fun _ => rfl) workload points).run_eq s

/-- Staging begins at most one copy. -/
theorem noted_stageArtifact (session : Session σ) (s : σ × List Activity) :
    ∃ copies : List Path, copies.length ≤ 1 ∧
      (session.watched.stageArtifact.run s).2.2 = s.2 ++ copies.map .copy := by
  obtain ⟨w, log⟩ := s
  have hlocate := (session.mirrored_beside (k := log)).locateArtifact.run_eq w
  rcases hname : session.locateArtifact.run w with ⟨e | name, w'⟩
  · rw [hname] at hlocate
    have hstage : session.watched.stageArtifact.run (w, log) = (.error e, (w', log)) :=
      run_bind_of_error hlocate
    exact ⟨[], Nat.zero_le 1, by rw [hstage, List.map_nil, List.append_nil]⟩
  · rw [hname] at hlocate
    -- The copy is noted, and then made beside the notes.
    let src := session.settings.artifactDir.join name
    let shared := session.settings.sharedArtifactDir.join name
    have htransfer := ((session.buildFs.follows_beside (log ++ [.copy src])).transfer
      (session.clusterFs.follows_beside _) src shared).run_eq w'
    have hcopy : (session.watched.buildFs.transfer src session.watched.clusterFs shared).run
        (w', log) = (session.buildFs.beside.transfer src session.clusterFs.beside shared).run
          (w', log ++ [.copy src]) := rfl
    rw [htransfer] at hcopy
    have hstage : session.watched.stageArtifact.run (w, log) =
        (do
          discard ((session.watched.buildFs.transfer src session.watched.clusterFs
            shared).mapError Failure.storage)
          return ⟨name, shared⟩ : Action _ Failure StagedArtifact).run (w', log) :=
      run_bind_of_ok hlocate
    refine ⟨[src], Nat.le_refl 1, ?_⟩
    rw [hstage]
    rcases hrun : (session.buildFs.transfer src session.clusterFs shared).run w' with ⟨e | n, v⟩
    · rw [hrun] at hcopy
      rw [run_bind_of_error (run_discard_of_error (run_mapError_of_error hcopy Failure.storage))]
      rfl
    · rw [hrun] at hcopy
      rw [run_bind_of_ok (run_discard_of_ok (run_mapError_of_ok hcopy Failure.storage))]
      rfl

/-- So does a preflight. -/
theorem noted_preflight (session : Session σ) (s : State (σ × List Activity)) :
    ∃ copies : List Path, copies.length ≤ 1 ∧
      (session.watched.preflight.run s).2.world.2 = s.world.2 ++ copies.map .copy := by
  rcases session.watched.world_preflight s with hworld | hworld
  · exact ⟨[], Nat.zero_le 1, by rw [hworld, List.map_nil, List.append_nil]⟩
  · rw [hworld]
    exact session.noted_stageArtifact s.world

end Session

/-! ## Rehearsed jobs -/

namespace JobScript

variable {script : JobScript} {fs : FileSystem σ} {P : σ → Prop}

theorem sustains_writeParts (h : fs.Sustains P) (dir : Path) (parts : List PartFile) :
    Sustains P (writeParts fs dir parts) := by
  induction parts with
  | nil => exact preserves_pure ()
  | cons part parts ih => exact (h.putFile _ _).bind fun _ => ih

theorem sustains_writeOutput (h : fs.Sustains P) (role : Role) (dir : Path) :
    Sustains P (script.writeOutput fs role dir) := by
  refine (sustains_writeParts h dir _).bind fun _ => ?_
  split
  · exact h.putFile _ _
  · exact preserves_pure ()

/-- A rehearsed job keeps what its filesystem keeps, and its failures are not those of a
precondition. -/
theorem preserves_submit (h : fs.Sustains P) {note : (ClusterLog → ClusterLog) → σ → σ}
    (hnote : ∀ f s, P s → P (note f s)) (properties : Properties) (workload : Workload) :
    Preserves P (fun e => ¬ e.IsConfiguration)
      ((script.cluster fs note).submit properties workload) := by
  refine (preserves_change (hnote _)).bind fun _ => ?_
  unfold perform
  split
  · exact preserves_pure _
  · split
    · split
      · refine preserves_fail ?_
        rintro ⟨_, ⟨⟩⟩
      · refine Preserves.bind ?_ fun _ => preserves_pure _
        refine (sustains_writeOutput h _ _).mapError ?_
        rintro e _ ⟨_, ⟨⟩⟩
    · exact preserves_pure _

end JobScript

/-! ## Sessions on a store -/

namespace Session

/-- The session's filesystem is a memory tree or a disk, a part of the world that the log of the
cluster is no part of; its cluster is rehearsed on it, and its environment stays as it is. -/
structure Bench (session : Session σ) where
  script : JobScript
  store : Store σ
  note : (ClusterLog → ClusterLog) → σ → σ
  store_note : ∀ f s, store.Untouched s (note f s)
  clusterFs : session.clusterFs = store.fileSystem
  cluster : session.cluster = script.cluster session.clusterFs note
  environment : ∀ name s t, session.host.isSet name s = session.host.isSet name t

/-- The staged artifact is present, and nothing but submissions has been noted since. -/
structure Steady (session : Session σ) (path : Path) (before : List Activity)
    (s : σ × List Activity) : Prop where
  present : session.clusterFs.isPresent path s.1 = true
  noted : ∃ requests : List Request, s.2 = before ++ requests.map .submission

/-- The preconditions of a watched session are met, and nothing but submissions has been noted
since. -/
structure Calm (session : Session σ) (artifact : StagedArtifact) (before : List Activity)
    (s : State (σ × List Activity)) : Prop where
  ready : session.watched.Ready artifact s
  noted : ∃ requests : List Request, s.world.2 = before ++ requests.map .submission

/-! ## After the first preflight -/

section Calm

variable {session : Session σ} {artifact : StagedArtifact} {before : List Activity}
  {E : Failure → Prop}

theorem calm_observe (f : σ × List Activity → α) :
    Preserves (session.Calm artifact before) E (observe f) :=
  preserves_world.bind fun _ => preserves_pure _

theorem calm_preflight : Preserves (session.Calm artifact before) E session.watched.preflight := by
  intro s hs
  rw [hs.ready.run_preflight]
  refine ⟨hs, ?_⟩
  intro e he
  cases he

theorem calm_freshRunId :
    Preserves (session.Calm artifact before) E session.watched.freshRunId := by
  intro s hs
  have hready := hs.ready
  refine ⟨⟨⟨hready.opened, hready.environment, hready.staged, hready.present⟩, hs.noted⟩, ?_⟩
  intro e he
  cases he

end Calm

namespace Bench

variable {session : Session σ} (bench : session.Bench) (artifact : StagedArtifact)
  (before : List Activity)

include bench

theorem lasting : session.clusterFs.Lasting := by
  rw [bench.clusterFs]
  exact bench.store.lasting_fileSystem

/-- The filesystem of the watched cluster keeps a world steady. -/
theorem sustains_steady (path : Path) :
    session.watched.clusterFs.Sustains (session.Steady path before) :=
  (bench.lasting.stays path).part Part.beside (fun _ hs => hs.present)
    fun _ _ hs ht => ⟨ht, hs.noted⟩

/-- A job of the watched cluster keeps a world steady. -/
theorem steady_submit (path : Path) (properties : Properties) (workload : Workload) :
    Preserves (session.Steady path before) (fun e => ¬ e.IsConfiguration)
      (session.watched.cluster.submit properties workload) := by
  have hsubmit : Preserves (fun w => session.clusterFs.isPresent path w = true)
      (fun e => ¬ e.IsConfiguration) (session.cluster.submit properties workload) := by
    rw [bench.cluster]
    refine JobScript.preserves_submit (bench.lasting.stays path) (fun f w hw => ?_) _ _
    rw [bench.clusterFs] at hw ⊢
    rw [bench.store.isPresent_of_untouched (bench.store_note f w)]
    exact hw
  refine (preserves_change fun s hs => ?_).bind fun _ =>
    hsubmit.within (fun _ hs => hs.present) fun _ _ hs ht => ⟨ht, hs.noted⟩
  obtain ⟨requests, hnoted⟩ := hs.noted
  refine ⟨hs.present, requests ++ [(properties, workload)], ?_⟩
  rw [Activity.note, hnoted, List.map_append, List.append_assoc]
  rfl

variable {artifact before}

theorem calm_onWorld {x : Action (σ × List Activity) Failure α} {E : Failure → Prop}
    (h : Preserves (session.Steady artifact.sharedPath before) E x) :
    Preserves (session.Calm artifact before) E (onWorld x) := by
  refine h.within (fun s hs => ⟨hs.ready.present, hs.noted⟩) fun w s hs hw => ⟨?_, hw.noted⟩
  have hset : (fun name => !session.watched.host.isSet name w) =
      fun name => !session.watched.host.isSet name s.world := by
    funext name
    exact congrArg not (bench.environment name w.1 s.world.1)
  exact ⟨hs.ready.opened, hset ▸ hs.ready.environment, hs.ready.staged, hw.present⟩

variable (artifact before)

theorem calm_execute (workload : Workload) (plan : RunPlan) :
    Preserves (session.Calm artifact before) (fun e => ¬ e.IsConfiguration)
      (session.watched.execute workload plan) := by
  refine (calm_observe _).bind fun startedAt => ?_
  refine (bench.calm_onWorld (bench.steady_submit _ _ _ _)).bind fun result => ?_
  refine (calm_observe _).bind fun finishedAt => ?_
  split
  · exact preserves_pure _
  · refine preserves_fail ?_
    rintro ⟨_, ⟨⟩⟩

theorem calm_judge (reference candidate : Execution) :
    Preserves (session.Calm artifact before) (fun e => ¬ e.IsConfiguration)
      (session.watched.judge reference candidate) := by
  have hsteady := bench.sustains_steady before artifact.sharedPath
  have hcompare : Preserves (session.Steady artifact.sharedPath before)
      (fun e => ¬ e.IsConfiguration) ((session.watched.clusterFs.compare reference.outputDirectory
        candidate.outputDirectory).mapError Failure.storage) := by
    refine (FileSystem.sustains_compare hsteady.list hsteady.openFile _ _).mapError ?_
    rintro e _ ⟨_, ⟨⟩⟩
  refine (bench.calm_onWorld hcompare).bind fun verdict => ?_
  cases verdict with
  | noOutput => exact preserves_pure _
  | pass files bytes => exact preserves_pure _
  | fail mismatch =>
    refine preserves_fail ?_
    rintro ⟨_, ⟨⟩⟩

theorem calm_runReference (workload : Workload) (base : Properties) :
    Preserves (session.Calm artifact before) (fun e => ¬ e.IsConfiguration)
      (session.watched.runReference workload base) :=
  (calm_freshRunId.bind fun _ => preserves_pure _).bind (bench.calm_execute artifact before workload)

theorem calm_runOffload (workload : Workload) (base : Properties) (transport : Transport)
    (remoteMerge remoteSpill : Bool) :
    Preserves (session.Calm artifact before) (fun e => ¬ e.IsConfiguration)
      (session.watched.runOffload workload base transport remoteMerge remoteSpill) := by
  refine Preserves.bind ?_ (bench.calm_execute artifact before workload)
  exact calm_preflight.bind fun _ => calm_freshRunId.bind fun _ => preserves_pure _

theorem calm_runPoint (workload : Workload) (point : MatrixPoint) :
    Preserves (session.Calm artifact before) (fun e => ¬ e.IsConfiguration)
      (session.watched.runPoint workload point) := by
  have hreference := bench.calm_runReference artifact before workload
  have hoffload := bench.calm_runOffload artifact before workload
  have hjudge := bench.calm_judge artifact before
  obtain ⟨transport, scenario⟩ := point
  cases scenario with
  | standard =>
    refine calm_preflight.discard.bind fun _ => (calm_observe _).bind fun base => ?_
    refine (hreference base).bind fun reference => (hoffload base _ _ _).bind fun standard => ?_
    refine (hjudge _ _).bind fun judged => (calm_observe _).bind fun base => ?_
    refine (hoffload base _ _ _).bind fun spill => (hjudge _ _).bind fun judged => ?_
    exact preserves_pure _
  | remoteMerge =>
    refine calm_preflight.discard.bind fun _ => (calm_observe _).bind fun base => ?_
    refine (hoffload base _ _ _).bind fun merged => (calm_observe _).bind fun base => ?_
    refine (hreference base).bind fun reference => (hjudge _ _).bind fun judged => ?_
    exact preserves_pure _

theorem calm_runMatrix (workload : Workload) (points : List MatrixPoint) :
    Preserves (session.Calm artifact before) (fun e => ¬ e.IsConfiguration)
      (session.watched.runMatrix workload points) := by
  induction points with
  | nil => exact preserves_pure _
  | cons point points ih =>
    refine (bench.calm_runPoint artifact before workload point).bind fun outcome => ?_
    exact ih.bind fun outcomes => preserves_pure _

end Bench

/-! ## The law -/

variable {session : Session σ} {s t : State σ}

theorem run_runPoint_of_error {e : Failure} (workload : Workload) (point : MatrixPoint)
    (h : session.preflight.run s = (.error e, t)) :
    (session.runPoint workload point).run s = (.error e, t) := by
  obtain ⟨transport, scenario⟩ := point
  cases scenario with
  | standard => exact run_bind_of_error (run_discard_of_error h)
  | remoteMerge => exact run_bind_of_error (run_discard_of_error h)

/-- A point runs as from the state after its preflight, where another preflight changes nothing. -/
theorem run_runPoint_of_ok {artifact : StagedArtifact} (workload : Workload) (point : MatrixPoint)
    (h : session.preflight.run s = (.ok artifact, t))
    (hsettled : session.preflight.run t = (.ok artifact, t)) :
    (session.runPoint workload point).run s = (session.runPoint workload point).run t := by
  have hsame := (run_discard_of_ok h).trans (run_discard_of_ok hsettled).symm
  obtain ⟨transport, scenario⟩ := point
  cases scenario with
  | standard => exact run_bind_congr hsame
  | remoteMerge => exact run_bind_congr hsame

/-- What a watched matrix notes, from a state where nothing has been noted. -/
theorem Bench.noted_runMatrix (bench : session.Bench) (workload : Workload)
    (points : List MatrixPoint) {u : State (σ × List Activity)} (hu : u.world.2 = []) :
    ∃ (copies : List Path) (requests : List Request), copies.length ≤ 1 ∧
      ((session.watched.runMatrix workload points).run u).2.world.2 =
        copies.map .copy ++ requests.map .submission ∧
      ∀ reason, ((session.watched.runMatrix workload points).run u).1 =
        .error (.configuration reason) → requests = [] := by
  cases points with
  | nil => exact ⟨[], [], Nat.zero_le 1, hu, fun _ _ => rfl⟩
  | cons point points =>
    obtain ⟨copies, hcopies, hnoted⟩ := session.noted_preflight u
    rw [hu, List.nil_append] at hnoted
    rcases hpreflight : session.watched.preflight.run u with ⟨e | artifact, v⟩
    · rw [hpreflight] at hnoted
      have hrun : (session.watched.runMatrix workload (point :: points)).run u = (.error e, v) :=
        run_bind_of_error (run_runPoint_of_error workload point hpreflight)
      rw [hrun]
      exact ⟨copies, [], hcopies, by simpa using hnoted, fun _ _ => rfl⟩
    · rw [hpreflight] at hnoted
      have hready : session.watched.Ready artifact v :=
        ready_of_preflight (bench.lasting.part Part.beside)
          (fun name w w' => bench.environment name w.1 w'.1) hpreflight
      have hpoint := run_runPoint_of_ok workload point hpreflight hready.run_preflight
      have hrun : (session.watched.runMatrix workload (point :: points)).run u =
          (session.watched.runMatrix workload (point :: points)).run v := run_bind_congr hpoint
      have hcalm : session.Calm artifact (copies.map .copy) v :=
        ⟨hready, [], by rw [hnoted, List.map_nil, List.append_nil]⟩
      obtain ⟨hafter, hlate⟩ :=
        bench.calm_runMatrix artifact (copies.map .copy) workload (point :: points) v hcalm
      obtain ⟨requests, hrequests⟩ := hafter.noted
      rw [hrun]
      refine ⟨copies, requests, hcopies, hrequests, fun reason hreason => ?_⟩
      exact absurd ⟨reason, rfl⟩ (hlate _ hreason)

/-- In a matrix over a rehearsed cluster the artifact is copied at most once, before anything is
submitted; and when a precondition is not met, nothing is submitted at all. -/
theorem matrix_settles_preconditions_first (bench : session.Bench) (workload : Workload)
    (points : List MatrixPoint) (s : State σ) :
    ∃ (result : Except Failure (List Outcome)) (t : State σ) (copies : List Path)
      (requests : List Request),
      (session.runMatrix workload points).run s = (result, t) ∧
      (session.watched.runMatrix workload points).run (s.beside []) =
        (result, t.beside (copies.map .copy ++ requests.map .submission)) ∧
      copies.length ≤ 1 ∧
      ∀ reason, result = .error (.configuration reason) → requests = [] := by
  obtain ⟨copies, requests, hcopies, hnoted, hnone⟩ :=
    bench.noted_runMatrix workload points (u := s.beside []) rfl
  have hrun := session.run_matrix_watched workload points (s.beside [])
  refine ⟨_, _, copies, requests, hrun, ?_, hcopies, hnone⟩
  rw [← hnoted]
  rfl

/-- The trial keeps its files in a memory tree. -/
def trialBench : trial.Bench where
  script := trialScript
  store := .memory trialMemory
  note f s := (s.1, f s.2)
  store_note := trialRehearsal.memory_note
  clusterFs := trialRehearsal.clusterFs
  cluster := trialRehearsal.cluster
  environment := trialRehearsal.environment

/-- Jobs that write no output. -/
def idleScript : JobScript := { trialScript with writesOutput := false }

/-- The trial with such jobs. -/
def drill : Session (Memory × ClusterLog) :=
  { trial with
    cluster :=
      idleScript.cluster (trialMemory.fileSystem Memory.fileSystem) fun f s => (s.1, f s.2) }

def drillBench : drill.Bench where
  script := idleScript
  store := .memory trialMemory
  note f s := (s.1, f s.2)
  store_note := trialRehearsal.memory_note
  clusterFs := rfl
  cluster := rfl
  environment := trialRehearsal.environment

/-- A tree with nothing but the build that the settings name. -/
def builtTree : Memory :=
  Memory.empty.addFile ⟨"client-mr/core/target/shaded/rss-client-mr.jar"⟩ [1]

/-- Without a build the trial stops at its first precondition, and has submitted nothing. With one,
its jobs are submitted behind the one copy of the artifact. -/
theorem trial_copies_before_it_submits :
    (∃ (reason : String) (t : State (Memory × ClusterLog)) (copies : List Path),
      (trial.watched.runMatrix ⟨"wordcount", []⟩ Matrix.full).run
          ((State.initial (Memory.empty, ClusterLog.empty)).beside []) =
        (.error (.configuration reason), t.beside (copies.map .copy))) ∧
    ∃ (result : Except Failure (List Outcome)) (t : State (Memory × ClusterLog))
      (requests : List Request),
      (drill.watched.runMatrix ⟨"wordcount", []⟩ [⟨.grpc, .standard⟩]).run
          ((State.initial (builtTree, ClusterLog.empty)).beside []) =
        (result, t.beside (.copy ⟨"client-mr/core/target/shaded/rss-client-mr.jar"⟩ ::
          requests.map .submission)) ∧ requests.length = 3 := by
  constructor
  · let s : State (Memory × ClusterLog) := State.initial (Memory.empty, ClusterLog.empty)
    obtain ⟨reason, t, hpreflight⟩ :
        ∃ reason t, trial.preflight.run s = (.error (.configuration reason), t) := ⟨_, _, rfl⟩
    have hstop : (trial.runMatrix ⟨"wordcount", []⟩ Matrix.full).run s =
        (.error (.configuration reason), t) :=
      run_bind_of_error (run_runPoint_of_error _ ⟨.grpc, .standard⟩ hpreflight)
    obtain ⟨result, u, copies, requests, hrun, hwatched, _, hnone⟩ :=
      matrix_settles_preconditions_first trialBench ⟨"wordcount", []⟩ Matrix.full s
    obtain ⟨rfl, rfl⟩ := Prod.mk.inj (hstop.symm.trans hrun)
    rw [hnone reason rfl, List.map_nil, List.append_nil] at hwatched
    exact ⟨reason, t, copies, hwatched⟩
  · let s : State (Memory × ClusterLog) := State.initial (builtTree, ClusterLog.empty)
    obtain ⟨result, t, copies, requests, _, hwatched, hcopies, _⟩ :=
      matrix_settles_preconditions_first drillBench ⟨"wordcount", []⟩ [⟨.grpc, .standard⟩] s
    have hsources : ((drill.watched.runMatrix ⟨"wordcount", []⟩ [⟨.grpc, .standard⟩]).run
        (s.beside [])).2.world.2.map Activity.source? =
          [some ⟨"client-mr/core/target/shaded/rss-client-mr.jar"⟩, none, none, none] := by
      decide +kernel
    have hnoted : ((drill.watched.runMatrix ⟨"wordcount", []⟩ [⟨.grpc, .standard⟩]).run
        (s.beside [])).2.world.2 = copies.map .copy ++ requests.map .submission := by
      rw [hwatched]
      rfl
    rw [hnoted, List.map_append, List.map_map, List.map_map] at hsources
    have hlength : copies.length + requests.length = 4 := by
      simpa using congrArg List.length hsources
    match copies with
    | [] =>
      -- Then a submission would be noted first.
      obtain ⟨request, requests, rfl⟩ : ∃ request others, requests = request :: others :=
        List.exists_cons_of_length_eq_add_one ((Nat.zero_add _).symm.trans hlength)
      cases hsources
    | [path] =>
      rw [List.map_singleton, List.singleton_append, List.cons.injEq] at hsources
      obtain rfl : path = _ := Option.some.inj hsources.1
      exact ⟨result, t, requests, hwatched, Nat.add_left_cancel hlength⟩

end Session
end OffloadCheck
