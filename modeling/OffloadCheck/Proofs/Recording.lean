import OffloadCheck.Proofs.Embedding
import OffloadCheck.Session.Sequence

/-! # A session whose cluster is watched

A map puts the world of one session into that of another. When the parts of the second session do on
an image what those of the first one do, so does every step of the session. The session `beside` runs
over a world that has something else next to it and does there what the session itself does. In the
session `recorded` that something is the list of all requests the cluster was handed, an entry being
made before the cluster sees the request. Every step but the execution of a run leaves the record
alone, and an execution adds its own request to it. -/
namespace OffloadCheck

open OffloadCheck.Action

variable {σ τ κ α β : Type}

/-- What a cluster is handed. -/
abbrev Request := Properties × Workload

/-- The cluster in a world with something else next to it. -/
def Cluster.beside (cluster : Cluster σ) : Cluster (σ × κ) where
  start properties := (cluster.start properties).within Prod.fst fun w s => (w, s.2)
  stop := cluster.stop.within Prod.fst fun w s => (w, s.2)
  baseProperties s := cluster.baseProperties s.1
  submit properties workload :=
    (cluster.submit properties workload).within Prod.fst fun w s => (w, s.2)

/-- The cluster that records each request before it runs the job. -/
def Cluster.recording (cluster : Cluster (σ × List Request)) : Cluster (σ × List Request) :=
  { cluster with
    submit := fun properties workload => do
      Action.change fun s => (s.1, s.2 ++ [(properties, workload)])
      cluster.submit properties workload }

def Servers.beside (servers : Servers σ) : Servers (σ × κ) where
  store config := (servers.store config).within Prod.fst fun w s => (w, s.2)
  start randomizedPorts := (servers.start randomizedPorts).within Prod.fst fun w s => (w, s.2)
  quorum s := servers.quorum s.1
  stop := servers.stop.within Prod.fst fun w s => (w, s.2)

def Host.beside (host : Host σ) : Host (σ × κ) where
  isSet name s := host.isSet name s.1
  now s := host.now s.1
  runId := host.runId

def FileSystem.beside (fs : FileSystem σ) : FileSystem (σ × κ) :=
  fs.within Prod.fst fun w s => (w, s.2)

theorem follows_beside {ε : Type} (k : κ) (x : Action σ ε α) :
    Follows (fun s => (s, k)) Eq x (x.within Prod.fst fun w s => (w, s.2)) :=
  follows_within (fun _ => rfl) (fun _ _ => rfl) x

theorem FileSystem.follows_beside (fs : FileSystem σ) (k : κ) :
    fs.Follows (fun s => (s, k)) fs.beside :=
  fs.follows_within (fun _ => rfl) fun _ _ => rfl

namespace Session

/-- The session in a world with something else next to it. -/
def beside (session : Session σ) : Session (σ × κ) where
  id := session.id
  settings := session.settings
  host := session.host.beside
  cluster := session.cluster.beside
  servers := session.servers.beside
  clusterFs := session.clusterFs.beside
  buildFs := session.buildFs.beside
  quorum := session.quorum

/-- The session that records what its cluster is handed. -/
def recorded (session : Session σ) : Session (σ × List Request) :=
  { session.beside with cluster := session.cluster.beside.recording }

/-- The state with something put next to the world. -/
def State.beside (k : κ) (s : State σ) : State (σ × κ) :=
  ⟨(s.world, k), s.staged, s.closed, s.planned⟩

/-! ## Sessions over an image of the world -/

/-- The state in a larger world. -/
def State.map (f : σ → τ) (s : State σ) : State τ := ⟨f s.world, s.staged, s.closed, s.planned⟩

/-- The session `T` is made like `S`, and all its parts but the submission of jobs do on an image of
the world what those of `S` do. -/
structure Mirrored (f : σ → τ) (S : Session σ) (T : Session τ) : Prop where
  id : T.id = S.id
  settings : T.settings = S.settings
  quorum : T.quorum = S.quorum
  isSet : ∀ name s, T.host.isSet name (f s) = S.host.isSet name s
  now : ∀ s, T.host.now (f s) = S.host.now s
  runId : T.host.runId = S.host.runId
  baseProperties : ∀ s, T.cluster.baseProperties (f s) = S.cluster.baseProperties s
  clusterFs : S.clusterFs.Follows f T.clusterFs
  buildFs : S.buildFs.Follows f T.buildFs

variable {f : σ → τ}

theorem follows_onWorld {R : α → β → Prop} {x : Action σ Failure α} {y : Action τ Failure β}
    (h : Follows f R x y) : Follows (State.map f) R (onWorld x) (onWorld y) := by
  intro s
  have hs := h s.world
  rw [onWorld, onWorld, run_within, run_within]
  have hworld : (s.map f).world = f s.world := rfl
  rw [hworld]
  generalize x.run s.world = rx at hs
  generalize y.run (f s.world) = ry at hs
  cases hs with
  | ok hab => exact .ok hab
  | error => exact .error

theorem follows_onStorage {x : Action σ StorageError α} {y : Action τ StorageError α}
    (h : Follows f Eq x y) :
    Follows (State.map f) Eq (onStorage x) (onStorage y) :=
  follows_onWorld (h.mapError Failure.storage)

theorem follows_observe {g : σ → α} {h : τ → α} (hgh : ∀ s, h (f s) = g s) :
    Follows (State.map f) Eq (observe g) (observe h) := by
  refine follows_world.bind ?_
  intro s _ hs
  subst hs
  exact follows_pure (hgh s.world).symm

theorem follows_stagedOr {fs : FileSystem σ} {gs : FileSystem τ}
    {stage : Action σ Failure StagedArtifact} {stage' : Action τ Failure StagedArtifact}
    (hfs : fs.Follows f gs) (hstage : Follows f Eq stage stage') :
    Follows (State.map f) Eq (stagedOr fs stage) (stagedOr gs stage') := by
  refine follows_world.bind ?_
  intro s _ hs
  subst hs
  simp only [State.map, hfs.isPresent]
  cases s.staged.filter fun a => fs.isPresent a.sharedPath s.world with
  | some artifact => exact follows_pure rfl
  | none =>
    refine (follows_onWorld hstage).bind ?_
    intro artifact _ hartifact
    subst hartifact
    intro s
    exact .ok rfl

namespace Mirrored

variable {S : Session σ} {T : Session τ}

theorem locateArtifact (h : S.Mirrored f T) :
    Follows f Eq S.locateArtifact T.locateArtifact := by
  unfold Session.locateArtifact
  rw [h.settings]
  refine ((h.buildFs.list _).mapError _).bind ?_
  intro listing _ hlisting
  subst hlisting
  cases pickArtifact? S.settings.artifactPrefix listing with
  | some name => exact follows_pure rfl
  | none => exact follows_fail _

theorem stageArtifact (h : S.Mirrored f T) :
    Follows f Eq S.stageArtifact T.stageArtifact := by
  refine h.locateArtifact.bind ?_
  intro name _ hname
  subst hname
  rw [h.settings]
  have htransfer := h.buildFs.transfer h.clusterFs (S.settings.artifactDir.join name)
    (S.settings.sharedArtifactDir.join name)
  refine (htransfer.mapError Failure.storage).discard.bind ?_
  intro _ _ _
  exact follows_pure rfl

theorem checkEnvironment (h : S.Mirrored f T) :
    Follows f Eq S.checkEnvironment T.checkEnvironment := by
  refine follows_world.bind ?_
  intro s _ hs
  subst hs
  simp only [h.settings, h.isSet]
  cases S.settings.requiredEnv.find? fun name => !S.host.isSet name s with
  | some name => exact follows_fail _
  | none => exact follows_pure rfl

theorem preflight (h : S.Mirrored f T) :
    Follows (State.map f) Eq S.preflight T.preflight := by
  refine follows_world.bind ?_
  intro s _ hs
  subst hs
  have hmap : (s.map f).closed = s.closed := rfl
  by_cases hclosed : s.closed = true
  · rw [if_pos hclosed, if_pos (hmap.trans hclosed), h.id]
    exact follows_fail _
  · rw [if_neg hclosed, if_neg (hmap ▸ hclosed)]
    refine (follows_onWorld h.checkEnvironment).bind ?_
    intro _ _ _
    exact follows_stagedOr h.clusterFs h.stageArtifact

theorem planBaseline (h : S.Mirrored f T) (base : Properties) :
    Follows (State.map f) Eq (S.planBaseline base) (T.planBaseline base) := by
  intro s
  unfold Session.planBaseline freshRunId
  rw [h.settings, h.runId]
  exact .ok rfl

theorem planOffload (h : S.Mirrored f T) (base : Properties) (transport : Transport)
    (remoteMerge remoteSpill : Bool) :
    Follows (State.map f) Eq (S.planOffload base transport remoteMerge remoteSpill)
      (T.planOffload base transport remoteMerge remoteSpill) := by
  refine h.preflight.bind ?_
  intro artifact _ hartifact
  subst hartifact
  intro s
  unfold freshRunId
  rw [h.settings, h.quorum, h.runId]
  exact .ok rfl

theorem execute (h : S.Mirrored f T) {workload : Workload} {plan : RunPlan}
    (hsubmit : Follows f Eq (S.cluster.submit plan.properties workload)
      (T.cluster.submit plan.properties workload)) :
    Follows (State.map f) Eq (S.execute workload plan) (T.execute workload plan) := by
  have hnow : Follows (State.map f) Eq (observe S.host.now) (observe T.host.now) :=
    follows_observe h.now
  refine hnow.bind ?_
  intro startedAt _ hstartedAt
  subst hstartedAt
  refine (follows_onWorld hsubmit).bind ?_
  intro result _ hresult
  subst hresult
  refine hnow.bind ?_
  intro finishedAt _ hfinishedAt
  subst hfinishedAt
  split
  · exact follows_pure rfl
  · exact follows_fail _

theorem judge (h : S.Mirrored f T) (reference candidate : Execution) :
    Follows (State.map f) Eq (S.judge reference candidate) (T.judge reference candidate) := by
  refine (follows_onStorage (h.clusterFs.compare _ _)).bind ?_
  intro verdict _ hverdict
  subst hverdict
  cases verdict with
  | noOutput => exact follows_pure rfl
  | pass files bytes => exact follows_pure rfl
  | fail mismatch => exact follows_fail _

/-! ### Sequences -/

section Sequences

variable (h : S.Mirrored f T) (hsubmit : ∀ properties workload,
  Follows f Eq (S.cluster.submit properties workload) (T.cluster.submit properties workload))

include h hsubmit

theorem runReference (workload : Workload) (base : Properties) :
    Follows (State.map f) Eq (S.runReference workload base) (T.runReference workload base) := by
  refine (h.planBaseline base).bind ?_
  intro plan _ hplan
  subst hplan
  exact h.execute (hsubmit _ _)

theorem runOffload (workload : Workload) (base : Properties) (transport : Transport)
    (remoteMerge remoteSpill : Bool) :
    Follows (State.map f) Eq (S.runOffload workload base transport remoteMerge remoteSpill)
      (T.runOffload workload base transport remoteMerge remoteSpill) := by
  refine (h.planOffload base transport remoteMerge remoteSpill).bind ?_
  intro plan _ hplan
  subst hplan
  exact h.execute (hsubmit _ _)

theorem runStandard (workload : Workload) (transport : Transport) :
    Follows (State.map f) Eq (S.runStandard workload transport)
      (T.runStandard workload transport) := by
  refine h.preflight.discard.bind ?_
  intro _ _ _
  refine (follows_observe h.baseProperties).bind ?_
  intro base _ hbase
  subst hbase
  refine (h.runReference hsubmit workload base).bind ?_
  intro reference _ hreference
  subst hreference
  refine (h.runOffload hsubmit workload base transport false false).bind ?_
  intro standard _ hstandard
  subst hstandard
  refine (h.judge reference standard).bind ?_
  intro judged _ hjudged
  subst hjudged
  refine (follows_observe h.baseProperties).bind ?_
  intro base _ hbase
  subst hbase
  refine (h.runOffload hsubmit workload base transport false true).bind ?_
  intro spill _ hspill
  subst hspill
  refine (h.judge reference spill).bind ?_
  intro judged _ hjudged
  subst hjudged
  exact follows_pure rfl

theorem runRemoteMerge (workload : Workload) (transport : Transport) :
    Follows (State.map f) Eq (S.runRemoteMerge workload transport)
      (T.runRemoteMerge workload transport) := by
  refine h.preflight.discard.bind ?_
  intro _ _ _
  refine (follows_observe h.baseProperties).bind ?_
  intro base _ hbase
  subst hbase
  refine (h.runOffload hsubmit workload base transport true false).bind ?_
  intro merged _ hmerged
  subst hmerged
  refine (follows_observe h.baseProperties).bind ?_
  intro base _ hbase
  subst hbase
  refine (h.runReference hsubmit workload base).bind ?_
  intro reference _ hreference
  subst hreference
  refine (h.judge reference merged).bind ?_
  intro judged _ hjudged
  subst hjudged
  exact follows_pure rfl

theorem runPoint (workload : Workload) (point : MatrixPoint) :
    Follows (State.map f) Eq (S.runPoint workload point) (T.runPoint workload point) := by
  obtain ⟨transport, scenario⟩ := point
  cases scenario with
  | standard => exact h.runStandard hsubmit workload transport
  | remoteMerge => exact h.runRemoteMerge hsubmit workload transport

theorem runMatrix (workload : Workload) (points : List MatrixPoint) :
    Follows (State.map f) Eq (S.runMatrix workload points) (T.runMatrix workload points) := by
  induction points with
  | nil => exact follows_pure rfl
  | cons point points ih =>
    refine (h.runPoint hsubmit workload point).bind ?_
    intro outcome _ houtcome
    subst houtcome
    refine ih.bind ?_
    intro outcomes _ houtcomes
    subst houtcomes
    exact follows_pure rfl

end Sequences

end Mirrored

variable {k : κ} (session : Session σ)

theorem mirrored_beside : session.Mirrored (fun s => (s, k)) session.beside where
  id := rfl
  settings := rfl
  quorum := rfl
  isSet _ _ := rfl
  now _ := rfl
  runId := rfl
  baseProperties _ := rfl
  clusterFs := session.clusterFs.follows_beside k
  buildFs := session.buildFs.follows_beside k

theorem mirrored_recorded (record : List Request) :
    session.Mirrored (fun s => (s, record)) session.recorded where
  id := rfl
  settings := rfl
  quorum := rfl
  isSet _ _ := rfl
  now _ := rfl
  runId := rfl
  baseProperties _ := rfl
  clusterFs := session.clusterFs.follows_beside record
  buildFs := session.buildFs.follows_beside record

/-! ## The record -/

/-- An execution puts its request on the record, however it ends. -/
theorem run_execute_recorded (workload : Workload) (plan : RunPlan) (s : State σ)
    (record : List Request) :
    (session.recorded.execute workload plan).run (s.beside record) =
      (((session.execute workload plan).run s).1,
        ((session.execute workload plan).run s).2.beside
          (record ++ [(plan.properties, workload)])) := by
  -- The entry is made before the cluster sees the request, so the execution runs beside it.
  have hbeside : Follows (State.beside (record ++ [(plan.properties, workload)])) Eq
      (session.execute workload plan) (session.beside.execute workload plan) :=
    session.mirrored_beside.execute (follows_beside _ _)
  exact hbeside.run_eq s

end Session
end OffloadCheck
