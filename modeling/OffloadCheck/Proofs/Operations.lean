import OffloadCheck.Proofs.Invariants
import OffloadCheck.Proofs.Recording
import OffloadCheck.Session.Lifecycle

/-! # What is done in a session

A session is used through its operations, in any order and any number of times, while other things
happen to the world. What its filesystems and the submission of jobs keep, every operation but a
close keeps, since all of them are built from these calls. -/
namespace OffloadCheck

open OffloadCheck.Action

variable {σ α : Type}

/-- A copy keeps what opening its source keeps and what writing to its target keeps. -/
theorem FileSystem.Sustains.transfer {source target : FileSystem σ} {P : σ → Prop}
    (hsource : source.Sustains P) (htarget : target.Sustains P) (src dst : Path) :
    Action.Sustains P (source.transfer src target dst) := by
  refine (hsource.openFile src).bind fun stream => ?_
  refine (htarget.create dst).bind_of_run fun {s w t} _ hcreate => ?_
  refine preserves_world.bind fun u => ?_
  refine sustains_mapError ?_ StorageError.io
  refine (w.sustains_writeRefills (htarget.writeAt hcreate) 0 _).bind fun copied => ?_
  split
  · exact preserves_fail trivial
  · exact preserves_pure _

namespace Session

/-! ## Operations -/

/-- Something that is done in a session, or to the world while it lasts. -/
inductive Operation (σ : Type)
  | preflight
  | locateArtifact
  | planBaseline (base : Properties)
  | planOffload (base : Properties) (transport : Transport) (remoteMerge remoteSpill : Bool)
  | submit (properties : Properties) (workload : Workload)
  | runPoint (workload : Workload) (point : MatrixPoint)
  | runMatrix (workload : Workload) (points : List MatrixPoint)
  | close
  /-- Something that the session has no part in. -/
  | elsewhere (change : σ → σ)

/-- Dropping a session closes it. -/
abbrev Operation.drop : Operation σ := .close

def Operation.isClose : Operation σ → Bool
  | .close => true
  | _ => false

/-- What an operation leaves, whatever it gives or fails with. -/
def carryOut (session : Session σ) (operation : Operation σ) (s : State σ) : State σ :=
  match operation with
  | .preflight => (session.preflight.run s).2
  | .locateArtifact => ((onWorld session.locateArtifact).run s).2
  | .planBaseline base => ((session.planBaseline base).run s).2
  | .planOffload base transport remoteMerge remoteSpill =>
    ((session.planOffload base transport remoteMerge remoteSpill).run s).2
  | .submit properties workload =>
    ((onWorld (session.cluster.submit properties workload)).run s).2
  | .runPoint workload point => ((session.runPoint workload point).run s).2
  | .runMatrix workload points => ((session.runMatrix workload points).run s).2
  | .close => session.close s
  | .elsewhere change => { s with world := change s.world }

def carryOutAll (session : Session σ) (operations : List (Operation σ)) (s : State σ) : State σ :=
  operations.foldl (fun s operation => session.carryOut operation s) s

/-! ## What operations keep -/

/-- What belongs to the session keeps a property of the world. -/
structure Sustains (session : Session σ) (P : σ → Prop) : Prop where
  clusterFs : session.clusterFs.Sustains P
  buildFs : session.buildFs.Sustains P
  submit : ∀ properties workload, Action.Sustains P (session.cluster.submit properties workload)

/-- The world has a property, and the session is closed or not as given. -/
structure Keeping (P : σ → Prop) (closed : Bool) (s : State σ) : Prop where
  world : P s.world
  closed : s.closed = closed

variable {session : Session σ} {P : σ → Prop} {closed : Bool}

theorem sustains_onWorld {x : Action σ Failure α} (h : Action.Sustains P x) :
    Action.Sustains (Keeping P closed) (onWorld x) :=
  h.within (fun _ hs => hs.world) fun _ _ hs hw => ⟨hw, hs.closed⟩

theorem sustains_observe (f : σ → α) : Action.Sustains (Keeping P closed) (observe f) :=
  preserves_world.bind fun _ => preserves_pure _

theorem sustains_freshRunId (session : Session σ) :
    Action.Sustains (Keeping P closed) session.freshRunId :=
  sustains_of_state fun _ hs => ⟨hs.world, hs.closed⟩

theorem sustains_planBaseline (session : Session σ) (base : Properties) :
    Action.Sustains (Keeping P closed) (session.planBaseline base) :=
  (sustains_freshRunId session).bind fun _ => preserves_pure _

theorem sustains_checkEnvironment (session : Session σ) :
    Action.Sustains P session.checkEnvironment := by
  refine preserves_world.bind fun w => ?_
  split
  · exact preserves_fail trivial
  · exact preserves_pure _

namespace Sustains

variable (h : session.Sustains P)

include h

theorem locateArtifact : Action.Sustains P session.locateArtifact := by
  refine (sustains_mapError (h.buildFs.list _) _).bind fun listing => ?_
  split
  · exact preserves_pure _
  · exact preserves_fail trivial

theorem stageArtifact : Action.Sustains P session.stageArtifact := by
  refine h.locateArtifact.bind fun name => ?_
  exact (sustains_mapError (h.buildFs.transfer h.clusterFs _ _) Failure.storage).discard.bind
    fun _ => preserves_pure _

theorem preflight : Action.Sustains (Keeping P closed) session.preflight := by
  refine preserves_world.bind fun s => ?_
  split
  · exact preserves_fail trivial
  · refine (sustains_onWorld (sustains_checkEnvironment session)).bind fun _ => ?_
    refine preserves_world.bind fun s => ?_
    split
    · exact preserves_pure _
    · refine (sustains_onWorld h.stageArtifact).bind fun artifact => ?_
      exact Preserves.bind (preserves_change fun s hs => ⟨hs.world, hs.closed⟩) fun _ =>
        preserves_pure _

theorem planOffload (base : Properties) (transport : Transport) (remoteMerge remoteSpill : Bool) :
    Action.Sustains (Keeping P closed)
      (session.planOffload base transport remoteMerge remoteSpill) :=
  h.preflight.bind fun _ => (sustains_freshRunId session).bind fun _ => preserves_pure _

theorem execute (workload : Workload) (plan : RunPlan) :
    Action.Sustains (Keeping P closed) (session.execute workload plan) := by
  refine (sustains_observe _).bind fun startedAt => ?_
  refine (sustains_onWorld (h.submit _ _)).bind fun result => ?_
  refine (sustains_observe _).bind fun finishedAt => ?_
  split
  · exact preserves_pure _
  · exact preserves_fail trivial

theorem judge (reference candidate : Execution) :
    Action.Sustains (Keeping P closed) (session.judge reference candidate) := by
  have hcompare := FileSystem.sustains_compare h.clusterFs.list h.clusterFs.openFile
    reference.outputDirectory candidate.outputDirectory
  refine (sustains_onWorld (sustains_mapError hcompare Failure.storage)).bind fun verdict => ?_
  split
  · exact preserves_fail trivial
  · exact preserves_pure _

theorem runReference (workload : Workload) (base : Properties) :
    Action.Sustains (Keeping P closed) (session.runReference workload base) :=
  (sustains_planBaseline session base).bind (h.execute workload)

theorem runOffload (workload : Workload) (base : Properties) (transport : Transport)
    (remoteMerge remoteSpill : Bool) : Action.Sustains (Keeping P closed)
      (session.runOffload workload base transport remoteMerge remoteSpill) :=
  (h.planOffload base transport remoteMerge remoteSpill).bind (h.execute workload)

theorem runPoint (workload : Workload) (point : MatrixPoint) :
    Action.Sustains (Keeping P closed) (session.runPoint workload point) := by
  obtain ⟨transport, scenario⟩ := point
  cases scenario with
  | standard =>
    -- The base properties are read again for the candidate that spills.
    refine h.preflight.discard.bind fun _ => (sustains_observe _).bind fun base => ?_
    refine (h.runReference workload base).bind fun reference => ?_
    refine (h.runOffload workload base transport false false).bind fun standard => ?_
    refine (h.judge reference standard).bind fun _ => (sustains_observe _).bind fun base => ?_
    refine (h.runOffload workload base transport false true).bind fun spill => ?_
    exact (h.judge reference spill).bind fun _ => preserves_pure _
  | remoteMerge =>
    refine h.preflight.discard.bind fun _ => (sustains_observe _).bind fun base => ?_
    refine (h.runOffload workload base transport true false).bind fun merged => ?_
    refine (sustains_observe _).bind fun base => ?_
    refine (h.runReference workload base).bind fun reference => ?_
    exact (h.judge reference merged).bind fun _ => preserves_pure _

theorem runMatrix (workload : Workload) (points : List MatrixPoint) :
    Action.Sustains (Keeping P closed) (session.runMatrix workload points) := by
  induction points with
  | nil => exact preserves_pure _
  | cons point points ih =>
    exact (h.runPoint workload point).bind fun _ => ih.bind fun _ => preserves_pure _

/-- Every operation but a close keeps what the parts of the session keep, as far as what happens
elsewhere keeps it, and leaves the session open or closed as it was. -/
theorem carryOut {operation : Operation σ} (hclose : operation.isClose = false)
    (helsewhere : ∀ change, operation = .elsewhere change → ∀ w, P w → P (change w)) {s : State σ}
    (hs : Keeping P closed s) : Keeping P closed (session.carryOut operation s) := by
  cases operation with
  | preflight => exact (h.preflight s hs).1
  | locateArtifact => exact (sustains_onWorld h.locateArtifact s hs).1
  | planBaseline base => exact (sustains_planBaseline session base s hs).1
  | planOffload base transport remoteMerge remoteSpill =>
    exact (h.planOffload base transport remoteMerge remoteSpill s hs).1
  | submit properties workload => exact (sustains_onWorld (h.submit properties workload) s hs).1
  | runPoint workload point => exact (h.runPoint workload point s hs).1
  | runMatrix workload points => exact (h.runMatrix workload points s hs).1
  | close => cases hclose
  | elsewhere change => exact ⟨helsewhere change rfl s.world hs.world, hs.closed⟩

end Sustains

end Session
end OffloadCheck
