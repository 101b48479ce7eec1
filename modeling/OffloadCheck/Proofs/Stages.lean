import OffloadCheck.Proofs.Recording

/-! # A matrix as a list of stages

A point of the matrix is a fixed list of stages, and a matrix is the stages of its points one after
the other. What a stage needs of earlier ones is in the `Progress`: preparing a sequence puts away
the executions and verdicts of the one before it, so a comparison cannot reach an older reference.
Running the stages until one fails is the same as running the matrix (`tracks_runMatrix`), in every
session and so in a recorded one as well; what the record holds then is read off the progress
(`follows_performAll`). -/
namespace OffloadCheck

open OffloadCheck.Action

/-- The role of the runs of a mode. -/
def Mode.role : Mode → Role
  | .baseline => .reference
  | .offload _ remoteMerge remoteSpill => Role.ofSwitches remoteMerge remoteSpill

/-- A part of a sequence of runs that fails or passes as a whole. -/
inductive Stage
  /-- The preconditions are checked. -/
  | prepare
  /-- The cluster is asked for the properties that runs start from. -/
  | readBase
  /-- A run is planned, submitted and waited for. -/
  | run (mode : Mode)
  /-- The latest offload run is compared with the reference. -/
  | judge
  /-- The outcome of the point is written down. -/
  | report (point : MatrixPoint)

/-- The roles that a stage submits. -/
def Stage.roles : Stage → List Role
  | .run mode => [mode.role]
  | _ => []

/-- The roles of the runs of a scenario in their order. -/
def Scenario.roles : Scenario → List Role
  | .standard => [.reference, .standardOffload, .remoteSpillOffload]
  | .remoteMerge => [.remoteMergeOffload, .reference]

/-- The stages of a point. -/
def MatrixPoint.stages (p : MatrixPoint) : List Stage :=
  match p.scenario with
  | .standard =>
    [.prepare, .readBase, .run .baseline, .run (.offload p.transport false false), .judge,
      .readBase, .run (.offload p.transport false true), .judge, .report p]
  | .remoteMerge =>
    [.prepare, .readBase, .run (.offload p.transport true false), .readBase, .run .baseline,
      .judge, .report p]

theorem MatrixPoint.roles_stages (p : MatrixPoint) :
    p.stages.flatMap Stage.roles = p.scenario.roles := by
  obtain ⟨transport, scenario⟩ := p
  cases scenario <;> rfl

/-- Where a matrix has got to. -/
structure Progress (σ : Type) where
  state : Session.State σ
  /-- The properties that the next run starts from. -/
  base : Properties
  /-- The reference of the present sequence, once it has run. -/
  reference? : Option Execution
  /-- The offload run that is still to be compared. -/
  candidate? : Option Execution
  /-- The verdicts of the present sequence. -/
  judged : List Candidate
  /-- Every run that was submitted, whatever became of it. -/
  submitted : List RunPlan
  /-- The outcomes of the points that are done. -/
  outcomes : List Outcome

namespace Progress

variable {σ α β : Type}

/-- The progress before the first stage. -/
def start (s : Session.State σ) : Progress σ := ⟨s, .empty, none, none, [], [], []⟩

/-- The requests of the submitted runs. -/
def requests (workload : Workload) (p : Progress σ) : List Request :=
  p.submitted.map fun plan => (plan.properties, workload)

/-- The progress in a world that holds the record of its requests. -/
def withRecord (workload : Workload) (p : Progress σ) : Progress (σ × List Request) :=
  ⟨p.state.beside (p.requests workload), p.base, p.reference?, p.candidate?, p.judged, p.submitted,
    p.outcomes⟩

/-- Notes the end of a run. -/
def finish (mode : Mode) (execution : Execution) (p : Progress σ) : Progress σ :=
  if mode.isOffload then { p with candidate? := some execution }
  else { p with reference? := some execution }

/-- A step of the session. -/
def onState (x : Session.Step σ α) : Action (Progress σ) Failure α :=
  x.within Progress.state fun s p => { p with state := s }

/-- What a progress holds besides the state and the submitted runs. -/
structure At (p : Progress σ) (base : Properties) (reference? candidate? : Option Execution)
    (judged : List Candidate) (outcomes : List Outcome) : Prop where
  base : p.base = base
  reference : p.reference? = reference?
  candidate : p.candidate? = candidate?
  judged : p.judged = judged
  outcomes : p.outcomes = outcomes

end Progress

namespace Session

open Progress

variable {σ : Type}

/-- Plans a run of a mode. -/
def planRun (session : Session σ) (mode : Mode) (base : Properties) : Step σ RunPlan :=
  match mode with
  | .baseline => session.planBaseline base
  | .offload transport remoteMerge remoteSpill =>
    session.planOffload base transport remoteMerge remoteSpill

/-- Submits a run and waits for its end. -/
def submitRun (session : Session σ) (workload : Workload) (plan : RunPlan) :
    Action (Progress σ) Failure Execution := do
  Action.change fun p => { p with submitted := p.submitted ++ [plan] }
  onState (session.execute workload plan)

/-- Goes through a stage. -/
def perform (session : Session σ) (workload : Workload) : Stage → Action (Progress σ) Failure Unit
  | .prepare => do
    onState (discard session.preflight)
    Action.change fun p => { p with reference? := none, candidate? := none, judged := [] }
  | .readBase => do
    let base ← onState (observe session.cluster.baseProperties)
    Action.change fun p => { p with base := base }
  | .run mode => do
    let p ← Action.world
    let plan ← onState (session.planRun mode p.base)
    let execution ← session.submitRun workload plan
    Action.change (finish mode execution)
  | .judge => do
    let p ← Action.world
    match p.reference?, p.candidate? with
    | some reference, some candidate =>
      let verdict ← onState (session.judge reference candidate)
      Action.change fun p => { p with candidate? := none, judged := p.judged ++ [verdict] }
    | _, _ => pure ()
  | .report point =>
    Action.change fun p =>
      match p.reference? with
      | some reference => { p with outcomes := p.outcomes ++ [⟨point, reference, p.judged⟩] }
      | none => p

/-- Goes through stages in order until one fails. -/
def performAll (session : Session σ) (workload : Workload) :
    List Stage → Action (Progress σ) Failure Unit
  | [] => pure ()
  | stage :: stages => do
    session.perform workload stage
    session.performAll workload stages

theorem performAll_append (session : Session σ) (workload : Workload) (early late : List Stage) :
    session.performAll workload (early ++ late) = (do
      session.performAll workload early
      session.performAll workload late) := by
  induction early with
  | nil => exact (pure_bind _ _).symm
  | cons stage early ih =>
    rw [List.cons_append, performAll, performAll, ih, bind_assoc]

end Session

/-! ## The stages do what the matrix does -/

namespace Progress

open Session

variable {σ α α' β β' : Type}

/-- Two runs ended the same way and in the same state. -/
inductive Tracked (post : α → β → Progress σ → Prop) :
    Except Failure α × State σ → Except Failure β × Progress σ → Prop
  | ok {a b q} : post a b q → Tracked post (.ok a, q.state) (.ok b, q)
  | error {e q} : Tracked post (.error e, q.state) (.error e, q)

/-- From `p` on, the second step does to the state what the first one does. -/
def Tracks (p : Progress σ) (x : Step σ α) (y : Action (Progress σ) Failure β)
    (post : α → β → Progress σ → Prop) : Prop :=
  Tracked post (x.run p.state) (y.run p)

variable {p : Progress σ} {x : Step σ α} {y : Action (Progress σ) Failure β}
  {post : α → β → Progress σ → Prop}

theorem Tracks.bind {post' : α' → β' → Progress σ → Prop} {f : α → Step σ α'}
    {g : β → Action (Progress σ) Failure β'} (h : p.Tracks x y post)
    (hfg : ∀ a b q, post a b q → q.Tracks (f a) (g b) post') :
    p.Tracks (x >>= f) (y >>= g) post' := by
  unfold Tracks at h ⊢
  generalize hx : x.run p.state = rx at h
  generalize hy : y.run p = ry at h
  cases h with
  | ok hpost =>
    rw [run_bind_of_ok hx, run_bind_of_ok hy]
    exact hfg _ _ _ hpost
  | error =>
    rw [run_bind_of_error hx, run_bind_of_error hy]
    exact .error

theorem Tracks.weaken {post' : α → β → Progress σ → Prop} (h : p.Tracks x y post)
    (hpost : ∀ a b q, post a b q → post' a b q) : p.Tracks x y post' := by
  unfold Tracks at h ⊢
  generalize x.run p.state = rx at h ⊢
  generalize y.run p = ry at h ⊢
  cases h with
  | ok hp => exact .ok (hpost _ _ _ hp)
  | error => exact .error

/-- Noting a result leaves the state alone. -/
theorem Tracks.note {post' : α → Unit → Progress σ → Prop} {g : β → Progress σ → Progress σ}
    (h : p.Tracks x y post)
    (hg : ∀ a b q, post a b q → (g b q).state = q.state ∧ post' a () (g b q)) :
    p.Tracks x (do let b ← y; Action.change (g b)) post' := by
  have hbind : p.Tracks (x >>= pure) (y >>= fun b => Action.change (g b)) post' := by
    refine h.bind ?_
    intro a b q hq
    obtain ⟨hstate, hpost⟩ := hg a b q hq
    have hok := Tracked.ok hpost
    rw [hstate] at hok
    exact hok
  rw [bind_pure] at hbind
  exact hbind

variable {base : Properties} {reference? candidate? : Option Execution} {judged : List Candidate}
  {outcomes : List Outcome}

theorem At.onState (h : p.At base reference? candidate? judged outcomes) (x : Step σ α) :
    p.Tracks x (onState x) fun a b q =>
      a = b ∧ q.At base reference? candidate? judged outcomes := by
  unfold Tracks
  rw [Progress.onState, run_within]
  rcases x.run p.state with ⟨e | a, s⟩
  · exact @Tracked.error _ _ _ _ e { p with state := s }
  · exact @Tracked.ok _ _ _ _ a a { p with state := s }
      ⟨rfl, h.base, h.reference, h.candidate, h.judged, h.outcomes⟩

variable (session : Session σ) (workload : Workload)

theorem At.submitRun (h : p.At base reference? candidate? judged outcomes) (plan : RunPlan) :
    p.Tracks (session.execute workload plan) (session.submitRun workload plan) fun a b q =>
      a = b ∧ q.At base reference? candidate? judged outcomes := by
  have hat : At { p with submitted := p.submitted ++ [plan] } base reference? candidate? judged
      outcomes := ⟨h.base, h.reference, h.candidate, h.judged, h.outcomes⟩
  exact hat.onState (session.execute workload plan)

theorem At.prepare (h : p.At base reference? candidate? judged outcomes) :
    p.Tracks (discard session.preflight) (session.perform workload .prepare) fun _ _ q =>
      q.At base none none [] outcomes := by
  refine (h.onState (discard session.preflight)).note ?_
  intro _ _ q hpost
  obtain ⟨rfl, hq⟩ := hpost
  exact ⟨rfl, hq.base, rfl, rfl, rfl, hq.outcomes⟩

theorem At.readBase (h : p.At base reference? candidate? judged outcomes) :
    p.Tracks (observe session.cluster.baseProperties) (session.perform workload .readBase)
      fun found _ q => q.At found reference? candidate? judged outcomes := by
  refine (h.onState (observe session.cluster.baseProperties)).note ?_
  intro found _ q hpost
  obtain ⟨rfl, hq⟩ := hpost
  exact ⟨rfl, rfl, hq.reference, hq.candidate, hq.judged, hq.outcomes⟩

/-- Planning and executing a run of a mode. -/
theorem At.run (h : p.At base reference? candidate? judged outcomes) (mode : Mode) :
    p.Tracks (session.planRun mode base >>= session.execute workload)
      (session.perform workload (.run mode)) fun execution _ q =>
        ∃ q₀ : Progress σ, q₀.At base reference? candidate? judged outcomes ∧
          q = finish mode execution q₀ := by
  have hplan := h.onState (session.planRun mode base)
  have hrun : p.Tracks (session.planRun mode base >>= session.execute workload)
      (do
        let plan ← Progress.onState (session.planRun mode p.base)
        let execution ← session.submitRun workload plan
        Action.change (finish mode execution))
      fun execution _ q => ∃ q₀ : Progress σ, q₀.At base reference? candidate? judged outcomes ∧
        q = finish mode execution q₀ := by
    rw [h.base]
    refine hplan.bind ?_
    intro plan _ q hpost
    obtain ⟨rfl, hq⟩ := hpost
    refine (hq.submitRun session workload plan).note ?_
    intro execution _ q' hpost
    obtain ⟨rfl, hq'⟩ := hpost
    refine ⟨?_, q', hq', rfl⟩
    unfold finish
    split <;> rfl
  exact hrun

theorem At.runReference (h : p.At base reference? candidate? judged outcomes) :
    p.Tracks (session.runReference workload base) (session.perform workload (.run .baseline))
      fun reference _ q => q.At base (some reference) candidate? judged outcomes := by
  refine (h.run session workload .baseline).weaken ?_
  intro reference _ _ hpost
  obtain ⟨q, hq, rfl⟩ := hpost
  exact ⟨hq.base, rfl, hq.candidate, hq.judged, hq.outcomes⟩

theorem At.runOffload (h : p.At base reference? candidate? judged outcomes)
    (transport : Transport) (remoteMerge remoteSpill : Bool) :
    p.Tracks (session.runOffload workload base transport remoteMerge remoteSpill)
      (session.perform workload (.run (.offload transport remoteMerge remoteSpill)))
      fun candidate _ q => q.At base reference? (some candidate) judged outcomes := by
  refine (h.run session workload (.offload transport remoteMerge remoteSpill)).weaken ?_
  intro candidate _ _ hpost
  obtain ⟨q, hq, rfl⟩ := hpost
  exact ⟨hq.base, hq.reference, rfl, hq.judged, hq.outcomes⟩

theorem At.judge {reference candidate : Execution}
    (h : p.At base (some reference) (some candidate) judged outcomes) :
    p.Tracks (session.judge reference candidate) (session.perform workload .judge)
      fun verdict _ q => q.At base (some reference) none (judged ++ [verdict]) outcomes := by
  have hjudge : p.Tracks (session.judge reference candidate)
      (do
        let verdict ← Progress.onState (session.judge reference candidate)
        Action.change fun p => { p with candidate? := none, judged := p.judged ++ [verdict] })
      fun verdict _ q => q.At base (some reference) none (judged ++ [verdict]) outcomes := by
    refine (h.onState (session.judge reference candidate)).note ?_
    intro verdict _ q hpost
    obtain ⟨rfl, hq⟩ := hpost
    exact ⟨rfl, hq.base, hq.reference, rfl, by rw [hq.judged], hq.outcomes⟩
  have hperform : (session.perform workload .judge).run p =
      (do
        let verdict ← Progress.onState (session.judge reference candidate)
        Action.change fun p =>
          { p with candidate? := none, judged := p.judged ++ [verdict] }).run p := by
    rw [Session.perform, run_bind_of_ok (run_world p)]
    simp only [h.reference, h.candidate]
  unfold Tracks
  rw [hperform]
  exact hjudge

theorem At.report {reference : Execution} (point : MatrixPoint)
    (h : p.At base (some reference) candidate? judged outcomes) :
    p.Tracks (pure (⟨point, reference, judged⟩ : Outcome))
      (session.performAll workload [.report point])
      fun outcome _ q => q.outcomes = outcomes ++ [outcome] := by
  have hperform : (session.performAll workload [.report point]).run p =
      (.ok (), { p with outcomes := outcomes ++ [⟨point, reference, judged⟩] }) := by
    rw [performAll, perform, run_bind_of_ok (run_change _ _), h.reference, h.outcomes, h.judged]
    rfl
  unfold Tracks
  rw [hperform]
  exact @Tracked.ok _ _ _ _ _ _ { p with outcomes := outcomes ++ [⟨point, reference, judged⟩] } rfl

theorem At.runStandard (h : p.At base reference? candidate? judged outcomes)
    (transport : Transport) :
    p.Tracks (session.runStandard workload transport)
      (session.performAll workload (MatrixPoint.stages ⟨transport, .standard⟩))
      fun outcome _ q => q.outcomes = outcomes ++ [outcome] := by
  refine (h.prepare session workload).bind ?_
  intro _ _ q h
  refine (h.readBase session workload).bind ?_
  intro base _ q h
  refine (h.runReference session workload).bind ?_
  intro reference _ q h
  refine (h.runOffload session workload transport false false).bind ?_
  intro standard _ q h
  refine (h.judge session workload).bind ?_
  intro standard _ q h
  refine (h.readBase session workload).bind ?_
  intro base _ q h
  refine (h.runOffload session workload transport false true).bind ?_
  intro spill _ q h
  refine (h.judge session workload).bind ?_
  intro spill _ q h
  exact h.report session workload ⟨transport, .standard⟩

theorem At.runRemoteMerge (h : p.At base reference? candidate? judged outcomes)
    (transport : Transport) :
    p.Tracks (session.runRemoteMerge workload transport)
      (session.performAll workload (MatrixPoint.stages ⟨transport, .remoteMerge⟩))
      fun outcome _ q => q.outcomes = outcomes ++ [outcome] := by
  refine (h.prepare session workload).bind ?_
  intro _ _ q h
  refine (h.readBase session workload).bind ?_
  intro base _ q h
  refine (h.runOffload session workload transport true false).bind ?_
  intro merged _ q h
  refine (h.readBase session workload).bind ?_
  intro base _ q h
  refine (h.runReference session workload).bind ?_
  intro reference _ q h
  refine (h.judge session workload).bind ?_
  intro merged _ q h
  exact h.report session workload ⟨transport, .remoteMerge⟩

theorem tracks_runPoint (p : Progress σ) (point : MatrixPoint) :
    p.Tracks (session.runPoint workload point) (session.performAll workload point.stages)
      fun outcome _ q => q.outcomes = p.outcomes ++ [outcome] := by
  have h : p.At p.base p.reference? p.candidate? p.judged p.outcomes := ⟨rfl, rfl, rfl, rfl, rfl⟩
  obtain ⟨transport, scenario⟩ := point
  cases scenario with
  | standard => exact h.runStandard session workload transport
  | remoteMerge => exact h.runRemoteMerge session workload transport

/-- Running a matrix is going through the stages of its points. -/
theorem tracks_runMatrix (p : Progress σ) (points : List MatrixPoint) :
    p.Tracks (session.runMatrix workload points)
      (session.performAll workload (points.flatMap MatrixPoint.stages))
      fun outcomes _ q => q.outcomes = p.outcomes ++ outcomes := by
  induction points generalizing p with
  | nil => exact .ok (List.append_nil _).symm
  | cons point points ih =>
    rw [List.flatMap_cons, performAll_append]
    refine (tracks_runPoint session workload p point).bind ?_
    intro outcome _ q hq
    have hrest := ih q
    have hmap : q.Tracks (session.runMatrix workload points >>= fun rest => pure (outcome :: rest))
        (session.performAll workload (points.flatMap MatrixPoint.stages) >>= pure)
        fun outcomes _ q => q.outcomes = p.outcomes ++ outcomes := by
      refine hrest.bind ?_
      intro rest _ q' hq'
      refine .ok ?_
      rw [hq', hq, List.append_assoc]
      rfl
    rw [bind_pure] at hmap
    exact hmap

end Progress
end OffloadCheck
