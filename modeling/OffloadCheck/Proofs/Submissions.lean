import OffloadCheck.Proofs.Invariants
import OffloadCheck.Proofs.Plans
import OffloadCheck.Proofs.Stages

/-! # What stages submit

A session that records what its cluster is handed goes through stages just as the session itself
does, and its record is the list of requests in the progress. A stage adds to this list the one run
that it is there for, unless it fails before it gets to submit it, and every submitted run has taken
the next identifier. -/
namespace OffloadCheck

open OffloadCheck.Action

variable {σ α : Type}

/-! ## Stages on the record -/

namespace Session

open Progress

variable (session : Session σ) (workload : Workload)

theorem follows_onState {x : Step σ α} {y : Step (σ × List Request) α}
    (h : ∀ record, Follows (State.beside record) Eq x y) :
    Follows (withRecord workload) Eq (onState x) (onState y) := by
  refine follows_of_run_eq fun p => ?_
  have hxy := (h (p.requests workload)).run_eq p.state
  have hstate : (p.withRecord workload).state = p.state.beside (p.requests workload) := rfl
  rw [onState, onState, run_within, run_within, hstate, hxy]
  rfl

theorem follows_note {g : Progress σ → Progress σ}
    {h : Progress (σ × List Request) → Progress (σ × List Request)}
    (hgh : ∀ p, h (p.withRecord workload) = (g p).withRecord workload) :
    Follows (withRecord workload) Eq (Action.change g : Action (Progress σ) Failure Unit)
      (Action.change h) := by
  refine follows_of_run_eq fun p => ?_
  rw [run_change, run_change, hgh]

/-- The request of a run goes on the record with the run itself. -/
theorem follows_submitRun (plan : RunPlan) :
    Follows (withRecord workload) Eq (session.submitRun workload plan)
      (session.recorded.submitRun workload plan) := by
  refine follows_of_run_eq fun p => ?_
  have hexecute := session.run_execute_recorded workload plan p.state (p.requests workload)
  simp only [run] at hexecute
  unfold submitRun
  rw [run_bind_of_ok (run_change _ _), run_bind_of_ok (run_change _ _)]
  simp only [run, onState, within, withRecord, requests, List.map_append, List.map_cons,
    List.map_nil] at hexecute ⊢
  rw [hexecute]

theorem follows_planRun (mode : Mode) (base : Properties) (record : List Request) :
    Follows (State.beside record) Eq (session.planRun mode base)
      (session.recorded.planRun mode base) := by
  cases mode with
  | baseline => exact (session.mirrored_recorded record).planBaseline base
  | offload transport remoteMerge remoteSpill =>
    exact (session.mirrored_recorded record).planOffload base transport remoteMerge remoteSpill

theorem follows_perform (stage : Stage) :
    Follows (withRecord workload) Eq (session.perform workload stage)
      (session.recorded.perform workload stage) := by
  cases stage with
  | prepare =>
    refine (follows_onState workload fun record =>
      (session.mirrored_recorded record).preflight.discard).bind ?_
    intro _ _ _
    exact follows_note workload fun p => rfl
  | readBase =>
    refine (follows_onState workload fun record =>
      follows_observe (session.mirrored_recorded record).baseProperties).bind ?_
    intro base _ hbase
    subst hbase
    exact follows_note workload fun p => rfl
  | run mode =>
    refine follows_world.bind ?_
    intro p _ hp
    subst hp
    refine (follows_onState workload (session.follows_planRun mode p.base)).bind ?_
    intro plan _ hplan
    subst hplan
    refine (session.follows_submitRun workload plan).bind ?_
    intro execution _ hexecution
    subst hexecution
    refine follows_note workload fun q => ?_
    unfold finish
    split <;> rfl
  | judge =>
    refine follows_world.bind ?_
    intro p _ hp
    subst hp
    obtain ⟨state, base, reference?, candidate?, judged, submitted, outcomes⟩ := p
    cases reference? with
    | none => exact follows_pure rfl
    | some reference =>
      cases candidate? with
      | none => exact follows_pure rfl
      | some candidate =>
        refine (follows_onState workload fun record =>
          (session.mirrored_recorded record).judge reference candidate).bind ?_
        intro verdict _ hverdict
        subst hverdict
        exact follows_note workload fun q => rfl
  | report point =>
    refine follows_note workload fun p => ?_
    obtain ⟨state, base, reference?, candidate?, judged, submitted, outcomes⟩ := p
    cases reference? with
    | none => rfl
    | some reference => rfl

theorem follows_performAll (stages : List Stage) :
    Follows (withRecord workload) Eq (session.performAll workload stages)
      (session.recorded.performAll workload stages) := by
  induction stages with
  | nil => exact follows_pure rfl
  | cons stage stages ih =>
    refine (session.follows_perform workload stage).bind ?_
    intro _ _ _
    exact ih

end Session

/-! ## Steps that plan and submit nothing -/

namespace Session

open Progress

variable (session : Session σ) (workload : Workload)

theorem keeps_onWorld (x : Action σ Failure α) : Keeps State.planned (onWorld x) := fun _ => rfl

theorem keeps_observe (f : σ → α) : Keeps State.planned (observe f) := fun _ => rfl

theorem keeps_preflight : Keeps State.planned session.preflight := by
  refine keeps_world.bind fun s => ?_
  split
  · exact keeps_fail _
  · refine (keeps_onWorld _).bind fun _ => keeps_world.bind fun s => ?_
    split
    · exact keeps_pure _
    · refine (keeps_onWorld _).bind fun artifact => ?_
      refine Keeps.bind ?_ fun _ => keeps_pure artifact
      exact keeps_change fun _ => rfl

theorem keeps_execute (plan : RunPlan) : Keeps State.planned (session.execute workload plan) := by
  refine (keeps_observe _).bind fun startedAt => (keeps_onWorld _).bind fun result => ?_
  refine (keeps_observe _).bind fun finishedAt => ?_
  split
  · exact keeps_pure _
  · exact keeps_fail _

theorem keeps_judge (reference candidate : Execution) :
    Keeps State.planned (session.judge reference candidate) := by
  refine (keeps_onWorld _).bind fun verdict => ?_
  split
  · exact keeps_fail _
  · exact keeps_pure _

/-- A plan takes the next identifier; where there is no plan, none is taken. -/
theorem run_planRun (mode : Mode) (base : Properties) (s : State σ) :
    (∃ plan t, (session.planRun mode base).run s = (.ok plan, t) ∧ plan.role = mode.role ∧
      plan.outputDirectory = RunPlan.outputFor session.settings mode.role
        (session.host.runId s.planned) ∧ t.planned = s.planned + 1) ∨
    ∃ e t, (session.planRun mode base).run s = (.error e, t) ∧ t.planned = s.planned := by
  cases mode with
  | baseline => exact .inl ⟨_, _, session.run_planBaseline base s, rfl, rfl, rfl⟩
  | offload transport remoteMerge remoteSpill =>
    have hrun := session.run_planOffload base transport remoteMerge remoteSpill s
    have hkeeps := session.keeps_preflight s
    rcases hp : session.preflight.run s with ⟨e | artifact, t⟩
    · rw [hp] at hrun hkeeps
      exact .inr ⟨e, t, hrun, hkeeps⟩
    · rw [hp] at hrun hkeeps
      have hplanned : t.planned = s.planned := hkeeps
      refine .inl ⟨_, _, hrun, rfl, ?_, ?_⟩
      · rw [hplanned]
        rfl
      · rw [← hplanned]

end Session

/-! ## What stages submit -/

namespace Session

/-- The output directories of runs of the given roles that are planned after so many others. -/
def outputsFrom (session : Session σ) (planned : Nat) (roles : List Role) : List Path :=
  (roles.zipIdx planned).map fun r =>
    RunPlan.outputFor session.settings r.1 (session.host.runId r.2)

theorem outputsFrom_append (session : Session σ) (planned : Nat) (early late : List Role) :
    session.outputsFrom planned (early ++ late) =
      session.outputsFrom planned early ++ session.outputsFrom (planned + early.length) late := by
  rw [outputsFrom, List.zipIdx_append, List.map_append]
  rfl

end Session

namespace Progress

open Session

variable (session : Session σ) (workload : Workload) {p q r : Progress σ} {early late : List Role}

/-- What submissions and plans there have been. -/
def count (p : Progress σ) : List RunPlan × Nat := (p.submitted, p.state.planned)

/-- From `p` to `q`, runs of the given roles are submitted in their order, each with the next
identifier. -/
structure Adds (p q : Progress σ) (added : List Role) : Prop where
  roles : q.submitted.map (·.role) = p.submitted.map (·.role) ++ added
  outputs : q.submitted.map (·.outputDirectory) =
    p.submitted.map (·.outputDirectory) ++ session.outputsFrom p.state.planned added
  planned : q.state.planned = p.state.planned + added.length

variable {session}

theorem Adds.of_count (h : q.count = p.count) : Adds session p q [] := by
  obtain ⟨hsubmitted, hplanned⟩ := Prod.mk.inj h
  constructor
  · rw [hsubmitted, List.append_nil]
  · rw [hsubmitted]
    exact (List.append_nil _).symm
  · exact hplanned

theorem Adds.trans (hpq : Adds session p q early) (hqr : Adds session q r late) :
    Adds session p r (early ++ late) := by
  constructor
  · rw [hqr.roles, hpq.roles, List.append_assoc]
  · rw [hqr.outputs, hpq.outputs, hpq.planned, outputsFrom_append, List.append_assoc]
  · rw [hqr.planned, hpq.planned, List.length_append, Nat.add_assoc]

theorem keeps_count_onState {x : Step σ α} (h : Keeps State.planned x) :
    Keeps count (onState x) := fun p => Prod.ext rfl (h p.state)

end Progress

namespace Session

open Progress

variable (session : Session σ) (workload : Workload)

theorem keeps_count_perform {stage : Stage} (h : stage.roles = []) :
    Keeps count (session.perform workload stage) := by
  cases stage with
  | prepare =>
    refine (keeps_count_onState session.keeps_preflight.discard).bind fun _ => ?_
    exact keeps_change fun _ => rfl
  | readBase =>
    refine (keeps_count_onState (keeps_observe _)).bind fun base => ?_
    exact keeps_change fun _ => rfl
  | run mode => cases h
  | judge =>
    refine keeps_world.bind fun p => ?_
    split
    · refine (keeps_count_onState (session.keeps_judge _ _)).bind fun verdict => ?_
      exact keeps_change fun _ => rfl
    · exact keeps_pure ()
  | report point =>
    refine keeps_change fun p => ?_
    split
    · rfl
    · rfl

/-- The stage of a run submits the plan that it makes, and nothing when it makes none. -/
theorem count_run (mode : Mode) (p : Progress σ) :
    (∃ plan t, (session.planRun mode p.base).run p.state = (.ok plan, t) ∧
      ((session.perform workload (.run mode)).run p).2.count =
        (p.submitted ++ [plan], t.planned)) ∨
    ∃ e t, (session.planRun mode p.base).run p.state = (.error e, t) ∧
      (session.perform workload (.run mode)).run p = (.error e, { p with state := t }) := by
  have hworld : (session.perform workload (.run mode)).run p =
      (do
        let plan ← onState (session.planRun mode p.base)
        let execution ← session.submitRun workload plan
        Action.change (finish mode execution)).run p := rfl
  rw [hworld]
  rcases hrun : (session.planRun mode p.base).run p.state with ⟨e | plan, t⟩
  · have hplan : (onState (session.planRun mode p.base)).run p =
        (.error e, { p with state := t }) := by
      rw [onState, run_within, hrun]
    exact .inr ⟨e, t, rfl, run_bind_of_error hplan⟩
  · have hplan : (onState (session.planRun mode p.base)).run p =
        (.ok plan, { p with state := t }) := by
      rw [onState, run_within, hrun]
    -- Nothing behind the submission plans or submits, however the execution ends.
    have hafter : Keeps count (do
        let execution ← onState (session.execute workload plan)
        Action.change (finish mode execution)) := by
      refine (keeps_count_onState (session.keeps_execute workload plan)).bind fun execution => ?_
      refine keeps_change fun q => ?_
      unfold finish
      split
      · rfl
      · rfl
    rw [run_bind_of_ok hplan]
    exact .inl ⟨plan, t, rfl, hafter { p with state := t, submitted := p.submitted ++ [plan] }⟩

/-- A run that is planned is submitted, and then counts whatever becomes of it. -/
theorem adds_run (mode : Mode) (p : Progress σ) :
    (∃ e q, (session.perform workload (.run mode)).run p = (.error e, q) ∧ p.Adds session q []) ∨
      p.Adds session ((session.perform workload (.run mode)).run p).2 [mode.role] := by
  have hplanRun := session.run_planRun mode p.base p.state
  rcases session.count_run workload mode p with ⟨plan, t, hrun, hcount⟩ | ⟨e, t, hrun, hperform⟩
  · right
    obtain ⟨hsubmitted, hstate⟩ := Prod.mk.inj hcount
    rw [hrun] at hplanRun
    rcases hplanRun with ⟨_, _, heq, hrole, houtput, hplanned⟩ | ⟨_, _, heq, _⟩
    · cases heq
      constructor
      · refine (congrArg (List.map RunPlan.role) hsubmitted).trans ?_
        simp [hrole]
      · refine (congrArg (List.map RunPlan.outputDirectory) hsubmitted).trans ?_
        simp [houtput, outputsFrom]
      · exact hstate.trans hplanned
    · cases heq
  · left
    rw [hrun] at hplanRun
    rcases hplanRun with ⟨_, _, heq, _⟩ | ⟨_, _, heq, hplanned⟩
    · cases heq
    · cases heq
      exact ⟨e, { p with state := t }, hperform, Adds.of_count (Prod.ext rfl hplanned)⟩

/-- A stage submits what it is there for, or it fails before it gets to submit it. -/
theorem adds_perform (stage : Stage) (p : Progress σ) :
    (∃ e q, (session.perform workload stage).run p = (.error e, q) ∧ p.Adds session q []) ∨
      p.Adds session ((session.perform workload stage).run p).2 stage.roles := by
  by_cases h : stage.roles = []
  · right
    rw [h]
    exact Adds.of_count (session.keeps_count_perform workload h p)
  · cases stage with
    | run mode => exact session.adds_run workload mode p
    | prepare | readBase | judge | report => exact absurd rfl h

theorem adds_performAll {stages : List Stage} {p q : Progress σ}
    (h : (session.performAll workload stages).run p = (.ok (), q)) :
    p.Adds session q (stages.flatMap Stage.roles) := by
  induction stages generalizing p with
  | nil =>
    cases h
    exact Adds.of_count rfl
  | cons stage stages ih =>
    obtain ⟨_, m, hstage, hstages⟩ := run_bind_eq_ok_iff.1 h
    rw [List.flatMap_cons]
    refine Adds.trans ?_ (ih hstages)
    rcases session.adds_perform workload stage p with ⟨e, q', herror, _⟩ | hadds
    · rw [hstage] at herror
      cases herror
    · rw [hstage] at hadds
      exact hadds

end Session
end OffloadCheck
