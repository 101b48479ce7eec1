import OffloadCheck.Job.Role
import OffloadCheck.Session.Sequence

/-! # What the plan of a run makes of the properties it starts from

A plan writes a fixed set of keys and leaves every other property as it was. Among the keys that
tell the role of a run, a reference plan writes none, and an offload plan turns the switch for the
merge on the servers on but never off. So a plan describes the role it is made for under conditions
on the properties it starts from, which are stated here exactly. -/
namespace OffloadCheck

open Job

namespace Job.Keys

/-- The keys that pin the memory of a run. -/
def pinned : List String := [mapOptions, mapMemory, reduceMemory, sortBuffer]

/-- The keys that put the shuffle of a run on the servers, but for the merge there. -/
def shuffle : List String :=
  [masterOptions, reduceOptions, outputCollector, shuffleConsumer, remoteSpill]

/-- The keys that put the client artifact on the classpaths. -/
def artifact : List String := [classpathFiles, applicationClasspath]

/-- The keys that lead a run to the servers. -/
def servers : List String := [coordinatorQuorum, transport]

end Job.Keys

namespace Properties

theorem get?_pinned (ps : Properties) (sizes : ResourceSizes) {key : String}
    (h : key ∉ Keys.pinned) : (ps.pinned sizes).get? key = ps.get? key := by
  simp only [Keys.pinned, List.mem_cons, List.not_mem_nil, or_false, not_or] at h
  simp [pinned, setInt, get?_set, h]

theorem get?_withOffloadShuffle (ps : Properties) (memory : UInt64) (remoteMerge remoteSpill : Bool)
    {key : String} (h : key ∉ Keys.shuffle) (hm : remoteMerge = true → key ≠ Keys.remoteMerge) :
    (ps.withOffloadShuffle memory remoteMerge remoteSpill).get? key = ps.get? key := by
  simp only [Keys.shuffle, List.mem_cons, List.not_mem_nil, or_false, not_or] at h
  cases remoteMerge with
  | true => simp [withOffloadShuffle, setSwitch, get?_set, h, hm rfl]
  | false => simp [withOffloadShuffle, setSwitch, get?_set, h]

theorem get?_withArtifact (ps : Properties) (artifact : StagedArtifact) (sharedName : String)
    {key : String} (h : key ∉ Keys.artifact) :
    (ps.withArtifact artifact sharedName).get? key = ps.get? key := by
  simp only [Keys.artifact, List.mem_cons, List.not_mem_nil, or_false, not_or] at h
  simp [withArtifact, appendList, get?_set, h]

/-- The switch for the merge on the servers is turned on or left as it was. -/
theorem getSwitch?_remoteMerge_withOffloadShuffle (ps : Properties) (memory : UInt64)
    (remoteMerge remoteSpill : Bool) :
    (ps.withOffloadShuffle memory remoteMerge remoteSpill).getSwitch? Keys.remoteMerge =
      if remoteMerge then some true else ps.getSwitch? Keys.remoteMerge := by
  cases remoteMerge with
  | true =>
    have hc : Keys.remoteMerge ≠ Keys.shuffleConsumer := by decide
    have hs : Keys.remoteMerge ≠ Keys.remoteSpill := by decide
    simp [withOffloadShuffle, getSwitch?, setSwitch, get?_set, hc, hs, Text.bool?_ofBool]
  | false =>
    have hframe := ps.get?_withOffloadShuffle memory false remoteSpill
      (show Keys.remoteMerge ∉ Keys.shuffle by decide) (by simp)
    rw [getSwitch?, hframe]
    rfl

/-- The switch for the remote spill is always written. -/
theorem getSwitch?_remoteSpill_withOffloadShuffle (ps : Properties) (memory : UInt64)
    (remoteMerge remoteSpill : Bool) :
    (ps.withOffloadShuffle memory remoteMerge remoteSpill).getSwitch? Keys.remoteSpill =
      some remoteSpill := by
  rw [withOffloadShuffle, getSwitch?_setSwitch]

theorem get?_outputCollector_withOffloadShuffle (ps : Properties) (memory : UInt64)
    (remoteMerge remoteSpill : Bool) :
    ((ps.withOffloadShuffle memory remoteMerge remoteSpill).get? Keys.outputCollector).isSome := by
  have hm : Keys.outputCollector ≠ Keys.remoteMerge := by decide
  have hc : Keys.outputCollector ≠ Keys.shuffleConsumer := by decide
  have hs : Keys.outputCollector ≠ Keys.remoteSpill := by decide
  cases remoteMerge <;> simp [withOffloadShuffle, setSwitch, get?_set, hm, hc, hs]

/-- The role depends on three keys only. -/
theorem role_congr {ps qs : Properties}
    (hc : ps.get? Keys.outputCollector = qs.get? Keys.outputCollector)
    (hm : ps.get? Keys.remoteMerge = qs.get? Keys.remoteMerge)
    (hs : ps.get? Keys.remoteSpill = qs.get? Keys.remoteSpill) : ps.role = qs.role := by
  simp only [role, getSwitch?, hc, hm, hs]

end Properties

namespace RunPlan

/-- The properties of a reference run describe whatever role the properties it starts from do. -/
theorem role_baseline (settings : Settings) (id : String) (base : Properties) :
    (baseline settings id base).properties.role = base.role := by
  have frame {key : String} (h : key ∉ Keys.outputDir :: Keys.pinned) :
      (baseline settings id base).properties.get? key = base.get? key := by
    rw [List.mem_cons, not_or] at h
    rw [baseline, ofProperties, Properties.get?_set, if_neg h.1, Properties.get?_pinned _ _ h.2]
  exact Properties.role_congr (frame (by decide)) (frame (by decide)) (frame (by decide))

variable (settings : Settings) (quorum : String) (artifact : StagedArtifact) (id : String)
  (base : Properties) (transport : Transport) (remoteMerge remoteSpill : Bool)

/-- The keys that tell the role are read from an offload plan as its shuffle wrote them. -/
theorem get?_offload_eq_shuffle (key : String)
    (h : key ∉ Keys.outputDir :: (Keys.artifact ++ Keys.servers)) :
    (offload settings quorum artifact id base transport remoteMerge
        remoteSpill).properties.get? key =
      ((base.pinned settings.resources).withOffloadShuffle settings.reduceDirectMemory remoteMerge
        remoteSpill).get? key := by
  simp only [List.mem_cons, List.mem_append, Keys.servers, List.not_mem_nil, or_false, not_or] at h
  obtain ⟨hdir, hartifact, hquorum, htransport⟩ := h
  rw [offload, ofProperties, Properties.get?_set, if_neg hdir, Properties.get?_set,
    if_neg htransport, Properties.get?_set, if_neg hquorum,
    Properties.get?_withArtifact _ _ _ hartifact]

theorem getSwitch?_remoteMerge_offload :
    (offload settings quorum artifact id base transport remoteMerge
        remoteSpill).properties.getSwitch? Keys.remoteMerge =
      if remoteMerge then some true else base.getSwitch? Keys.remoteMerge := by
  have h := get?_offload_eq_shuffle settings quorum artifact id base transport remoteMerge
    remoteSpill Keys.remoteMerge (by decide)
  have hp := base.get?_pinned settings.resources (show Keys.remoteMerge ∉ Keys.pinned by decide)
  rw [Properties.getSwitch?, h, ← Properties.getSwitch?,
    Properties.getSwitch?_remoteMerge_withOffloadShuffle, Properties.getSwitch?, hp,
    ← Properties.getSwitch?]

/-- The properties of an offload run describe its role, except that a merge on the servers which the
properties it starts from ask for stays. -/
theorem role_offload :
    (offload settings quorum artifact id base transport remoteMerge remoteSpill).properties.role =
      Role.ofSwitches (remoteMerge || base.getSwitch? Keys.remoteMerge == some true)
        remoteSpill := by
  have hc := get?_offload_eq_shuffle settings quorum artifact id base transport remoteMerge
    remoteSpill Keys.outputCollector (by decide)
  have hs := get?_offload_eq_shuffle settings quorum artifact id base transport remoteMerge
    remoteSpill Keys.remoteSpill (by decide)
  have hsome := Properties.get?_outputCollector_withOffloadShuffle (base.pinned settings.resources)
    settings.reduceDirectMemory remoteMerge remoteSpill
  have hspill := Properties.getSwitch?_remoteSpill_withOffloadShuffle
    (base.pinned settings.resources) settings.reduceDirectMemory remoteMerge remoteSpill
  rw [← hc, Option.isSome_iff_ne_none] at hsome
  rw [Properties.getSwitch?, ← hs, ← Properties.getSwitch?] at hspill
  rw [Properties.role, getSwitch?_remoteMerge_offload, hspill, if_neg (by simpa using hsome)]
  cases remoteMerge with
  | true => rfl
  | false => cases base.getSwitch? Keys.remoteMerge with
    | none => rfl
    | some switch => cases switch <;> rfl

end RunPlan

namespace Session

variable {σ : Type} (session : Session σ)

theorem run_planBaseline (base : Properties) (s : State σ) :
    (session.planBaseline base).run s =
      (.ok (RunPlan.baseline session.settings (session.host.runId s.planned) base),
        { s with planned := s.planned + 1 }) := rfl

/-- An offload run is planned exactly when its preconditions hold. -/
theorem run_planOffload (base : Properties) (transport : Transport)
    (remoteMerge remoteSpill : Bool) (s : State σ) :
    (session.planOffload base transport remoteMerge remoteSpill).run s =
      match session.preflight.run s with
      | (.ok artifact, t) =>
        (.ok (RunPlan.offload session.settings session.quorum artifact
          (session.host.runId t.planned) base transport remoteMerge remoteSpill),
          { t with planned := t.planned + 1 })
      | (.error e, t) => (.error e, t) := by
  rcases h : session.preflight.run s with ⟨e | artifact, t⟩
  · exact Action.run_bind_of_error h
  · exact Action.run_bind_of_ok h

theorem planOffload_eq_ok {base : Properties} {transport : Transport}
    {remoteMerge remoteSpill : Bool} {s t : State σ} {plan : RunPlan}
    (h : (session.planOffload base transport remoteMerge remoteSpill).run s = (.ok plan, t)) :
    ∃ artifact id, plan = RunPlan.offload session.settings session.quorum artifact id base transport
      remoteMerge remoteSpill := by
  rw [run_planOffload] at h
  rcases hp : session.preflight.run s with ⟨e | artifact, u⟩
  · rw [hp] at h
    cases h
  · rw [hp] at h
    cases h
    exact ⟨artifact, session.host.runId u.planned, rfl⟩

/-- The properties of a planned run describe its role under exact conditions on the properties it
starts from: a reference run when they name no collector, an offload run without a merge on the
servers when they do not ask for one. An offload run with such a merge always describes it. -/
theorem plans_describe_role_iff (base : Properties) (s : State σ) :
    (∃ plan t, (session.planBaseline base).run s = (.ok plan, t) ∧ plan.role = .reference ∧
      (plan.properties.role = plan.role ↔ base.get? Keys.outputCollector = none)) ∧
    ∀ transport remoteMerge remoteSpill plan t,
      (session.planOffload base transport remoteMerge remoteSpill).run s = (.ok plan, t) →
        plan.role = Role.ofSwitches remoteMerge remoteSpill ∧
        (plan.properties.role = plan.role ↔
          remoteMerge = true ∨ base.getSwitch? Keys.remoteMerge ≠ some true) ∧
        ((plan.properties.getSwitch? Keys.remoteMerge = some true ↔ remoteMerge = true) ↔
          remoteMerge = true ∨ base.getSwitch? Keys.remoteMerge ≠ some true) := by
  constructor
  · refine ⟨_, _, session.run_planBaseline base s, rfl, ?_⟩
    rw [RunPlan.role_baseline]
    change base.role = .reference ↔ _
    cases hc : base.get? Keys.outputCollector with
    | none => simp [Properties.role, hc]
    | some class_ =>
      simp only [Properties.role, hc, Option.isNone_some, reduceCtorEq, iff_false]
      cases (base.getSwitch? Keys.remoteMerge).getD false <;>
        cases (base.getSwitch? Keys.remoteSpill).getD false <;> simp [Role.ofSwitches]
  · intro transport remoteMerge remoteSpill plan t h
    obtain ⟨artifact, id, rfl⟩ := session.planOffload_eq_ok h
    refine ⟨rfl, ?_, ?_⟩
    · rw [RunPlan.role_offload]
      change _ = Role.ofSwitches remoteMerge remoteSpill ↔ _
      by_cases hb : base.getSwitch? Keys.remoteMerge = some true <;>
        cases remoteMerge <;> cases remoteSpill <;> simp [Role.ofSwitches, hb]
    · rw [RunPlan.getSwitch?_remoteMerge_offload]
      cases remoteMerge <;> simp

/-- A session that requires nothing of its environment and finds its client artifact in place. -/
def sample : Session Unit where
  id := "sample"
  settings := { Settings.default with requiredEnv := [] }
  host := ⟨fun _ _ => false, fun _ => default, Text.ofNat⟩
  cluster := ⟨fun _ => pure (), pure (), fun _ => .empty, fun ps _ => pure ⟨0, ps⟩⟩
  servers := ⟨fun _ => pure (), fun _ => pure (), fun _ => "host:1", pure ()⟩
  clusterFs := storage
  buildFs := storage
  quorum := "host:1"
where
  /-- A filesystem on which everything is there and nothing can be read or changed. -/
  storage : FileSystem Unit :=
    ⟨fun _ => pure [], fun p => .fail (.isADirectory p), fun p => .fail (.isADirectory p),
      fun p _ => .fail (.isADirectory p), fun _ _ => pure false, fun _ _ => true⟩

/-- The state of the sample session with its client artifact staged. -/
def sampleState : State Unit := ⟨(), some ⟨"client.jar", ⟨"/rss.jar/client.jar"⟩⟩, false, 0⟩

theorem sample_describes_role : ∃ plan t,
    (sample.planOffload .empty .grpc false true).run sampleState = (.ok plan, t) ∧
      plan.role = .remoteSpillOffload ∧ plan.properties.role = plan.role := by
  obtain ⟨plan, t, h⟩ : ∃ plan t,
      (sample.planOffload .empty .grpc false true).run sampleState = (.ok plan, t) :=
    ⟨_, _, sample.run_planOffload .empty .grpc false true sampleState⟩
  obtain ⟨hrole, hdescribed, _⟩ :=
    (plans_describe_role_iff sample .empty sampleState).2 .grpc false true plan t h
  exact ⟨plan, t, h, hrole, hdescribed.2 (.inr (by decide))⟩

/-- Started from properties that name a collector, a reference run describes an offload run;
started from properties that ask for a merge on the servers, a standard offload run describes one
with it. -/
theorem plans_inherit_role :
    (∃ plan t, (sample.planBaseline (Properties.set .empty Keys.outputCollector "collector")).run
        sampleState = (.ok plan, t) ∧
      plan.role = .reference ∧ plan.properties.role = .standardOffload) ∧
    ∃ plan t, (sample.planOffload (Properties.setSwitch .empty Keys.remoteMerge true) .grpc false
        false).run sampleState = (.ok plan, t) ∧
      plan.role = .standardOffload ∧ plan.properties.role = .remoteMergeOffload := by
  constructor
  · refine ⟨_, _, sample.run_planBaseline _ sampleState, rfl, ?_⟩
    rw [RunPlan.role_baseline]
    decide
  · refine ⟨_, _, sample.run_planOffload _ .grpc false false sampleState, rfl, ?_⟩
    rw [RunPlan.role_offload, Properties.getSwitch?_setSwitch]
    rfl

end Session
end OffloadCheck
