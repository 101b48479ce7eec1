import OffloadCheck.Session.Artifact
import OffloadCheck.Storage.Memory

/-! # The slot of the staged artifact

A request for the client artifact is answered from the slot of the session as long as something is
present under the path named there; else the artifact is staged, and the slot changes only when that
succeeds. So a failed attempt leaves in the slot what was found missing, and what is answered later
without another attempt is decided by that slot and by what lies under its path at that time. -/
namespace OffloadCheck.Session

variable {σ α : Type}

/-! ## Steps on the world -/

variable {session : Session σ} {artifact : StagedArtifact} {s t u : State σ}

theorem run_onWorld {x : Action σ Failure α} {r : Except Failure α} {w : σ}
    (h : x.run s.world = (r, w)) : (onWorld x).run s = (r, { s with world := w }) := by
  rw [onWorld, Action.run_within, h]

theorem onWorld_eq_ok {x : Action σ Failure α} {a : α} (h : (onWorld x).run s = (.ok a, t)) :
    x.run s.world = (.ok a, t.world) ∧ t = { s with world := t.world } := by
  obtain ⟨w, hrun, rfl⟩ := Action.run_within_eq_ok_iff.1 h
  exact ⟨hrun, rfl⟩

/-! ## Staging -/

theorem run_locateArtifact {w w' : σ} {listing : List Entry} {name : String}
    (hlist : (session.buildFs.list session.settings.artifactDir).run w = (.ok listing, w'))
    (hname : pickArtifact? session.settings.artifactPrefix listing = some name) :
    session.locateArtifact.run w = (.ok name, w') := by
  unfold locateArtifact
  rw [Action.run_bind_of_ok (Action.run_mapError_of_ok hlist _), hname]
  rfl

theorem locateArtifact_eq_ok {w w' : σ} {name : String}
    (h : session.locateArtifact.run w = (.ok name, w')) :
    ∃ listing, (session.buildFs.list session.settings.artifactDir).run w = (.ok listing, w') ∧
      pickArtifact? session.settings.artifactPrefix listing = some name := by
  obtain ⟨listing, u, hlist, h⟩ := Action.run_bind_eq_ok_iff.1 h
  split at h
  · next found hfound =>
    cases h
    exact ⟨listing, Action.run_mapError_eq_ok_iff.1 hlist, hfound⟩
  · cases h

theorem run_stageArtifact_of_ok {w w' w'' : σ} {name : String} {n : Nat}
    (hname : session.locateArtifact.run w = (.ok name, w'))
    (h : (session.buildFs.transfer (session.settings.artifactDir.join name) session.clusterFs
      (session.settings.sharedArtifactDir.join name)).run w' = (.ok n, w'')) :
    session.stageArtifact.run w = (.ok ⟨name, session.settings.sharedArtifactDir.join name⟩, w'') := by
  have hmapped := Action.run_mapError_of_ok h Failure.storage
  unfold stageArtifact
  rw [Action.run_bind_of_ok hname]
  exact Action.run_bind_of_ok (Action.run_discard_of_ok hmapped)

theorem run_stageArtifact_of_error {w w' w'' : σ} {name : String} {e : StorageError}
    (hname : session.locateArtifact.run w = (.ok name, w'))
    (h : (session.buildFs.transfer (session.settings.artifactDir.join name) session.clusterFs
      (session.settings.sharedArtifactDir.join name)).run w' = (.error e, w'')) :
    session.stageArtifact.run w = (.error (.storage e), w'') := by
  have hmapped := Action.run_mapError_of_error h Failure.storage
  unfold stageArtifact
  rw [Action.run_bind_of_ok hname]
  exact Action.run_bind_of_error (Action.run_discard_of_error hmapped)

/-- The staged artifact is the located file, copied under its name. -/
theorem stageArtifact_eq_ok {w w'' : σ} (h : session.stageArtifact.run w = (.ok artifact, w'')) :
    ∃ w' n, session.locateArtifact.run w = (.ok artifact.fileName, w') ∧
      artifact.sharedPath = session.settings.sharedArtifactDir.join artifact.fileName ∧
      (session.buildFs.transfer (session.settings.artifactDir.join artifact.fileName)
        session.clusterFs artifact.sharedPath).run w' = (.ok n, w'') := by
  obtain ⟨name, w', hname, h⟩ := Action.run_bind_eq_ok_iff.1 h
  obtain ⟨_, u, hdiscard, hpure⟩ := Action.run_bind_eq_ok_iff.1 h
  obtain ⟨n, v, htransfer, hunit⟩ := Action.run_bind_eq_ok_iff.1 hdiscard
  cases hunit
  cases hpure
  exact ⟨w', n, hname, rfl, Action.run_mapError_eq_ok_iff.1 htransfer⟩

/-! ## Answers from the slot -/

/-- The staged artifact, if something is still present under its path. -/
def State.held (fs : FileSystem σ) (s : State σ) : Option StagedArtifact :=
  s.staged.filter fun a => fs.isPresent a.sharedPath s.world

theorem held_eq_some_iff {fs : FileSystem σ} : s.held fs = some artifact ↔
    s.staged = some artifact ∧ fs.isPresent artifact.sharedPath s.world = true :=
  Option.filter_eq_some_iff

variable {fs : FileSystem σ} {stage : Action σ Failure StagedArtifact}

theorem run_stagedOr_of_held (h : s.held fs = some artifact)
    (stage : Action σ Failure StagedArtifact) :
    (stagedOr fs stage).run s = (.ok artifact, s) := by
  unfold State.held at h
  unfold stagedOr
  rw [Action.run_bind_of_ok (Action.run_world s)]
  simp only [h]
  rfl

theorem run_stagedOr_of_not_held (h : s.held fs = none) : (stagedOr fs stage).run s =
    (do
      let artifact ← onWorld stage
      Action.change fun s => { s with staged := some artifact }
      return artifact : Step σ StagedArtifact).run s := by
  unfold State.held at h
  unfold stagedOr
  rw [Action.run_bind_of_ok (Action.run_world s)]
  simp only [h]

/-- What is staged goes into the slot. -/
theorem run_stagedOr_of_stage (h : s.held fs = none) {w : σ}
    (hstage : stage.run s.world = (.ok artifact, w)) : (stagedOr fs stage).run s =
      (.ok artifact, { s with world := w, staged := some artifact }) := by
  rw [run_stagedOr_of_not_held h, Action.run_bind_of_ok (run_onWorld hstage)]
  rfl

/-- A request is answered from the slot, or by staging, which renews the slot. -/
theorem stagedOr_eq_ok (h : (stagedOr fs stage).run s = (.ok artifact, t)) :
    (s.held fs = some artifact ∧ t = s) ∨
      s.held fs = none ∧ stage.run s.world = (.ok artifact, t.world) ∧
        t = { s with world := t.world, staged := some artifact } := by
  cases hheld : s.held fs with
  | some found =>
    rw [run_stagedOr_of_held hheld] at h
    cases h
    exact .inl ⟨rfl, rfl⟩
  | none =>
    rw [run_stagedOr_of_not_held hheld] at h
    obtain ⟨found, v, hstage, h⟩ := Action.run_bind_eq_ok_iff.1 h
    obtain ⟨hstage, hv⟩ := onWorld_eq_ok hstage
    cases h
    refine .inr ⟨rfl, hstage, ?_⟩
    rw [hv]

/-- A request fails when staging does, and then the slot stays as it was. -/
theorem stagedOr_eq_error {e : Failure} (h : (stagedOr fs stage).run s = (.error e, t)) :
    s.held fs = none ∧ stage.run s.world = (.error e, t.world) ∧
      t = { s with world := t.world } := by
  cases hheld : s.held fs with
  | some found =>
    rw [run_stagedOr_of_held hheld] at h
    cases h
  | none =>
    rw [run_stagedOr_of_not_held hheld] at h
    rcases hrun : stage.run s.world with ⟨e' | found, w⟩
    · rw [Action.run_bind_of_error (run_onWorld hrun)] at h
      cases h
      exact ⟨rfl, rfl, rfl⟩
    · rw [Action.run_bind_of_ok (run_onWorld hrun)] at h
      cases h

/-! ## Preflights -/

/-- The session is open and its environment is complete. -/
structure Admits (session : Session σ) (s : State σ) : Prop where
  opened : s.closed = false
  environment : session.settings.requiredEnv.find? (fun name => !session.host.isSet name s.world) =
    none

theorem run_checkEnvironment {w : σ}
    (h : session.settings.requiredEnv.find? (fun name => !session.host.isSet name w) = none) :
    session.checkEnvironment.run w = (.ok (), w) := by
  unfold checkEnvironment
  rw [Action.run_bind_of_ok (Action.run_world w), h]
  rfl

theorem run_checkEnvironment_of_unset {w : σ} {name : String}
    (h : session.settings.requiredEnv.find? (fun name => !session.host.isSet name w) = some name) :
    session.checkEnvironment.run w =
      (.error (.configuration ("environment variable " ++ name ++ " must be set")), w) := by
  unfold checkEnvironment
  rw [Action.run_bind_of_ok (Action.run_world w), h]
  rfl

theorem checkEnvironment_eq_ok {w w' : σ} (h : session.checkEnvironment.run w = (.ok (), w')) :
    w' = w ∧
      session.settings.requiredEnv.find? (fun name => !session.host.isSet name w) = none := by
  unfold checkEnvironment at h
  rw [Action.run_bind_of_ok (Action.run_world w)] at h
  split at h
  · cases h
  · next hfind =>
    cases h
    exact ⟨rfl, hfind⟩

/-- What a preflight asks for once it has checked the rest. -/
theorem Admits.run_preflight (h : session.Admits s) :
    session.preflight.run s = (stagedOr session.clusterFs session.stageArtifact).run s := by
  unfold preflight
  rw [Action.run_bind_of_ok (Action.run_world s), if_neg (by rw [h.opened]; simp),
    Action.run_bind_of_ok (run_onWorld (run_checkEnvironment h.environment))]

theorem preflight_eq_ok (h : session.preflight.run s = (.ok artifact, t)) :
    session.Admits s ∧
      (stagedOr session.clusterFs session.stageArtifact).run s = (.ok artifact, t) := by
  have hadmits : session.Admits s := by
    obtain ⟨_, _, hworld, h⟩ := Action.run_bind_eq_ok_iff.1 h
    cases hworld
    by_cases hclosed : s.closed = true
    · rw [if_pos hclosed] at h
      cases h
    · rw [if_neg hclosed] at h
      obtain ⟨_, u, hcheck, _⟩ := Action.run_bind_eq_ok_iff.1 h
      exact ⟨Bool.eq_false_iff.2 hclosed, (checkEnvironment_eq_ok (onWorld_eq_ok hcheck).1).2⟩
  rw [hadmits.run_preflight] at h
  exact ⟨hadmits, h⟩

theorem run_preflight_of_not_admits (h : ¬ session.Admits s) :
    ∃ e, session.preflight.run s = (.error e, s) := by
  unfold preflight
  rw [Action.run_bind_of_ok (Action.run_world s)]
  by_cases hclosed : s.closed = true
  · rw [if_pos hclosed]
    exact ⟨_, rfl⟩
  · rw [if_neg hclosed]
    cases hfind : session.settings.requiredEnv.find? fun name =>
        !session.host.isSet name s.world with
    | none => exact absurd ⟨Bool.eq_false_iff.2 hclosed, hfind⟩ h
    | some name =>
      exact ⟨_, Action.run_bind_of_error
        (run_onWorld (run_checkEnvironment_of_unset hfind))⟩

/-- A preflight leaves the world as it is or as staging leaves it. -/
theorem world_preflight (session : Session σ) (s : State σ) :
    (session.preflight.run s).2.world = s.world ∨
      (session.preflight.run s).2.world = (session.stageArtifact.run s.world).2 := by
  by_cases hadmits : session.Admits s
  · rcases hrun : session.preflight.run s with ⟨e | artifact, t⟩
    · rw [hadmits.run_preflight] at hrun
      obtain ⟨_, hstage, _⟩ := stagedOr_eq_error hrun
      rw [hstage]
      exact .inr rfl
    · rw [hadmits.run_preflight] at hrun
      rcases stagedOr_eq_ok hrun with ⟨_, rfl⟩ | ⟨_, hstage, _⟩
      · exact .inl rfl
      · rw [hstage]
        exact .inr rfl
  · obtain ⟨e, hrun⟩ := run_preflight_of_not_admits hadmits
    rw [hrun]
    exact .inl rfl

/-! ## After a failed attempt -/

/-- What happens to a session. -/
inductive Happening (σ : Type)
  /-- The artifact is asked for and staged by the given step when the slot does not answer. -/
  | request (stage : Action σ Failure StagedArtifact)
  /-- Something else changes the world. -/
  | change (f : σ → σ)

namespace Happening

/-- The state that something leaves. -/
def next (fs : FileSystem σ) (s : State σ) : Happening σ → State σ
  | .request stage => ((stagedOr fs stage).run s).2
  | .change f => { s with world := f s.world }

/-- An artifact is staged. -/
def Stages (fs : FileSystem σ) (s : State σ) : Happening σ → Prop
  | .request stage => s.held fs = none ∧ ∃ artifact w, stage.run s.world = (.ok artifact, w)
  | .change _ => False

/-- The state that a history leaves. -/
def after (fs : FileSystem σ) (s : State σ) (history : List (Happening σ)) : State σ :=
  history.foldl (next fs) s

/-- Nothing is staged in a history, though it may have been tried. -/
def Barren (fs : FileSystem σ) (s : State σ) : List (Happening σ) → Prop
  | [] => True
  | event :: history => ¬ event.Stages fs s ∧ Barren fs (event.next fs s) history

/-- The slot changes only when an artifact is staged. -/
theorem staged_next {event : Happening σ} (h : ¬ event.Stages fs s) :
    (event.next fs s).staged = s.staged := by
  cases event with
  | change f => rfl
  | request stage =>
    rcases hrun : (stagedOr fs stage).run s with ⟨e | artifact, t⟩
    · simp only [next, hrun]
      rw [(stagedOr_eq_error hrun).2.2]
    · rcases stagedOr_eq_ok hrun with ⟨_, rfl⟩ | ⟨hheld, hstage, _⟩
      · simp only [next, hrun]
      · exact absurd ⟨hheld, artifact, t.world, hstage⟩ h

theorem staged_after {history : List (Happening σ)} (h : Barren fs s history) :
    (after fs s history).staged = s.staged := by
  induction history generalizing s with
  | nil => rfl
  | cons event history ih => exact (ih h.2).trans (staged_next h.1)

end Happening

open Happening

/-- Without staging anything a request is answered exactly from the slot. -/
theorem stagedOr_eq_ok_iff_held (h : ¬ (request stage).Stages fs s) :
    (∃ t, (stagedOr fs stage).run s = (.ok artifact, t)) ↔ s.held fs = some artifact := by
  constructor
  · intro hok
    obtain ⟨t, hrun⟩ := hok
    rcases stagedOr_eq_ok hrun with ⟨hheld, _⟩ | ⟨hheld, hstage, _⟩
    · exact hheld
    · exact absurd ⟨hheld, artifact, t.world, hstage⟩ h
  · intro hheld
    exact ⟨s, run_stagedOr_of_held hheld stage⟩

/-- Let a request fail, and let nothing be staged from then on, whatever else happens. A later
request that stages nothing itself is then answered exactly when the slot named an artifact before
the failure and something is present under its path again; that artifact is the answer. A preflight
moreover asks for an open session and a complete environment. -/
theorem request_after_failure_iff (session : Session σ) {stage : Action σ Failure StagedArtifact}
    {e : Failure} (hfail : (stagedOr session.clusterFs stage).run s = (.error e, t))
    {history : List (Happening σ)} (hbarren : Barren session.clusterFs t history)
    (hu : after session.clusterFs t history = u) (artifact : StagedArtifact) :
    (∀ stage' : Action σ Failure StagedArtifact, ¬ (request stage').Stages session.clusterFs u →
      ((∃ v, (stagedOr session.clusterFs stage').run u = (.ok artifact, v)) ↔
        s.staged = some artifact ∧
          session.clusterFs.isPresent artifact.sharedPath u.world = true)) ∧
    (¬ (request session.stageArtifact).Stages session.clusterFs u →
      ((∃ v, session.preflight.run u = (.ok artifact, v)) ↔
        session.Admits u ∧ s.staged = some artifact ∧
          session.clusterFs.isPresent artifact.sharedPath u.world = true)) := by
  have hstaged : u.staged = s.staged := by
    rw [← hu, staged_after hbarren, (stagedOr_eq_error hfail).2.2]
  have hanswer (stage' : Action σ Failure StagedArtifact)
      (h : ¬ (request stage').Stages session.clusterFs u) :
      (∃ v, (stagedOr session.clusterFs stage').run u = (.ok artifact, v)) ↔
        s.staged = some artifact ∧
          session.clusterFs.isPresent artifact.sharedPath u.world = true := by
    rw [stagedOr_eq_ok_iff_held h, held_eq_some_iff, hstaged]
  refine ⟨hanswer, fun h => ?_⟩
  rw [← hanswer session.stageArtifact h]
  constructor
  · intro hok
    obtain ⟨v, hrun⟩ := hok
    obtain ⟨hadmits, hrun⟩ := preflight_eq_ok hrun
    exact ⟨hadmits, v, hrun⟩
  · intro hok
    obtain ⟨hadmits, v, hrun⟩ := hok
    exact ⟨v, hadmits.run_preflight.trans hrun⟩

/-! ## A copy that breaks off -/

/-- A session whose build has one artifact, of which only the first byte can be read. -/
def fragile : Session Memory where
  id := "fragile"
  settings := { Settings.default with artifactPrefix := "client", requiredEnv := [] }
  host := ⟨fun _ _ => true, fun _ => default, Text.ofNat⟩
  cluster := ⟨fun _ => pure (), pure (), fun _ => .empty, fun ps _ => pure ⟨0, ps⟩⟩
  servers := ⟨fun _ => pure (), fun _ => pure (), fun _ => "host:1", pure ()⟩
  clusterFs := Memory.fileSystem
  buildFs :=
    ⟨fun _ => pure [Entry.file "client.jar" 3],
      fun _ => pure fun _ => ⟨[⟨1, []⟩], some (.other "unreadable")⟩,
      fun p => .fail (.notFound p), fun p _ => .fail (.notFound p), fun _ _ => pure false,
      fun _ _ => true⟩
  quorum := "host:1"

/-- What was staged in the session while its build was sound. -/
def fragileArtifact : StagedArtifact := ⟨"client.jar", ⟨"/rss.jar/client.jar"⟩⟩

/-- The session after its staged artifact was removed. -/
def removedState : State Memory := ⟨.empty, some fragileArtifact, false, 0⟩

/-- The session after the copy of its artifact broke off. -/
def brokenState : State Memory :=
  ⟨Memory.empty.addFile fragileArtifact.sharedPath [1], some fragileArtifact, false, 0⟩

theorem admits_fragile (m : Memory) (slot : Option StagedArtifact) :
    fragile.Admits ⟨m, slot, false, 0⟩ := ⟨rfl, rfl⟩

theorem run_stageArtifact_fragile : fragile.stageArtifact.run Memory.empty =
    (.error (.storage (.io (.other "unreadable"))), brokenState.world) := by
  have hname : fragile.locateArtifact.run Memory.empty = (.ok "client.jar", Memory.empty) :=
    run_locateArtifact rfl (by simp [fragile, pickArtifact?, Manifest.byName, Entry.file])
  exact run_stageArtifact_of_error hname rfl

theorem run_stagedOr_removed :
    (stagedOr fragile.clusterFs fragile.stageArtifact).run removedState =
      (.error (.storage (.io (.other "unreadable"))), brokenState) := by
  have hheld : removedState.held fragile.clusterFs = none := rfl
  rw [run_stagedOr_of_not_held hheld,
    Action.run_bind_of_error (run_onWorld run_stageArtifact_fragile)]
  rfl

/-- After the failure the slot answers with the broken copy. -/
theorem broken_copy_answers : ∃ v, fragile.preflight.run brokenState = (.ok fragileArtifact, v) := by
  have hheld : brokenState.held fragile.clusterFs = some fragileArtifact := rfl
  have hnone : ¬ (request fragile.stageArtifact).Stages fragile.clusterFs brokenState := by
    intro h
    rw [Stages, hheld] at h
    cases h.1
  have hbarren : Barren fragile.clusterFs brokenState [] := trivial
  exact ((fragile.request_after_failure_iff run_stagedOr_removed hbarren rfl
    fragileArtifact).2 hnone).2 ⟨admits_fragile _ _, rfl, rfl⟩

/-- A preflight fails because the copy of the artifact breaks off behind its first byte; the next one
hands that copy out, and so does every request, whatever its way of staging would come to. -/
theorem failed_staging_is_masked :
    fragile.preflight.run removedState =
        (.error (.storage (.io (.other "unreadable"))), brokenState) ∧
      fragile.preflight.run brokenState = (.ok fragileArtifact, brokenState) ∧
      (∀ stage, (stagedOr fragile.clusterFs stage).run brokenState =
        (.ok fragileArtifact, brokenState)) ∧
      ((fragile.clusterFs.contents fragileArtifact.sharedPath).run brokenState.world).1 =
        .ok [1] := by
  have hheld : brokenState.held fragile.clusterFs = some fragileArtifact := rfl
  have hanswer := run_stagedOr_of_held hheld
  exact ⟨(admits_fragile _ _).run_preflight.trans run_stagedOr_removed,
    (admits_fragile _ _).run_preflight.trans (hanswer _), hanswer, rfl⟩

end OffloadCheck.Session
