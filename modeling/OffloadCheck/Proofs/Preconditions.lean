import OffloadCheck.Proofs.Invariants
import OffloadCheck.Proofs.Jobs
import OffloadCheck.Proofs.Staging

/-! # Preconditions that stay met

A preflight that has succeeded leaves the preconditions met: the staged artifact is where its slot
says, and as long as it stays there every later preflight succeeds as well, gives the same artifact
and changes nothing. On a memory tree it does stay there, since files are only put. -/
namespace OffloadCheck

/-! ## The staged artifact -/

namespace Memory

variable {σ : Type} (part : Part σ Memory)

theorem Grows.isPresent {p : Path} {dir : Location} {m m' : Memory} (h : Grows dir m m')
    (hp : fileSystem.isPresent p m = true) : fileSystem.isPresent p m' = true := by
  refine Bool.or_eq_true_iff.2 ?_
  rcases Bool.or_eq_true_iff.1 hp with hfile | hdir
  · have hdata : (m.data? p.components).isSome = true := by
      rw [data?, Option.isSome_map]
      exact hfile
    have hstays := h.stays p.components hdata
    rw [data?, Option.isSome_map] at hstays
    exact .inl hstays
  · exact .inr (h.isDir_stays p.components hdir)

theorem isPresent_grows {p : Path} {dir : Location} {s t : σ}
    (h : (part.fileSystem fileSystem).isPresent p s = true)
    (hgrows : Grows dir (part.get s) (part.get t)) :
    (part.fileSystem fileSystem).isPresent p t = true :=
  hgrows.isPresent h

theorem isPresent_same {p : Path} {s t : σ} (h : Same (part.get s) (part.get t)) :
    (part.fileSystem fileSystem).isPresent p t = (part.fileSystem fileSystem).isPresent p s := by
  have hpresent (s : σ) : (part.fileSystem fileSystem).isPresent p s =
      (((part.get s).file? p.components).isSome || (part.get s).isDir p.components) := rfl
  rw [hpresent, hpresent, h.eq]
  rfl

theorem sustains_isPresent_append (q p : Path) (bytes : Bytes) :
    Action.Sustains (fun m => fileSystem.isPresent p m = true) (append q bytes) := by
  refine Action.sustains_of_state fun m hm => ?_
  cases hf : m.file? q.components with
  | none =>
    have hrun : (append q bytes).run m =
        (.error (.deletedWhileOpen (PathText.shown q.text)), m) := by
      simp [Action.run, append, hf]
    rw [hrun]
    exact hm
  | some f =>
    have hrun : (append q bytes).run m = (.ok (),
        { m with files := m.files.insert q.components { f with data := f.data ++ bytes } }) := by
      simp [Action.run, append, hf]
    rw [hrun]
    refine Bool.or_eq_true_iff.2 ((Bool.or_eq_true_iff.1 hm).imp_left fun hfile => ?_)
    rw [file?_insert]
    split
    · rfl
    · exact hfile

/-- In a memory tree only deleting makes something disappear. -/
theorem lasting_fileSystem : fileSystem.Lasting where
  created := by
    intro p m w m' h
    simp only [Action.run, fileSystem] at h
    split at h
    · cases h
    · cases h
      refine Bool.or_eq_true_iff.2 (.inl ?_)
      have hdata := (puts_addFile m p []).data p.components
      rw [if_pos rfl] at hdata
      have hsome := congrArg Option.isSome hdata
      rwa [data?, Option.isSome_map] at hsome
  stays p := by
    constructor
    · exact fun q => Action.sustains_of_state fun m hm => hm
    · refine fun q => Action.sustains_of_state fun m hm => ?_
      simp only [Action.run, fileSystem]
      split
      · exact hm
      · exact hm
    · refine fun q => Action.sustains_of_state fun m hm => ?_
      simp only [Action.run, fileSystem]
      split
      · exact hm
      · have hputs := puts_addFile m q []
        rw [← List.append_nil q.components] at hputs
        exact hputs.grows.isPresent hm
    · intro q m w m' h i bytes
      simp only [Action.run, fileSystem] at h
      split at h
      · cases h
      · cases h
        exact sustains_isPresent_append q p bytes

end Memory

/-! ## Sessions with a rehearsed cluster -/

namespace Session

variable {σ : Type}

/-- The session's filesystem is a memory tree, a part of the world that the log of the cluster is no
part of; its cluster is rehearsed on this tree, and its environment stays as it is. -/
structure Rehearsal (session : Session σ) where
  script : JobScript
  memory : Part σ Memory
  note : (ClusterLog → ClusterLog) → σ → σ
  memory_note : ∀ f s, memory.get (note f s) = memory.get s
  clusterFs : session.clusterFs = memory.fileSystem Memory.fileSystem
  cluster : session.cluster = script.cluster session.clusterFs note
  environment : ∀ name s t, session.host.isSet name s = session.host.isSet name t

/-- The preconditions hold, with an artifact that was staged before. -/
structure Ready (session : Session σ) (artifact : StagedArtifact) (s : State σ) : Prop where
  opened : s.closed = false
  environment : session.settings.requiredEnv.find? (fun name => !session.host.isSet name s.world) =
    none
  staged : s.staged = some artifact
  present : session.clusterFs.isPresent artifact.sharedPath s.world = true

variable {session : Session σ} {artifact : StagedArtifact} {s t : State σ}

/-- Once the preconditions hold, checking them again changes nothing. -/
theorem Ready.run_preflight (h : session.Ready artifact s) :
    session.preflight.run s = (.ok artifact, s) := by
  have hadmits : session.Admits s := ⟨h.opened, h.environment⟩
  rw [hadmits.run_preflight]
  exact run_stagedOr_of_held (held_eq_some_iff.2 ⟨h.staged, h.present⟩) _

/-- An artifact that has just been staged is there. -/
theorem isPresent_of_stage (hlasting : session.clusterFs.Lasting) {w w' : σ}
    (h : session.stageArtifact.run w = (.ok artifact, w')) :
    session.clusterFs.isPresent artifact.sharedPath w' = true := by
  obtain ⟨_, _, _, _, htransfer⟩ := stageArtifact_eq_ok h
  exact hlasting.isPresent_of_transfer htransfer

/-- After a preflight the preconditions hold. -/
theorem ready_of_preflight (hlasting : session.clusterFs.Lasting)
    (henvironment : ∀ name w w', session.host.isSet name w = session.host.isSet name w')
    (h : session.preflight.run s = (.ok artifact, t)) : session.Ready artifact t := by
  obtain ⟨hadmits, h⟩ := preflight_eq_ok h
  have hset : (fun name => !session.host.isSet name t.world) =
      fun name => !session.host.isSet name s.world := by
    funext name
    rw [henvironment name t.world s.world]
  rcases stagedOr_eq_ok h with ⟨hheld, rfl⟩ | ⟨_, hstage, ht⟩
  · obtain ⟨hstaged, hpresent⟩ := held_eq_some_iff.1 hheld
    exact ⟨hadmits.opened, hadmits.environment, hstaged, hpresent⟩
  · have hpresent := isPresent_of_stage hlasting hstage
    refine ⟨?_, hset ▸ hadmits.environment, ?_, hpresent⟩
    · rw [ht]
      exact hadmits.opened
    · rw [ht]

theorem Rehearsal.ready_of_preflight (rehearsal : session.Rehearsal)
    (h : session.preflight.run s = (.ok artifact, t)) : session.Ready artifact t := by
  refine Session.ready_of_preflight ?_ rehearsal.environment h
  rw [rehearsal.clusterFs]
  exact Memory.lasting_fileSystem.part rehearsal.memory

end Session
end OffloadCheck
