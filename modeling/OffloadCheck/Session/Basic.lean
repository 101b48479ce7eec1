import OffloadCheck.Cluster.Fixture
import OffloadCheck.Run.Plan
import OffloadCheck.Servers.Fixture
import OffloadCheck.Timestamp

/-!
A session: everything that the runs of one check share. What is fixed while it lasts is a `Session`,
what changes is a `Session.State`, and what is done in it is a step over that state. A failed step
keeps what it changed before it failed.
-/
namespace OffloadCheck

/-- What a session asks of the machine it runs on. -/
structure Host (σ : Type) where
  isSet : String → σ → Bool
  now : σ → Timestamp
  /-- The identifier of the run that is planned after so many others. -/
  runId : Nat → String

/-- What is fixed while a session lasts. -/
structure Session (σ : Type) where
  id : String
  settings : Settings
  host : Host σ
  cluster : Cluster σ
  servers : Servers σ
  /-- Where jobs write their output. -/
  clusterFs : FileSystem σ
  /-- Where the build leaves the client artifact. -/
  buildFs : FileSystem σ
  quorum : String

namespace Session

/-- What changes while a session lasts. -/
structure State (σ : Type) where
  world : σ
  /-- The client artifact that was staged last. -/
  staged : Option StagedArtifact
  closed : Bool
  planned : Nat

def State.initial {σ : Type} (world : σ) : State σ := ⟨world, none, false, 0⟩

abbrev Step (σ : Type) := Action (State σ) Failure

variable {σ α : Type}

def onWorld (x : Action σ Failure α) : Step σ α :=
  x.within State.world fun w s => { s with world := w }

def onStorage (x : Action σ StorageError α) : Step σ α := onWorld (x.mapError Failure.storage)

def observe (f : σ → α) : Step σ α := (fun s => f s.world) <$> Action.world

def freshRunId (session : Session σ) : Step σ String := do
  let s ← Action.world
  Action.setWorld { s with planned := s.planned + 1 }
  return session.host.runId s.planned

end Session
end OffloadCheck
