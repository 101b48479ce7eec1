import OffloadCheck.Session.Basic
import OffloadCheck.Storage.Transfer

/-!
What has to hold before an offload run: the session is open, the required environment is there and
the client artifact lies where the cluster finds it. The artifact is staged on first use and again
when it has gone; a staged artifact replaces the one before it only when its copy succeeded.
-/
namespace OffloadCheck.Session

variable {σ : Type}

/-- The file to take as the client artifact: the first by name that begins with `start`. -/
def pickArtifact? (start : String) (listing : List Entry) : Option String :=
  ((Manifest.byName listing).find? fun e =>
    !e.isDir && start.toList.isPrefixOf e.name.toList).map (·.name)

def locateArtifact (session : Session σ) : Action σ Failure String := do
  let dir := session.settings.artifactDir
  let start := session.settings.artifactPrefix
  let listing ← (session.buildFs.list dir).mapError fun e =>
    .configuration ("cannot list artifact directory '" ++ dir.text ++ "': " ++ e.message)
  match pickArtifact? start listing with
  | some name => return name
  | none =>
    Action.fail (.configuration
      ("no artifact starting with '" ++ start ++ "' in '" ++ dir.text ++ "'"))

def stageArtifact (session : Session σ) : Action σ Failure StagedArtifact := do
  let name ← session.locateArtifact
  let shared := session.settings.sharedArtifactDir.join name
  discard <| (session.buildFs.transfer (session.settings.artifactDir.join name) session.clusterFs
    shared).mapError Failure.storage
  return ⟨name, shared⟩

/-- The staged artifact if it is still there, else the result of staging it with `stage`. -/
def stagedOr (fs : FileSystem σ) (stage : Action σ Failure StagedArtifact) :
    Step σ StagedArtifact := do
  let s ← Action.world
  match s.staged.filter fun a => fs.isPresent a.sharedPath s.world with
  | some artifact => return artifact
  | none =>
    let artifact ← onWorld stage
    Action.change fun s => { s with staged := some artifact }
    return artifact

def checkEnvironment (session : Session σ) : Action σ Failure Unit := do
  let s ← Action.world
  match session.settings.requiredEnv.find? fun name => !session.host.isSet name s with
  | some name => Action.fail (.configuration ("environment variable " ++ name ++ " must be set"))
  | none => return ()

/-- Checks what has to hold before an offload run and gives the staged artifact. -/
def preflight (session : Session σ) : Step σ StagedArtifact := do
  if (← Action.world).closed then
    Action.fail (.fixture ("session " ++ session.id ++ " is closed"))
  else
    onWorld session.checkEnvironment
    stagedOr session.clusterFs session.stageArtifact

end OffloadCheck.Session
