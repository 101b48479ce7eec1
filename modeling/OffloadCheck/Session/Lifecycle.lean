import OffloadCheck.Session.Basic

/-!
Opening and closing a session. Settings and parts are checked before anything is touched; the
cluster is started before the servers and shut down again when they do not start. A session is
closed once: the servers are torn down before the cluster, and then the directory of the client
artifact is removed.
-/
namespace OffloadCheck.Session

variable {σ α : Type}

/-- What a session is opened with. -/
structure Parts (σ : Type) where
  settings : Option Settings
  cluster : Option (Cluster σ)
  servers : Option (Servers σ)
  clusterFs : Option (FileSystem σ)
  /-- The filesystem of the build, when it is not that of the cluster. -/
  buildFs : Option (FileSystem σ)
  coordinator : Option Properties
  serverOverrides : Option Properties

/-- A part that a session cannot do without. -/
def required (what : String) : Option α → Except Failure α
  | some a => .ok a
  | none => .error (.configuration ("session requires " ++ what))

/-- Starts the cluster and then the servers, and tears the cluster down again if these fail. -/
def bringUp (parts : Parts σ) (host : Host σ) (id : String) (cluster : Cluster σ)
    (servers : Servers σ) (clusterFs : FileSystem σ) : Action σ Failure (Session σ) := do
  let settings := parts.settings.getD Settings.default
  let buildFs := parts.buildFs.getD clusterFs
  let coordinator :=
    parts.coordinator.getD (defaultCoordinatorProperties settings.remoteStorageUri)
  let running ← ClusterFixture.start cluster settings
  match ← (ServersFixture.start servers coordinator parts.serverOverrides).attempt with
  | .ok { servers, quorum, .. } =>
    return { id, settings, host, cluster, servers, clusterFs, buildFs, quorum }
  | .error e =>
    Action.change fun s => (running.tearDown buildFs settings.resourcesDir s).2
    Action.fail e

def launch (parts : Parts σ) (host : Host σ) (id : String) : Action σ Failure (Session σ) := do
  Action.ofExcept (parts.settings.getD Settings.default).validate
  let cluster ← Action.ofExcept (required "a cluster" parts.cluster)
  let servers ← Action.ofExcept (required "shuffle servers" parts.servers)
  let clusterFs ← Action.ofExcept (required "a cluster filesystem" parts.clusterFs)
  bringUp parts host id cluster servers clusterFs

/-- The cluster of a session, which runs until the session is closed. -/
def clusterFixture (session : Session σ) (s : State σ) : ClusterFixture σ :=
  ⟨session.cluster, !s.closed⟩

def serversFixture (session : Session σ) (s : State σ) : ServersFixture σ :=
  ⟨session.servers, session.quorum, !s.closed⟩

/-- The world after the servers and the cluster of a session have been torn down and what it left
behind has been removed. -/
def shutDown (session : Session σ) (s : State σ) : σ :=
  let (_, w) := (session.serversFixture s).tearDown s.world
  let (_, w) := (session.clusterFixture s).tearDown session.buildFs session.settings.resourcesDir w
  session.clusterFs.clear session.settings.sharedArtifactDir w

/-- Closes a session; closing it again changes nothing. -/
def close (session : Session σ) (s : State σ) : State σ :=
  if s.closed then s
  else { s with world := session.shutDown s, closed := true, staged := none }

/-- An open session has everything running that it shuts down. -/
theorem shutDown_of_open (session : Session σ) {s : State σ} (h : s.closed = false) :
    session.shutDown s = session.clusterFs.clear session.settings.sharedArtifactDir
      (session.cluster.shutDown session.buildFs session.settings.resourcesDir
        (session.servers.shutDown s.world)) := by
  simp [shutDown, clusterFixture, serversFixture, ClusterFixture.tearDown, ServersFixture.tearDown,
    h]

theorem close_of_open (session : Session σ) {s : State σ} (h : s.closed = false) :
    session.close s = { s with
      world := session.clusterFs.clear session.settings.sharedArtifactDir
        (session.cluster.shutDown session.buildFs session.settings.resourcesDir
          (session.servers.shutDown s.world))
      closed := true
      staged := none } := by
  rw [close, if_neg (ne_true_of_eq_false h), session.shutDown_of_open h]

theorem closed_close (session : Session σ) (s : State σ) : (session.close s).closed = true := by
  unfold close
  split
  · assumption
  · rfl

theorem staged_close (session : Session σ) {s : State σ} (h : s.closed = false) :
    (session.close s).staged = none := by
  simp [close, h]

end OffloadCheck.Session
