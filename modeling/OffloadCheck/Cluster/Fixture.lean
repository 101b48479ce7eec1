import OffloadCheck.Cluster.Basic
import OffloadCheck.Job.Keys
import OffloadCheck.Settings.Basic

/-!
The life of a cluster around a check. It is started with the staging directory and priority of the
settings and shut down at most once. A shutdown cannot fail: what goes wrong on the way is passed
over, and the resources directory is removed whether or not the cluster stopped.
-/
namespace OffloadCheck

open Job

variable {σ : Type}

/-- Removes whatever is at a path; a failure to do so is passed over. -/
def FileSystem.clear (fs : FileSystem σ) (path : Path) (s : σ) : σ :=
  if fs.isPresent path s then ((fs.delete path true).run s).2 else s

/-- The properties that a cluster is started with. -/
def Settings.startProperties (settings : Settings) : Properties :=
  (Properties.set .empty Keys.stagingDir settings.stagingDir).setInt Keys.maxPriority
    settings.maxApplicationPriority.toNat

/-- Stops the cluster and removes the directory of localized resources. -/
def Cluster.shutDown (cluster : Cluster σ) (fs : FileSystem σ) (resourcesDir : Path) (s : σ) : σ :=
  fs.clear resourcesDir (cluster.stop.run s).2

structure ClusterFixture (σ : Type) where
  cluster : Cluster σ
  running : Bool

namespace ClusterFixture

def start (cluster : Cluster σ) (settings : Settings) : Action σ Failure (ClusterFixture σ) := do
  cluster.start settings.startProperties
  return ⟨cluster, true⟩

theorem run_start_of_ok {cluster : Cluster σ} {settings : Settings} {s t : σ}
    (h : (cluster.start settings.startProperties).run s = (.ok (), t)) :
    (start cluster settings).run s = (.ok ⟨cluster, true⟩, t) :=
  Action.run_bind_of_ok h

theorem run_start_of_error {cluster : Cluster σ} {settings : Settings} {s t : σ} {e : Failure}
    (h : (cluster.start settings.startProperties).run s = (.error e, t)) :
    (start cluster settings).run s = (.error e, t) :=
  Action.run_bind_of_error h

theorem eq_of_run_start {cluster : Cluster σ} {settings : Settings} {s t : σ}
    {fixture : ClusterFixture σ} (h : (start cluster settings).run s = (.ok fixture, t)) :
    fixture = ⟨cluster, true⟩ := by
  obtain ⟨_, _, _, hpure⟩ := Action.run_bind_eq_ok_iff.1 h
  cases hpure
  rfl

/-- Shuts the cluster down unless that has been done. -/
def tearDown (fixture : ClusterFixture σ) (fs : FileSystem σ) (resourcesDir : Path) (s : σ) :
    ClusterFixture σ × σ :=
  if fixture.running then
    ({ fixture with running := false }, fixture.cluster.shutDown fs resourcesDir s)
  else (fixture, s)

end ClusterFixture
end OffloadCheck
