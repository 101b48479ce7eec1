import OffloadCheck.Job.Keys
import OffloadCheck.Servers.Basic

/-!
The life of the shuffle servers around a check. A coordinator and one shuffle server per transport
are stored and then started on random ports; the addresses of the coordinators are taken down at
that moment. Stopping happens at most once and cannot fail.
-/
namespace OffloadCheck

open Job

variable {σ : Type}

/-- The coordinator properties used where nothing else is said: remote storage below a URI, and data
kept in memory, local files and remote storage. -/
def defaultCoordinatorProperties (remoteStorageUri : String) : Properties :=
  (Properties.set .empty Keys.remoteStoragePath (remoteStorageUri ++ "rss/test")).set
    Keys.storageType "MEMORY_LOCALFILE_HDFS"

namespace ServerConfig

/-- The configuration of a shuffle server, in which overrides win. -/
def shuffleServer (overrides : Option Properties) (index : Nat) (transport : Transport) :
    ServerConfig where
  kind := .shuffleServer transport
  index := index
  properties := (Properties.set .empty Keys.serverTransport transport.wireName).merge
    (overrides.getD .empty)

/-- The servers of a check: the coordinator, then one shuffle server per transport. -/
def ensemble (coordinator : Properties) (overrides : Option Properties) : List ServerConfig :=
  ⟨.coordinator, 0, coordinator⟩ :: Transport.all.mapIdx (shuffleServer overrides)

end ServerConfig

namespace Servers

def storeAll (servers : Servers σ) : List ServerConfig → Action σ Failure Unit
  | [] => pure ()
  | config :: configs => do
    servers.store config
    servers.storeAll configs

/-- Stores and starts the servers of a check and tells the addresses of their coordinators. -/
def setUp (servers : Servers σ) (coordinator : Properties) (overrides : Option Properties) :
    Action σ Failure String := do
  servers.storeAll (ServerConfig.ensemble coordinator overrides)
  servers.start true
  return servers.quorum (← Action.world)

/-- Stops the servers; a failure to do so is passed over. -/
def shutDown (servers : Servers σ) (s : σ) : σ := (servers.stop.run s).2

end Servers

structure ServersFixture (σ : Type) where
  servers : Servers σ
  quorum : String
  running : Bool

namespace ServersFixture

def start (servers : Servers σ) (coordinator : Properties) (overrides : Option Properties) :
    Action σ Failure (ServersFixture σ) := do
  return ⟨servers, ← servers.setUp coordinator overrides, true⟩

theorem run_start_of_ok {servers : Servers σ} {coordinator : Properties}
    {overrides : Option Properties} {s t : σ} {quorum : String}
    (h : (servers.setUp coordinator overrides).run s = (.ok quorum, t)) :
    (start servers coordinator overrides).run s = (.ok ⟨servers, quorum, true⟩, t) :=
  Action.run_bind_of_ok h

theorem run_start_of_error {servers : Servers σ} {coordinator : Properties}
    {overrides : Option Properties} {s t : σ} {e : Failure}
    (h : (servers.setUp coordinator overrides).run s = (.error e, t)) :
    (start servers coordinator overrides).run s = (.error e, t) :=
  Action.run_bind_of_error h

def tearDown (fixture : ServersFixture σ) (s : σ) : ServersFixture σ × σ :=
  if fixture.running then ({ fixture with running := false }, fixture.servers.shutDown s)
  else (fixture, s)

end ServersFixture
end OffloadCheck
