import OffloadCheck.Job.Keys
import OffloadCheck.Job.Properties
import OffloadCheck.Role
import OffloadCheck.Settings.Basic

/-!
The properties of one run. Every run is pinned to the memory sizes of the settings and writes to a
directory of its own. An offload run moreover gets the collector and the consumer of the shuffle
servers, the addresses of their coordinators and the client artifact on its classpath.
-/
namespace OffloadCheck

open Job

/-- The client artifact where the cluster finds it. -/
structure StagedArtifact where
  fileName : String
  sharedPath : Path
deriving DecidableEq, Repr, Inhabited

structure RunPlan where
  role : Role
  mode : Mode
  sizes : ResourceSizes
  outputDirectory : Path
  properties : Properties

def defaultApplicationClasspath : String :=
  "$HADOOP_MAPRED_HOME/share/hadoop/mapreduce/*,$HADOOP_MAPRED_HOME/share/hadoop/mapreduce/lib/*"

def shuffleConsumerClass (remoteMerge : Bool) : String :=
  if remoteMerge then "org.apache.hadoop.mapreduce.task.reduce.RMRssShuffle"
  else "org.apache.hadoop.mapreduce.task.reduce.RssShuffle"

namespace Properties

def pinned (ps : Properties) (sizes : ResourceSizes) : Properties :=
  ps.set Keys.mapOptions ("-Xmx" ++ Text.ofNat sizes.mapMemory.toNat ++ "m")
    |>.setInt Keys.mapMemory sizes.mapMemory.toNat
    |>.setInt Keys.reduceMemory sizes.reduceMemory.toNat
    |>.setInt Keys.sortBuffer sizes.sortBuffer.toNat

/-- The properties with the shuffle of an offload run. A switch for the merge on the servers is only
ever turned on here. -/
def withOffloadShuffle (ps : Properties) (directMemory : UInt64) (remoteMerge remoteSpill : Bool) :
    Properties :=
  let ps := ps.set Keys.masterOptions
      "-XX:+TraceClassLoading org.apache.hadoop.mapreduce.v2.app.RssMRAppMaster"
    |>.set Keys.reduceOptions
      ("-XX:+TraceClassLoading -XX:MaxDirectMemorySize=" ++ Text.ofNat directMemory.toNat)
    |>.set Keys.outputCollector "org.apache.hadoop.mapred.RssMapOutputCollector"
  let ps := if remoteMerge then ps.setSwitch Keys.remoteMerge true else ps
  ps.set Keys.shuffleConsumer (shuffleConsumerClass remoteMerge)
    |>.setSwitch Keys.remoteSpill remoteSpill

/-- The properties with the client artifact put on the classpath of tasks and, from a directory of
the given name, in front of the classpath of containers. -/
def withArtifact (ps : Properties) (artifact : StagedArtifact) (sharedName : String) : Properties :=
  let ps := ps.appendList Keys.classpathFiles artifact.sharedPath.text
  ps.set Keys.applicationClasspath
    ("$PWD/" ++ sharedName ++ "/" ++ artifact.fileName ++ "," ++
      (ps.get? Keys.applicationClasspath).getD defaultApplicationClasspath)

end Properties

namespace RunPlan

def outputFor (settings : Settings) (role : Role) (id : String) : Path :=
  settings.outputRoot.join (role.label ++ "-" ++ id)

/-- The run of a role whose properties are complete but for the output directory. -/
def ofProperties (settings : Settings) (role : Role) (mode : Mode) (id : String)
    (ps : Properties) : RunPlan where
  role := role
  mode := mode
  sizes := settings.resources
  outputDirectory := outputFor settings role id
  properties := ps.set Keys.outputDir (outputFor settings role id).text

def baseline (settings : Settings) (id : String) (base : Properties) : RunPlan :=
  ofProperties settings .reference .baseline id (base.pinned settings.resources)

def offload (settings : Settings) (quorum : String) (artifact : StagedArtifact) (id : String)
    (base : Properties) (transport : Transport) (remoteMerge remoteSpill : Bool) : RunPlan :=
  ofProperties settings (Role.ofSwitches remoteMerge remoteSpill)
    (.offload transport remoteMerge remoteSpill) id
    (base.pinned settings.resources
      |>.withOffloadShuffle settings.reduceDirectMemory remoteMerge remoteSpill
      |>.withArtifact artifact (settings.sharedArtifactDir.fileName?.getD "")
      |>.set Keys.coordinatorQuorum quorum
      |>.set Keys.transport transport.wireName)

theorem outputDir_ofProperties (settings : Settings) (role : Role) (mode : Mode) (id : String)
    (ps : Properties) :
    let plan := ofProperties settings role mode id ps
    plan.properties.get? Keys.outputDir = some plan.outputDirectory.text := by
  simp [ofProperties, Properties.get?_set]

end RunPlan
end OffloadCheck
