/-!
Names of the job and server properties that the check reads or writes. Memory is given in MiB.
-/
namespace OffloadCheck.Job.Keys

def outputDir := "mapreduce.output.fileoutputformat.outputdir"
def mapMemory := "mapreduce.map.memory.mb"
def reduceMemory := "mapreduce.reduce.memory.mb"
def sortBuffer := "mapreduce.task.io.sort.mb"
def mapOptions := "mapreduce.map.java.opts"
def reduceOptions := "mapreduce.reduce.java.opts"
def masterOptions := "yarn.app.mapreduce.am.command-opts"
def outputCollector := "mapreduce.job.map.output.collector.class"
def shuffleConsumer := "mapreduce.job.reduce.shuffle.consumer.plugin.class"
def applicationClasspath := "mapreduce.application.classpath"
def classpathFiles := "mapreduce.job.classpath.files"
def stagingDir := "yarn.app.mapreduce.am.staging-dir"
def maxPriority := "yarn.cluster.max-application-priority"
def coordinatorQuorum := "mapreduce.rss.coordinator.quorum"
def transport := "mapreduce.rss.client.type"

/-- Whether partitions are merged on the servers. -/
def remoteMerge := "mapreduce.rss.remote.merge.enable"

/-- Whether the reduce side spills to the servers. -/
def remoteSpill := "mapreduce.rss.reduce.remote.spill.enable"

def storageType := "mapreduce.rss.storage.type"
def serverTransport := "rss.rpc.server.type"
def remoteStoragePath := "rss.coordinator.remote.storage.path"

end OffloadCheck.Job.Keys
