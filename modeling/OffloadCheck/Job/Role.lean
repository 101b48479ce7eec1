import OffloadCheck.Job.Keys
import OffloadCheck.Job.Properties
import OffloadCheck.Role

/-!
The role that job properties describe: without a shuffle collector the run is a reference, else the
two switches decide.
-/
namespace OffloadCheck.Properties

open Job

/-- The role of the run that the properties describe; an unreadable switch counts as off. -/
def role (ps : Properties) : Role :=
  if (ps.get? Keys.outputCollector).isNone then .reference
  else
    Role.ofSwitches ((ps.getSwitch? Keys.remoteMerge).getD false)
      ((ps.getSwitch? Keys.remoteSpill).getD false)

end OffloadCheck.Properties
