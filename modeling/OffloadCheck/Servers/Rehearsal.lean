import OffloadCheck.Servers.Basic

/-!
Shuffle servers for trials, which keep a log of their calls in the world and can be made to fail.
-/
namespace OffloadCheck

structure ServerLog where
  stored : List ServerConfig
  /-- What the last start was called with. -/
  randomizedPorts : Option Bool
  stops : Nat

def ServerLog.empty : ServerLog := ⟨[], none, 0⟩

structure ServerScript where
  quorum : String
  /-- Whether starting fails, after the servers have heard of it. -/
  refusesStart : Bool
  /-- Storing fails before the servers hear of it. -/
  storeFault : Option String
  /-- Stopping fails after the servers have stopped. -/
  stopFault : Option String
deriving DecidableEq, Repr

/-- The servers that follow the script; `note` enters a call into the log. -/
def ServerScript.servers {σ : Type} (script : ServerScript)
    (note : (ServerLog → ServerLog) → σ → σ) : Servers σ where
  store config := do
    raise script.storeFault
    Action.change (note fun log => { log with stored := log.stored ++ [config] })
  start randomizedPorts := do
    Action.change (note fun log => { log with randomizedPorts := some randomizedPorts })
    raise (if script.refusesStart then some "shuffle server port already bound" else none)
  quorum _ := script.quorum
  stop := do
    Action.change (note fun log => { log with stops := log.stops + 1 })
    raise script.stopFault
where
  raise : Option String → Action σ Failure Unit
    | some reason => Action.fail (.fixture reason)
    | none => pure ()

end OffloadCheck
