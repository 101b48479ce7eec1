import OffloadCheck.Action
import OffloadCheck.Failure
import OffloadCheck.Job.Properties

/-!
What the check asks of the shuffle servers: configurations are stored one by one, then all servers
are started together, tell the addresses of their coordinators and are stopped together.
-/
namespace OffloadCheck

inductive ServerKind
  /-- Assigns shuffle servers to jobs. -/
  | coordinator
  | shuffleServer (transport : Transport)
deriving DecidableEq, Repr

structure ServerConfig where
  kind : ServerKind
  /-- Tells processes of one kind apart. -/
  index : Nat
  properties : Properties

/-- The calls that the shuffle servers answer. -/
structure Servers (σ : Type) where
  /-- Stores the configuration of a server to be started. -/
  store : ServerConfig → Action σ Failure Unit
  start : (randomizedPorts : Bool) → Action σ Failure Unit
  quorum : σ → String
  stop : Action σ Failure Unit

end OffloadCheck
