/-!
The transports over which a job reaches the shuffle servers, with the wire names that job properties
carry. Reading a name is the inverse of writing it (`ofWireName?_eq_some_iff`).
-/
namespace OffloadCheck

/-- How a job's shuffle client talks to the servers. -/
inductive Transport
  | grpc
  /-- Control over gRPC, data over Netty. -/
  | grpcNetty
deriving DecidableEq, Repr, Inhabited

namespace Transport

def all : List Transport := [.grpc, .grpcNetty]

def wireName : Transport → String
  | .grpc => "GRPC"
  | .grpcNetty => "GRPC_NETTY"

def ofWireName? (s : String) : Option Transport := all.find? fun t => t.wireName = s

def unknownMessage (s : String) : String := "unknown transport client type '" ++ s ++ "'"

theorem ofWireName?_wireName (t : Transport) : ofWireName? t.wireName = some t := by
  cases t <;> decide

theorem ofWireName?_eq_some_iff {s : String} {t : Transport} :
    ofWireName? s = some t ↔ s = t.wireName := by
  constructor
  · intro h
    have := List.find?_some h
    simpa using (of_decide_eq_true this).symm
  · rintro rfl
    exact ofWireName?_wireName t

end Transport
end OffloadCheck
