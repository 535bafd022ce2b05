import HttpDns.Address.Endpoint
import HttpDns.Latency
import HttpDns.QueryType

/-!
# The server pool

The resolver servers a client knows, by family, with what has been learned about their latency.
The server with the least round-trip time is handed out, from the IPv6 servers when the stack has
nothing else and from the IPv4 servers otherwise. Servers are only ever appended; a sample changes
the estimate of one server.
-/

namespace HttpDns

structure Pool where
  ipv4 : Endpoints := []
  ipv6 : Endpoints := []
  deriving DecidableEq, Repr

namespace Pool

def isEmpty (p : Pool) : Bool :=
  p.ipv4.isEmpty && p.ipv6.isEmpty

/-- The servers that are used on a stack. -/
def servers (p : Pool) : Stack → Endpoints
  | .ipv6Only => p.ipv6
  | .unknown | .ipv4Only | .dual => p.ipv4

/-- The fastest server for a stack. -/
def pick (p : Pool) (stack : Stack) : Option Endpoint :=
  (p.servers stack).fastest

/-- The fastest server for a stack other than the one at an address; any if there is no other. -/
def pickOther (p : Pool) (stack : Stack) (addr : String) : Option Endpoint :=
  match Endpoints.fastest ((p.servers stack).filter (·.addr ≠ addr)) with
  | some e => some e
  | none => p.pick stack

/-- The endpoint with a sample folded into its estimate. -/
def measured (sample : UInt32) (e : Endpoint) : Endpoint :=
  { e with rtt := some (Latency.estimate e.rtt sample) }

/-- The pool with a sample folded into the estimate of the server at an address, which is looked
for among the IPv4 servers first; a sample of an unknown server is dropped. -/
def update (p : Pool) (addr : String) (sample : UInt32) : Pool :=
  if p.ipv4.contains addr then { p with ipv4 := p.ipv4.modify addr (measured sample) }
  else { p with ipv6 := p.ipv6.modify addr (measured sample) }

/-- The pool with the servers it lacks appended, unmeasured. -/
def add (p : Pool) (ipv4 ipv6 : List String) : Pool :=
  ⟨p.ipv4.merge ipv4, p.ipv6.merge ipv6⟩

/-- How many servers are appended. -/
def addCount (p : Pool) (ipv4 ipv6 : List String) : Nat :=
  p.ipv4.mergeCount ipv4 + p.ipv6.mergeCount ipv6

end Pool

end HttpDns
