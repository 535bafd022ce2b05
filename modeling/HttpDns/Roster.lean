import HttpDns.Config.Client
import HttpDns.QueryType

/-!
# Rosters

Server addresses by family: the boot servers a client knows, or the servers a schedule answer
lists. A union keeps the first roster as it is and appends what it lacks.
-/

namespace HttpDns

structure Roster where
  ipv4 : List String := []
  ipv6 : List String := []
  deriving DecidableEq, Repr

/-- Appends every address that is neither empty nor present. -/
def appendUnique (l : List String) : List String → List String
  | [] => l
  | addr :: rest =>
    if addr = "" ∨ addr ∈ l then appendUnique l rest else appendUnique (l ++ [addr]) rest

/-- How many addresses that appends: by how much the list grows. -/
def appendUniqueCount (l addrs : List String) : Nat :=
  (appendUnique l addrs).length - l.length

namespace Roster

def isEmpty (r : Roster) : Bool :=
  r.ipv4.isEmpty && r.ipv6.isEmpty

/-- The boot servers of a configuration. -/
def ofConfig (c : ClientConfig) : Roster :=
  ⟨c.bootServersIpv4, c.bootServersIpv6⟩

/-- The servers to try on a stack: those of IPv6 when it has nothing else. -/
def candidates (r : Roster) : Stack → List String
  | .ipv6Only => r.ipv6
  | .unknown | .ipv4Only | .dual => r.ipv4

/-- The roster with every server of the other one appended that it lacks. -/
def union (r other : Roster) : Roster :=
  ⟨appendUnique r.ipv4 other.ipv4, appendUnique r.ipv6 other.ipv6⟩

/-- How many servers the union appends. -/
def unionCount (r other : Roster) : Nat :=
  appendUniqueCount r.ipv4 other.ipv4 + appendUniqueCount r.ipv6 other.ipv6

end Roster

end HttpDns
