/-!
# Answers

What a reply body says once it has been read: the addresses of one host, or a roster of servers.
-/

namespace HttpDns

/-- The answer of a resolver server for one host. -/
structure Answer where
  host : String := ""
  ips : List String := []
  ipsv6 : List String := []
  /-- seconds -/
  ttl : UInt32 := 0
  originTtl : UInt32 := 0
  clientIp : Option String := none
  extra : Option String := none
  deriving DecidableEq, Repr

/-- The answer holds no address. -/
def Answer.isEmpty (a : Answer) : Bool :=
  a.ips.isEmpty && a.ipsv6.isEmpty

end HttpDns
