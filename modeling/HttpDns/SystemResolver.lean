import HttpDns.Address.Literal
import HttpDns.Resolution

/-!
# The system resolver

The fallback for hosts the service has no answer for. It keeps the addresses of the families asked
for, in their canonical writing, under a fixed lifetime; without any there is no answer.
-/

namespace HttpDns.SystemResolver

open Address (Literal)

/-- The addresses of a host that is a numeric address itself; such a host needs no lookup. -/
def literalOnly (host : String) : List Literal :=
  (Literal.parse host).toList

/-- The written addresses of one family, if it is wanted. -/
def family (ipv4 wanted : Bool) (addrs : List Literal) : Endpoints :=
  if wanted then Endpoints.ofAddrs ((addrs.filter (·.isIpv4 == ipv4)).map Literal.write) else []

/-- The answer for a host from the addresses the system knows for it. -/
def resolve (ttl : UInt32) (host : String) (q : QueryType) (addrs : List Literal) (now : Nat) :
    Option Resolution :=
  let r : Resolution :=
    { host, cacheKey := host
      ips := family true q.wantsIpv4 addrs
      ipsv6 := family false q.wantsIpv6 addrs
      ttl, learnedAt := now }
  if r.isEmpty then none else some r

end HttpDns.SystemResolver
