import HttpDns.Address.Literal
import HttpDns.QueryType

/-!
# Stack detection

Which address families the local host can route. A family counts when there is a route to a public
address of it; when neither has one, the families of the addresses of a probe domain count instead.
The last conclusive result is kept and, while caching is on, answers without probing again.
-/

namespace HttpDns

/-- What a probe of the network would find right now. -/
structure Surroundings where
  routesIpv4 : Bool
  routesIpv6 : Bool
  /-- the addresses of a domain; none if the lookup fails -/
  lookup : String → List Address.Literal

/-- How the network is probed: each probe is an action. -/
structure Network (m : Type → Type) where
  routesIpv4 : m Bool
  routesIpv6 : m Bool
  lookup : String → m (List Address.Literal)

/-- The network that is found in the surroundings. -/
def Surroundings.network (s : Surroundings) : Network Id :=
  ⟨s.routesIpv4, s.routesIpv6, s.lookup⟩

/-- The families of some addresses. -/
def Stack.ofAddresses (addrs : List Address.Literal) : Stack :=
  .ofFamilies (addrs.any (·.isIpv4)) (addrs.any (!·.isIpv4))

structure Detector where
  probeDomain : String
  useCache : Bool
  /-- the last conclusive result -/
  cached : Stack := .unknown
  deriving DecidableEq, Repr

namespace Detector

/-- The routes are probed first; the domain is looked up only if there is none. -/
def probe {m : Type → Type} [Monad m] (domain : String) (n : Network m) : m Stack := do
  let ipv4 ← n.routesIpv4
  let ipv6 ← n.routesIpv6
  match Stack.ofFamilies ipv4 ipv6 with
  | .unknown =>
    let addrs ← n.lookup domain
    pure (.ofAddresses addrs)
  | stack => pure stack

/-- The stack over a network, and the detector that remembers it. -/
def detectOver {m : Type → Type} [Monad m] (d : Detector) (n : Network m) :
    m (Stack × Detector) := do
  if d.useCache ∧ d.cached ≠ .unknown then pure (d.cached, d)
  else
    match ← probe d.probeDomain n with
    | .unknown => pure (.unknown, d)
    | stack => pure (stack, { d with cached := stack })

/-- The stack, and the detector that remembers it. -/
def detect (d : Detector) (s : Surroundings) : Stack × Detector :=
  Id.run (d.detectOver s.network)

def setProbeDomain (d : Detector) (domain : String) : Detector :=
  { d with probeDomain := domain }

def setUseCache (d : Detector) (on : Bool) : Detector :=
  { d with useCache := on }

def reset (d : Detector) : Detector :=
  { d with cached := .unknown }

end Detector

end HttpDns
