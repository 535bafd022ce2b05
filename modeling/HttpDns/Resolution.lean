import HttpDns.Address.Endpoint
import HttpDns.Answer
import HttpDns.QueryType

/-!
# Resolutions

The answer for a host as it is handed out and kept: with the key it is kept under and the instant
it was learned at. Instants are milliseconds after a common origin. A resolution expires when its
lifetime is over; the origin's lifetime, where there is one, takes precedence over the other.
-/

namespace HttpDns

structure Resolution where
  host : String
  cacheKey : String
  clientIp : Option String := none
  extra : Option String := none
  ips : Endpoints := []
  ipsv6 : Endpoints := []
  /-- seconds -/
  ttl : UInt32 := 0
  /-- seconds; takes precedence over `ttl` unless zero -/
  originTtl : UInt32 := 0
  /-- the instant it was learned at, in milliseconds -/
  learnedAt : Nat := 0
  /-- it was handed out of the cache -/
  hitCache : Bool := false
  deriving DecidableEq, Repr

namespace Resolution

/-- An answer kept under a key from an instant on. -/
def ofAnswer (a : Answer) (key : String) (now : Nat) : Resolution where
  host := a.host
  cacheKey := key
  clientIp := a.clientIp
  extra := a.extra
  ips := Endpoints.ofAddrs a.ips
  ipsv6 := Endpoints.ofAddrs a.ipsv6
  ttl := a.ttl
  originTtl := a.originTtl
  learnedAt := now

/-- The lifetime in seconds. -/
def effectiveTtl (r : Resolution) : UInt32 :=
  if 0 < r.originTtl then r.originTtl else r.ttl

/-- The instant from which on it is expired. -/
def expiresAt (r : Resolution) : Nat :=
  r.learnedAt + r.effectiveTtl.toNat * 1000

def isExpiredAt (r : Resolution) (now : Nat) : Bool :=
  r.expiresAt ≤ now

/-- It holds no address. -/
def isEmpty (r : Resolution) : Bool :=
  r.ips.isEmpty && r.ipsv6.isEmpty

/-- It holds every family the type asks for. -/
def satisfies (r : Resolution) (q : QueryType) : Bool :=
  (!q.wantsIpv4 || !r.ips.isEmpty) && (!q.wantsIpv6 || !r.ipsv6.isEmpty)

/-- The type that asks for just the families still lacking, if any is. -/
def missing (r : Resolution) (q : QueryType) : Option QueryType :=
  match q.wantsIpv4 && r.ips.isEmpty, q.wantsIpv6 && r.ipsv6.isEmpty with
  | true, true => some .both
  | true, false => some .a
  | false, true => some .aaaa
  | false, false => none

/-- The first address of each family moved to the end. -/
def rotate (r : Resolution) : Resolution :=
  { r with ips := r.ips.rotate, ipsv6 := r.ipsv6.rotate }

/-- The families it lacks taken over from the other one. -/
def fillGaps (r other : Resolution) : Resolution :=
  { r with
    ips := if r.ips.isEmpty then other.ips else r.ips
    ipsv6 := if r.ipsv6.isEmpty then other.ipsv6 else r.ipsv6 }

/-- A later answer for the same host folded in: it fills the gaps, and the greater lifetimes
stay. -/
def absorb (r other : Resolution) : Resolution :=
  { r.fillGaps other with
    ttl := max r.ttl other.ttl
    originTtl := max r.originTtl other.originTtl
    clientIp := r.clientIp.or other.clientIp
    extra := r.extra.or other.extra }

theorem missing_eq_none_iff {r : Resolution} {q : QueryType} :
    r.missing q = none ↔ r.satisfies q = true := by
  unfold missing satisfies
  cases q.wantsIpv4 <;> cases q.wantsIpv6 <;> cases r.ips.isEmpty <;> cases r.ipsv6.isEmpty <;>
    simp

@[simp] theorem expiresAt_rotate (r : Resolution) : r.rotate.expiresAt = r.expiresAt := rfl

end Resolution

/-! ## Merging -/

namespace Resolution

/-- Places a resolution before the first one whose host does not come strictly before its own. -/
def insertByHost (r : Resolution) : List Resolution → List Resolution
  | [] => [r]
  | s :: rest => if s.host < r.host then s :: insertByHost r rest else r :: s :: rest

/-- The resolutions by host, those of one host in their order. -/
def sortByHost : List Resolution → List Resolution
  | [] => []
  | r :: rest => insertByHost r (sortByHost rest)

/-- Folds each run of one host into its first resolution. -/
def collapse : Resolution → List Resolution → List Resolution
  | r, [] => [r]
  | r, s :: rest => if r.host = s.host then collapse (r.absorb s) rest else r :: collapse s rest

/-- One resolution for each host, in ascending order of hosts. -/
def merge (rs : List Resolution) : List Resolution :=
  match sortByHost rs with
  | [] => []
  | r :: rest => collapse r rest

end Resolution

end HttpDns
