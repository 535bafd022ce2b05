import HttpDns.Error
import HttpDns.QueryType
import HttpDns.Text.Separated

/-!
# Requests

One logical lookup. A batched request names several hosts in one comma-separated text and its
answers are kept under the hosts they name, so it cannot carry a cache key of its own.
-/

namespace HttpDns

structure Request where
  host : String
  accountId : String
  secretKey : Option String := none
  /-- the resolver server; drawn when the request is prepared if none is named -/
  resolver : Option String := none
  queryType : QueryType := .auto
  clientIp : Option String := none
  usingHttps : Bool := true
  usingSign : Bool := false
  /-- the request is batched -/
  usingMulti : Bool := false
  usingCache : Bool := true
  timeoutMs : UInt64 := 2500
  cacheKey : Option String := none
  /-- extra parameters, by key in ascending order -/
  sdns : List (String × String) := []
  deriving DecidableEq, Repr

namespace Request

/-- A request filled from a client's configuration. -/
def ofConfig (host : String) (c : ClientConfig) : Request where
  host := host
  accountId := c.accountId
  secretKey := c.secretKey
  usingHttps := c.usingHttps
  usingSign := c.usingSign
  usingCache := c.usingCache
  timeoutMs := c.timeoutMs

/-- The names that are not blank, trimmed. -/
def trimmedNames (names : List String) : List String :=
  (names.map Text.trim).filter (· ≠ "")

/-- A batched request for the hosts that are not blank. -/
def batch (hosts : List String) (c : ClientConfig) : Request :=
  { ofConfig (Text.joinTexts ',' (trimmedNames hosts)) c with usingMulti := true }

/-- The pairs with this one in key order; a pair of the same key is replaced. -/
def insertPair (key value : String) : List (String × String) → List (String × String)
  | [] => [(key, value)]
  | (k, v) :: rest =>
    if key < k then (key, value) :: (k, v) :: rest
    else if key = k then (key, value) :: rest
    else (k, v) :: insertPair key value rest

def withSigning (r : Request) (secret : String) : Request :=
  { r with secretKey := some secret, usingSign := true }

def withSdns (r : Request) (key value : String) : Request :=
  { r with sdns := insertPair key value r.sdns }

/-- The hosts the request names: one unless it is batched. -/
def hosts (r : Request) : List String :=
  if r.usingMulti then trimmedNames (Text.splitText ',' r.host) else [r.host]

/-- The key under which the answer for a host is kept. -/
def cacheKeyFor (r : Request) (host : String) : String :=
  match r.cacheKey with
  | some key => if r.usingMulti || key = "" then host else key
  | none => host

/-- The first fault of the request. -/
def fault? (r : Request) : Option RequestFault :=
  if Text.allBlank r.host then some .blankHost
  else if r.accountId = "" then some .accountMissing
  else if r.usingMulti && r.cacheKey.isSome then some .keyedBatch
  else if r.usingMulti && maxHostsPerBatch < r.hosts.length then
    some (.crowdedBatch r.hosts.length)
  else if r.usingSign && noSecret r.secretKey then some .secretMissing
  else none

end Request

end HttpDns
