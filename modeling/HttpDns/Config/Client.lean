import HttpDns.Text.Blank

/-!
# Client configuration

The values a client is built from, their defaults, and the faults that make a configuration
unusable. A configuration has at most one reported fault: the first in the order account, boot
servers, timeout, retries, signing.
-/

namespace HttpDns

structure ClientConfig where
  accountId : String := ""
  secretKey : Option String := none
  /-- sent with schedule requests; empty for global -/
  region : String := ""
  usingHttps : Bool := true
  usingSign : Bool := false
  usingCache : Bool := true
  /-- of one exchange, in milliseconds -/
  timeoutMs : UInt64 := 2500
  /-- rounds after the first failed exchange -/
  retryTimes : UInt32 := 1
  bootServersIpv4 : List String :=
    ["203.107.1.1", "203.107.1.97", "203.107.1.100", "203.119.238.240", "106.11.25.239",
      "59.82.99.47"]
  bootServersIpv6 : List String :=
    ["2401:b180:7001::31d", "2408:4003:1f40::30a", "2401:b180:2000:20::10",
      "2401:b180:2000:30::1c"]
  /-- validity of a signature, in seconds -/
  signOffsetSecs : UInt64 := 1800
  probeDomain : String := "www.taobao.com"
  netStackCache : Bool := true
  platform : String := "linux"
  sdkVersion : String := "0.3.1"
  localFallbackTtl : UInt32 := 60
  deriving DecidableEq, Repr

structure LoggingConfig where
  level : String := "info"
  json : Bool := false
  deriving DecidableEq, Repr

structure Config where
  client : ClientConfig := {}
  logging : LoggingConfig := {}
  deriving DecidableEq, Repr

/-- What makes a configuration unusable. -/
inductive ConfigFault
  | accountMissing
  | noBootServer
  | zeroTimeout
  | tooManyRetries
  | secretMissing
  /-- the level in lower case names no level -/
  | unknownLevel (level : String)
  deriving DecidableEq, Repr

/-- The secret is absent or empty. -/
def noSecret : Option String → Bool
  | none => true
  | some s => s = ""

namespace ClientConfig

/-- The greatest number of retries that is accepted. -/
def maxRetryTimes : UInt32 := 10

/-- The first fault of the configuration. -/
def fault? (c : ClientConfig) : Option ConfigFault :=
  if Text.allBlank c.accountId then some .accountMissing
  else if c.bootServersIpv4 = [] ∧ c.bootServersIpv6 = [] then some .noBootServer
  else if c.timeoutMs = 0 then some .zeroTimeout
  else if maxRetryTimes < c.retryTimes then some .tooManyRetries
  else if c.usingSign && noSecret c.secretKey then some .secretMissing
  else none

end ClientConfig

/-- The scheme of the URLs. -/
def schemeName (usingHttps : Bool) : String :=
  if usingHttps then "https" else "http"

namespace Config

/-- The names a logging level may have, in any ASCII case. -/
def levels : List String := ["trace", "debug", "info", "warn", "error"]

/-- The first fault of the configuration; the client's faults come first. -/
def fault? (c : Config) : Option ConfigFault :=
  match c.client.fault? with
  | some f => some f
  | none =>
    let level := c.logging.level.toLower
    if level ∈ levels then none else some (.unknownLevel level)

end Config

/-- Values given outside the configuration file, which take precedence over it. -/
structure Overrides where
  accountId : Option String := none
  secretKey : Option String := none
  region : Option String := none
  timeoutMs : Option UInt64 := none
  retryTimes : Option UInt32 := none
  usingHttps : Option Bool := none
  usingCache : Option Bool := none
  logLevel : Option String := none
  deriving DecidableEq, Repr

/-- The configuration with the given values in place of its own; a given secret switches signing
on. -/
def Config.override (c : Config) (o : Overrides) : Config where
  client :=
    { c.client with
      accountId := o.accountId.getD c.client.accountId
      secretKey := o.secretKey.or c.client.secretKey
      usingSign := o.secretKey.isSome || c.client.usingSign
      region := o.region.getD c.client.region
      timeoutMs := o.timeoutMs.getD c.client.timeoutMs
      retryTimes := o.retryTimes.getD c.client.retryTimes
      usingHttps := o.usingHttps.getD c.client.usingHttps
      usingCache := o.usingCache.getD c.client.usingCache }
  logging := { c.logging with level := o.logLevel.getD c.logging.level }

theorem Config.override_none (c : Config) : c.override {} = c := by
  simp [Config.override]

end HttpDns
