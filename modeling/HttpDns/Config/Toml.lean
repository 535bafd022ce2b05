import HttpDns.Error
import HttpDns.Toml.Document

/-!
# Configurations as TOML

A configuration document has a table for the client and one for logging. Keys that are no settings
are passed over, as long as their values can be read. A section that is not given is the default one
as a whole; in one that is given, each setting that is left out has a default of its own. Instead
of a table there may be a list of its settings' values in order; it may be shorter than the
settings, and what it has more is passed over unread. A point in time counts as a table in which
nothing is set. Nothing is converted: a setting has to have a value of its own type and range.
-/

namespace HttpDns

namespace Toml

/-- The settings that are given, by name. -/
abbrev Settings := List (String × Value)

/-- The entries of a table as settings, if all others can be read. -/
def Entries.settings? (names : List String) (es : Entries) : Option Settings :=
  if es.all fun (key, v) => names.contains key || v.isReadable then some es else none

/-- The given settings of a section. -/
def Value.settings? (names : List String) : Value → Option Settings
  | .table _ entries => Entries.settings? names entries
  | .list items => some (names.zip items)
  | .tables last before =>
    some (names.zip ((last :: before).reverse.map (.table .header ·)))
  | .scalar .moment => some []
  | .text _ | .scalar _ => none

/-- The value of a setting, or its default. -/
def Settings.get {α : Type} (ss : Settings) (name : String) (default : α)
    (read : Value → Option α) : Option α :=
  match ss.lookup name with
  | none => some default
  | some v => read v

namespace Value

def text? : Value → Option String
  | .text s => some s
  | _ => none

def bool? : Value → Option Bool
  | .scalar (.bool b) => some b
  | _ => none

/-- A whole number that is not negative and at most `limit`. -/
def natural? (limit : Nat) : Value → Option Nat
  | .scalar (.whole (.ofNat n)) => if n ≤ limit then some n else none
  | _ => none

def word32? (v : Value) : Option UInt32 :=
  (v.natural? (UInt32.size - 1)).map UInt32.ofNat

def word64? (v : Value) : Option UInt64 :=
  (v.natural? (UInt64.size - 1)).map UInt64.ofNat

def texts? : Value → Option (List String)
  | .list items => items.mapM text?
  | _ => none

end Value

end Toml

open Toml (Value Settings)

namespace ClientConfig

/-- The names of the settings in order. -/
def settingNames : List String :=
  ["account_id", "secret_key", "region", "using_https", "using_sign", "using_cache", "timeout_ms",
    "retry_times", "boot_servers_ipv4", "boot_servers_ipv6", "sign_offset_secs", "probe_domain",
    "net_stack_cache", "platform", "sdk_version", "local_fallback_ttl"]

/-- The client section with the given settings. -/
def ofSettings? (ss : Settings) : Option ClientConfig := do
  let d : ClientConfig := {}
  let accountId ← ss.get "account_id" "" Value.text?
  let secretKey ← ss.get "secret_key" none fun v => v.text?.map some
  let region ← ss.get "region" "" Value.text?
  let usingHttps ← ss.get "using_https" true Value.bool?
  let usingSign ← ss.get "using_sign" false Value.bool?
  let usingCache ← ss.get "using_cache" true Value.bool?
  let timeoutMs ← ss.get "timeout_ms" d.timeoutMs Value.word64?
  let retryTimes ← ss.get "retry_times" d.retryTimes Value.word32?
  let bootServersIpv4 ← ss.get "boot_servers_ipv4" d.bootServersIpv4 Value.texts?
  let bootServersIpv6 ← ss.get "boot_servers_ipv6" d.bootServersIpv6 Value.texts?
  let signOffsetSecs ← ss.get "sign_offset_secs" d.signOffsetSecs Value.word64?
  let probeDomain ← ss.get "probe_domain" d.probeDomain Value.text?
  let netStackCache ← ss.get "net_stack_cache" true Value.bool?
  let platform ← ss.get "platform" d.platform Value.text?
  let sdkVersion ← ss.get "sdk_version" d.sdkVersion Value.text?
  let localFallbackTtl ← ss.get "local_fallback_ttl" d.localFallbackTtl Value.word32?
  pure
    { accountId, secretKey, region, usingHttps, usingSign, usingCache, timeoutMs, retryTimes
      bootServersIpv4, bootServersIpv6, signOffsetSecs, probeDomain, netStackCache, platform
      sdkVersion, localFallbackTtl }

def ofValue? (v : Value) : Option ClientConfig :=
  (v.settings? settingNames).bind ofSettings?

end ClientConfig

namespace LoggingConfig

/-- The names of the settings in order. -/
def settingNames : List String := ["level", "json"]

/-- The logging section with the given settings. -/
def ofSettings? (ss : Settings) : Option LoggingConfig := do
  let d : LoggingConfig := {}
  let level ← ss.get "level" d.level Value.text?
  let json ← ss.get "json" false Value.bool?
  pure { level, json }

def ofValue? (v : Value) : Option LoggingConfig :=
  (v.settings? settingNames).bind ofSettings?

end LoggingConfig

namespace Config

/-- The names of the sections. -/
def sectionNames : List String := ["client", "logging"]

/-- The configuration of a document. -/
def ofEntries? (es : Toml.Entries) : Option Config := do
  let ss ← Toml.Entries.settings? sectionNames es
  let client ← ss.get "client" {} ClientConfig.ofValue?
  let logging ← ss.get "logging" {} LoggingConfig.ofValue?
  pure { client, logging }

/-- The configuration a text spells. -/
def ofToml (s : String) : Except ConfigError Config :=
  match (Toml.parse s.toList).bind ofEntries? with
  | some c => .ok c
  | none => .error .parse

end Config

end HttpDns
