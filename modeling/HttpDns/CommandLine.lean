import HttpDns.Config.Client
import HttpDns.QueryType
import HttpDns.Resolution

/-!
# The command line

Arguments are taken one after the other. An option whose value is an argument of its own is only
settled when the next argument settles it, or at the end; an unknown option or a value attached to
a switch is refused before that. What is settled first decides which of several faults is told. A
lone double hyphen ends the options. Every option and switch stands at most once.
-/

namespace HttpDns.CommandLine

/-- An option without a value. -/
inductive Switch
  | http
  | noCache
  | batch
  | fallback
  | detectStack
  | help
  | version
  deriving DecidableEq, Repr

/-- An option with a value. -/
inductive Setting
  | config
  | accountId
  | secretKey
  | type
  | timeoutMs
  | retryTimes
  | logLevel
  deriving DecidableEq, Repr

inductive Flag
  | switch (s : Switch)
  | setting (s : Setting)
  deriving DecidableEq, Repr

/-- The flags by their long names. -/
def longNames : List (String × Flag) :=
  [("config", .setting .config), ("account-id", .setting .accountId),
    ("secret-key", .setting .secretKey), ("type", .setting .type),
    ("timeout-ms", .setting .timeoutMs), ("retry-times", .setting .retryTimes),
    ("http", .switch .http), ("no-cache", .switch .noCache), ("batch", .switch .batch),
    ("fallback", .switch .fallback), ("detect-stack", .switch .detectStack),
    ("log-level", .setting .logLevel), ("help", .switch .help), ("version", .switch .version)]

/-- The flags that have a letter as well. -/
def letters : List (Char × Flag) :=
  [('c', .setting .config), ('a', .setting .accountId), ('t', .setting .type),
    ('b', .switch .batch), ('f', .switch .fallback), ('h', .switch .help),
    ('V', .switch .version)]

/-- Why the arguments are not acted upon. -/
inductive Refusal
  /-- the help text is asked for -/
  | help
  /-- the version is asked for -/
  | version
  | unknownFlag
  /-- an option stands without its value -/
  | valueMissing (s : Setting)
  /-- the value is none of its option's -/
  | valueRejected (s : Setting) (value : String)
  | repeated
  /-- a value is attached to a switch -/
  | valueUnneeded (s : Switch)
  /-- there is no host to resolve -/
  | hostMissing
  deriving DecidableEq, Repr

/-- What the arguments ask for. -/
structure Invocation where
  hosts : List String := []
  configPath : Option String := none
  accountId : Option String := none
  secretKey : Option String := none
  queryType : Option QueryType := none
  timeoutMs : Option UInt64 := none
  retryTimes : Option UInt32 := none
  logLevel : Option String := none
  http : Bool := false
  noCache : Bool := false
  batch : Bool := false
  fallback : Bool := false
  detectStack : Bool := false
  deriving DecidableEq, Repr

namespace Invocation

/-- The type asked for; left open by default. -/
def type (i : Invocation) : QueryType :=
  i.queryType.getD .auto

/-- What takes precedence over the configuration file. -/
def overrides (i : Invocation) : Overrides where
  accountId := i.accountId
  secretKey := i.secretKey
  timeoutMs := i.timeoutMs
  retryTimes := i.retryTimes
  usingHttps := if i.http then some false else none
  usingCache := if i.noCache then some false else none
  logLevel := i.logLevel

end Invocation

/-! ## Values -/

def digits? : List Char → Nat → Option Nat
  | [], n => some n
  | c :: cs, n => if c.isDigit then digits? cs (10 * n + (c.toNat - 0x30)) else none

/-- At least one digit, and nothing else. -/
def natural? : List Char → Option Nat
  | [] => none
  | cs => digits? cs 0

/-- A number below `limit`, with an optional plus sign. -/
def unsigned? (limit : Nat) (value : String) : Option Nat :=
  let n := match value.toList with
    | '+' :: cs => natural? cs
    | cs => natural? cs
  n.filter (· < limit)

/-- A number below `limit`; a minus sign is accepted before zero. -/
def signed? (limit : Nat) (value : String) : Option Nat :=
  match value.toList with
  | '-' :: cs => (natural? cs).filter (· = 0)
  | _ => unsigned? limit value

/-- A setting that is not given yet. -/
def fresh {α : Type} (old : Option α) : Except Refusal Unit :=
  match old with
  | some _ => .error .repeated
  | none => .ok ()

/-- The value, if it is one of the option's. -/
def checked {α : Type} (s : Setting) (value : String) (read : Option α) : Except Refusal α :=
  match read with
  | some a => .ok a
  | none => .error (.valueRejected s value)

namespace Invocation

/-- The invocation with a value for an option. -/
def set (i : Invocation) (s : Setting) (value : String) : Except Refusal Invocation :=
  match s with
  | .config => do fresh i.configPath; pure { i with configPath := some value }
  | .accountId => do fresh i.accountId; pure { i with accountId := some value }
  | .secretKey => do fresh i.secretKey; pure { i with secretKey := some value }
  | .logLevel => do fresh i.logLevel; pure { i with logLevel := some value }
  | .type => do
    fresh i.queryType
    let q ← checked s value (QueryType.parse value).toOption
    pure { i with queryType := some q }
  | .timeoutMs => do
    fresh i.timeoutMs
    let n ← checked s value (unsigned? UInt64.size value)
    pure { i with timeoutMs := some (.ofNat n) }
  | .retryTimes => do
    fresh i.retryTimes
    let n ← checked s value (signed? UInt32.size value)
    pure { i with retryTimes := some (.ofNat n) }

/-- A switch that is not set yet. -/
def off (old : Bool) : Except Refusal Unit :=
  if old then .error .repeated else .ok ()

/-- The invocation with a switch set. -/
def turnOn (i : Invocation) (s : Switch) : Except Refusal Invocation :=
  match s with
  | .http => do off i.http; pure { i with http := true }
  | .noCache => do off i.noCache; pure { i with noCache := true }
  | .batch => do off i.batch; pure { i with batch := true }
  | .fallback => do off i.fallback; pure { i with fallback := true }
  | .detectStack => do off i.detectStack; pure { i with detectStack := true }
  | .help => .error .help
  | .version => .error .version

end Invocation

/-! ## Arguments -/

/-- How far the arguments have been taken. -/
structure Progress where
  invocation : Invocation := {}
  /-- an option that is not settled, with its value if that has come -/
  pending : Option (Setting × Option String) := none
  /-- the options have ended -/
  trailing : Bool := false
  deriving DecidableEq, Repr

namespace Progress

/-- Settles the pending option. -/
def settle (p : Progress) : Except Refusal Progress :=
  match p.pending with
  | none => .ok p
  | some (s, none) => .error (.valueMissing s)
  | some (s, some value) => do
    let i ← p.invocation.set s value
    pure { p with invocation := i, pending := none }

def host (p : Progress) (arg : String) : Except Refusal Progress := do
  let p ← p.settle
  pure { p with invocation := { p.invocation with hosts := p.invocation.hosts ++ [arg] } }

def switch (p : Progress) (s : Switch) : Except Refusal Progress := do
  let p ← p.settle
  let i ← p.invocation.turnOn s
  pure { p with invocation := i }

/-- An option with its value attached, or with its value still to come. -/
def setting (p : Progress) (s : Setting) (attached : Option String) :
    Except Refusal Progress := do
  let p ← p.settle
  match attached with
  | some value => do
    let i ← p.invocation.set s value
    pure { p with invocation := i }
  | none => pure { p with pending := some (s, none) }

/-- A flag by its long name, with what follows an equals sign. -/
def long (p : Progress) (name : String) (attached : Option String) : Except Refusal Progress :=
  match longNames.lookup name, attached with
  | none, _ => .error .unknownFlag
  | some (.switch s), some _ => .error (.valueUnneeded s)
  | some (.switch s), none => p.switch s
  | some (.setting s), attached => p.setting s attached

/-- The value attached to a letter, after an optional equals sign; none if nothing is attached. -/
def attachment : List Char → Option String
  | [] => none
  | '=' :: cs => some (String.ofList cs)
  | cs => some (String.ofList cs)

/-- Letters after one hyphen; the first that takes a value takes the rest. -/
def short (p : Progress) : List Char → Except Refusal Progress
  | [] => .ok p
  | c :: cs =>
    match letters.lookup c with
    | none => .error .unknownFlag
    | some (.switch s) => do
      let p ← p.switch s
      p.short cs
    | some (.setting s) => p.setting s (attachment cs)

/-- The name before the first equals sign, and what follows it. -/
def splitName (cs : List Char) : String × Option String :=
  match cs.span (· ≠ '=') with
  | (name, []) => (String.ofList name, none)
  | (name, _ :: value) => (String.ofList name, some (String.ofList value))

/-- An argument that is no flag: the value of the option before it, or a host. -/
def word (p : Progress) (arg : String) : Except Refusal Progress :=
  match p.pending with
  | some (s, none) => .ok { p with pending := some (s, some arg) }
  | _ => p.host arg

/-- One argument. -/
def step (p : Progress) (arg : String) : Except Refusal Progress :=
  if p.trailing then p.host arg
  else
    match arg.toList with
    | ['-', '-'] => .ok { p with trailing := true }
    | '-' :: '-' :: cs =>
      let (name, attached) := splitName cs
      p.long name attached
    | '-' :: c :: cs => p.short (c :: cs)
    | _ => p.word arg

end Progress

/-- What the arguments ask for; without hosts only the stack can be asked for. -/
def parse (args : List String) : Except Refusal Invocation := do
  let p ← args.foldlM Progress.step {}
  let p ← p.settle
  if p.invocation.hosts = [] ∧ ¬ p.invocation.detectStack then .error .hostMissing
  else pure p.invocation

/-! ## Output -/

/-- The line that is printed for a resolution. -/
def line (r : Resolution) : String :=
  r.host ++ " -> " ++ ",".intercalate r.ips.addrs ++ " / " ++ ",".intercalate r.ipsv6.addrs
    ++ " (ttl=" ++ toString r.ttl.toNat ++ (if r.hitCache then ", cached" else "") ++ ")"

end HttpDns.CommandLine
