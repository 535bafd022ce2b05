import HttpDns.Bootstrap
import HttpDns.Job
import HttpDns.SystemResolver

/-!
# Clients

A client owns a cache, a server pool and the boot servers it knows, and runs its lookups over them.
A lookup with an empty pool first bootstraps, once and whether or not that succeeds. A fallback
lookup asks the system resolver when the service has no answer; such answers are not cached.
-/

namespace HttpDns

/-- A client has a configuration without fault. -/
structure Client where
  config : ClientConfig
  valid : config.fault? = none

namespace Client

variable {τ : Type}

/-- What a client owns, beside the services' own state. -/
abbrev State (τ : Type) := Cache × Pool × Roster × τ

def new (c : ClientConfig) : Except ConfigError Client :=
  match h : c.fault? with
  | none => .ok ⟨c, h⟩
  | some f => .error (.validation f)

/-- The state of a new client. -/
def initial (c : Client) (w : τ) : State τ :=
  ({}, {}, Roster.ofConfig c.config, w)

/-- The services with the client's own cache and pool. -/
def services (S : Services τ) : Services (State τ) :=
  (Services.beside (α := Roster) S).withPool.withCache

/-- An empty job over the client's configuration. -/
def job (c : Client) : Job :=
  { settings := .ofConfig c.config }

/-- A request with the client's defaults. -/
def request (c : Client) (host : String) (q : QueryType) : Request :=
  { Request.ofConfig host c.config with queryType := q }

/-! ## Bootstrapping -/

/-- The boot servers known. -/
def bootServers : Action (State τ) Roster :=
  Action.read fun s => s.2.2.1

/-- Appends what the other roster has more to the boot servers. -/
def absorb (known : Roster) : Action (State τ) Unit :=
  Action.effect fun (cache, pool, boot, w) => (cache, pool, boot.union known, w)

/-- Fetches the list of resolver servers from the boot servers. -/
def bootstrap (S : Services τ) (c : Client) : Action (State τ) (Except Error Unit) := do
  let boot ← bootServers
  match ← Action.beside (Bootstrap.bootstrap (Services.beside S) c.config boot) with
  | .error e => pure (.error e)
  | .ok known => do
    absorb known
    pure (.ok ())

/-- No resolver server is known. -/
def poolEmpty : Action (State τ) Bool :=
  Action.read fun s => s.2.1.isEmpty

/-- Bootstraps if no resolver server is known; a failure shows when a server is drawn. -/
def ensureServers (S : Services τ) (c : Client) : Action (State τ) Unit := do
  if ← poolEmpty then do
    let _ ← bootstrap S c
    pure ()
  else pure ()

/-! ## Lookups -/

def run (S : Services τ) (j : Job) : Action (State τ) (Job × Except Error Unit) :=
  Job.run (services S) j

/-- The first answer of a job. -/
def firstAnswer (j : Job) : Option Resolution :=
  j.queries.head?.bind (·.results.head?)

/-- The first answer for a request; none if its attempts ran out. -/
def resolve (S : Services τ) (c : Client) (r : Request) :
    Action (State τ) (Except Error (Option Resolution)) :=
  match c.job.add r false with
  | .error f => pure (.error (.request f))
  | .ok j => do
    ensureServers S c
    let (j, outcome) ← run S j
    pure (outcome.map fun _ => firstAnswer j)

def resolveHost (S : Services τ) (c : Client) (host : String) (q : QueryType) :
    Action (State τ) (Except Error (Option Resolution)) :=
  resolve S c (c.request host q)

/-- The list in runs of `n`, the last one possibly shorter; `n` has to be positive. -/
def chunks {α : Type} (n : Nat) (h : 0 < n) : List α → List (List α)
  | [] => []
  | x :: rest => (x :: rest.take (n - 1)) :: chunks n h (rest.drop (n - 1))
termination_by l => l.length

/-- The batched requests for some hosts; blank hosts are passed over, and so is a batch of none. -/
def batchRequests (c : Client) (hosts : List String) (q : QueryType) : List Request :=
  ((chunks maxHostsPerBatch (by decide) hosts).map fun chunk =>
    { Request.batch chunk c.config with queryType := q }).filter (·.host ≠ "")

/-- Queues requests without callbacks until one is refused. -/
def addAll (j : Job) : List Request → Except RequestFault Job
  | [] => .ok j
  | r :: rest =>
    match j.add r false with
    | .error f => .error f
    | .ok j => addAll j rest

/-- One answer for each host that was answered, in ascending order of hosts. -/
def resolveBatch (S : Services τ) (c : Client) (hosts : List String) (q : QueryType) :
    Action (State τ) (Except Error (List Resolution)) :=
  match addAll c.job (batchRequests c hosts q) with
  | .error f => pure (.error (.request f))
  | .ok j =>
    if j.queries = [] then pure (.ok [])
    else do
      ensureServers S c
      let (j, outcome) ← run S j
      pure (outcome.map fun _ => Resolution.merge (j.queries.flatMap (·.results)))

/-- Runs a request for its callback; a faulty one is refused at once. -/
def spawn (S : Services τ) (c : Client) (r : Request) :
    Action (State τ) (Except RequestFault (Except Error Unit)) :=
  match c.job.add r true with
  | .error f => pure (.error f)
  | .ok j => do
    ensureServers S c
    let (_, outcome) ← run S j
    pure (.ok outcome)

/-- The type for the system resolver, with the detector asked where it is left open. -/
def settledType (S : Services τ) : QueryType → Action (State τ) QueryType
  | .auto => do
    let stack ← Action.call (services S).stack
    Action.tell (.detected stack)
    pure (.ofStack stack)
  | q => pure q

/-- The system resolver's answer for a host. -/
def resolveLocally (S : Services τ) (c : Client) (host : String) (q : QueryType) :
    Action (State τ) (Option Resolution) := do
  let q ← settledType S q
  let addrs ← Action.call ((services S).systemLookup host)
  let now ← Action.read (services S).instant
  pure (SystemResolver.resolve c.config.localFallbackTtl host q addrs now)

/-- The service's answer for a host, or the system resolver's where there is none. -/
def resolveWithFallback (S : Services τ) (c : Client) (host : String) (q : QueryType) :
    Action (State τ) (Except Error (Option Resolution)) := do
  match ← resolveHost S c host q with
  | .ok (some r) => pure (.ok (some r))
  | .ok none | .error .noResolverAvailable => do
    let r ← resolveLocally S c host q
    pure (.ok r)
  | .error e => pure (.error e)

end Client

end HttpDns
