import HttpDns.Query
import HttpDns.Services
import HttpDns.Url

/-!
# Jobs

A job drives its queries together. First each pending query gets a server and a settled type and
asks the cache. Then rounds follow: every query with attempts left is sent once, all exchanges of
a round in one batch, and the usable answers of a round are merged before they are handed to the
queries whose own exchange succeeded. A failed query is sent to another server in the next round.
When nothing is left to send the queries still pending are exhausted.

A job fails only while it is prepared, when no server can be drawn.
-/

namespace HttpDns

structure JobSettings where
  /-- rounds a query gets after its first failed exchange -/
  retryTimes : UInt32
  platform : String
  sdkVersion : String
  /-- validity of signatures, in milliseconds -/
  validityMs : Nat
  deriving DecidableEq, Repr

namespace JobSettings

def ofConfig (c : ClientConfig) : JobSettings where
  retryTimes := c.retryTimes
  platform := c.platform
  sdkVersion := c.sdkVersion
  validityMs := c.signOffsetSecs.toNat * 1000

/-- The exchanges a query may make; a 32-bit number. -/
def attempts (s : JobSettings) : Nat :=
  min (s.retryTimes.toNat + 1) (UInt32.size - 1)

def sender (s : JobSettings) (signer : Signer) : Url.Sender where
  signer := signer
  platform := s.platform
  sdkVersion := s.sdkVersion
  validityMs := s.validityMs

end JobSettings

structure Job where
  settings : JobSettings
  queries : List Query := []
  deriving DecidableEq, Repr

/-- Queues a request; a faulty one is refused and leaves the job as it is. -/
def Job.add (j : Job) (r : Request) (armed : Bool) : Except RequestFault Job :=
  match r.fault? with
  | some f => .error f
  | none => .ok { j with queries := j.queries ++ [.ofRequest r armed j.settings.attempts] }

namespace Job

variable {σ : Type}

/-! ## Preparation -/

/-- The query with a server, drawn if it names none; none if none can be drawn. -/
def assignServer (S : Services σ) (i : Nat) (q : Query) : Action σ (Option Query) :=
  match q.request.resolver with
  | some _ => pure (some q)
  | none => do
    let server ← Action.call S.pick
    Action.tell (.drew i server)
    pure (server.map fun e => q.serve e.addr)

/-- The detected stack; the detector is asked only if it has not been before. -/
def askStack (S : Services σ) : Option Stack → Action σ Stack
  | some stack => pure stack
  | none => do
    let stack ← Action.call S.stack
    Action.tell (.detected stack)
    pure stack

/-- The query with its type settled, and the stack if it is known now. -/
def assignType (S : Services σ) (seen : Option Stack) (q : Query) :
    Action σ (Query × Option Stack) :=
  if q.request.queryType = .auto then do
    let stack ← askStack S seen
    pure (q.settle (.ofStack stack), some stack)
  else pure (q, seen)

/-- Calls the query's callback, if it has one, with all its results. -/
def fire (i : Nat) (q : Query) (results : List Resolution) : Action σ Unit :=
  if q.armed then Action.tell (.fired i results) else pure ()

/-- The completed query. -/
def complete (i : Nat) (q : Query) (answers : List Resolution) : Action σ Query := do
  fire i q (q.results ++ answers)
  pure (q.complete answers)

/-- The query after it asked the cache: completed by a hit, narrowed by a partial one. -/
def probe (S : Services σ) (i : Nat) (q : Query) : Action σ Query :=
  if q.usesProbe then do
    let found ← Action.call (S.lookup q.ownKey q.queryType)
    Action.tell (.probed i q.ownKey q.queryType found)
    match found with
    | none => pure q
    | some hit =>
      match hit.missing q.queryType with
      | none => do
        Action.effect (S.rotate q.ownKey)
        Action.tell (.rotated i q.ownKey)
        complete i q [{ hit with hitCache := true }]
      | some type => pure { q with queryType := type, partialHit := some hit }
  else pure q

/-- The queries from position `i` on, each pending one prepared, and whether all could be. -/
def prepare (S : Services σ) : (i : Nat) → (seen : Option Stack) → List Query →
    Action σ (List Query × Bool)
  | _, _, [] => pure ([], true)
  | i, seen, q :: rest =>
    if q.state = .pending then do
      match ← assignServer S i q with
      | none => pure (q :: rest, false)
      | some q => do
        let (q, seen) ← assignType S seen q
        let q ← probe S i q
        let (rest, ok) ← prepare S (i + 1) seen rest
        pure (q :: rest, ok)
    else do
      let (rest, ok) ← prepare S (i + 1) seen rest
      pure (q :: rest, ok)

/-! ## Rounds -/

/-- What is sent for a query in a round. -/
structure Outgoing where
  request : Request
  exchange : Exchange
  deriving DecidableEq, Repr

/-- A query at its position in a round, with what is sent for it. -/
structure Seat where
  index : Nat
  query : Query
  out : Option Outgoing := none
  deriving DecidableEq, Repr

/-- The server of a failed exchange, which later rounds avoid. -/
def failedBefore (round : Nat) (q : Query) : Option String :=
  if 0 < round then q.lastFailed else none

/-- The query that may be sent, moved to another server after a failure; none if there is no
server for it. -/
def switchServer (S : Services σ) (round i : Nat) (q : Query) : Action σ (Option Query) :=
  match failedBefore round q with
  | none => pure (some q)
  | some failed => do
    let server ← Action.call (S.pickOther failed)
    Action.tell (.switched i failed server)
    pure (server.map fun e => { q.serve e.addr with lastFailed := none })

/-- What is sent for a query that has a server. -/
def outgoing (S : Services σ) (settings : JobSettings) (now : Nat) (q : Query) :
    Option Outgoing :=
  q.request.resolver.map fun server =>
    let request := { q.request with queryType := q.queryType }
    { request
      exchange :=
        { url := Url.resolve (settings.sender S.signer) request server q.queryType now
          server
          timeoutMs := request.timeoutMs } }

/-- Spends an attempt of a query that may be sent. -/
def board (S : Services σ) (settings : JobSettings) (now round i : Nat) (q : Query) :
    Action σ Seat :=
  if q.isRunnable then do
    match ← switchServer S round i q with
    | none => pure { index := i, query := { q with attemptsLeft := 0, lastFailed := none } }
    | some q =>
      let q := { q with attemptsLeft := q.attemptsLeft - 1 }
      pure { index := i, query := q, out := outgoing S settings now q }
  else pure { index := i, query := q }

def boardAll (S : Services σ) (settings : JobSettings) (now round : Nat) : (i : Nat) →
    List Query → Action σ (List Seat)
  | _, [] => pure []
  | i, q :: rest => do
    let seat ← board S settings now round i q
    let seats ← boardAll S settings now round (i + 1) rest
    pure (seat :: seats)

/-- What goes out in a round, in the order of the queries. -/
def manifest (seats : List Seat) : List (Nat × Exchange) :=
  seats.filterMap fun s => s.out.map fun o => (s.index, o.exchange)

def batchOf (seats : List Seat) : List Exchange :=
  (manifest seats).map (·.2)

/-- What a round brought a query. -/
inductive Outcome
  /-- nothing was sent for it -/
  | idle
  | failed (out : Outgoing)
  | answered (out : Outgoing) (answers : List Answer)
  deriving DecidableEq, Repr

structure Landing where
  index : Nat
  query : Query
  outcome : Outcome
  deriving DecidableEq, Repr

/-- The answers a body holds for a request; an answer without a host is for the request's. -/
def readBody (S : Services σ) (r : Request) (body : String) : Action σ (List Answer) :=
  if r.usingMulti then Action.call (S.readMulti body)
  else do
    match ← Action.call (S.readSingle body) with
    | none => pure []
    | some a => pure [if a.host = "" then { a with host := r.host } else a]

/-- The answers with an address in a reply, and its round-trip time; none if there are none. -/
def usable (S : Services σ) (r : Request) (reply : Reply) :
    Action σ (Option (List Answer × UInt32)) :=
  match reply with
  | .error _ => pure none
  | .ok response =>
    if response.isOk then do
      let answers ← readBody S r response.body
      match answers.filter (!·.isEmpty) with
      | [] => pure none
      | answers => pure (some (answers, response.rtt))
    else pure none

/-- The sample that stands for a failed exchange. -/
def penalty (r : Request) : UInt32 :=
  UInt32.ofNat (min r.timeoutMs.toNat (UInt32.size - 1))

def report (S : Services σ) (i : Nat) (server : String) (ms : UInt32) : Action σ Unit := do
  Action.effect (S.sample server ms)
  Action.tell (.sampled i server ms)

/-- What a reply brings a query; its server is given a sample either way. -/
def land (S : Services σ) (i : Nat) (q : Query) (out : Outgoing) (reply : Reply) :
    Action σ Landing := do
  match ← usable S out.request reply with
  | some (answers, rtt) => do
    report S i out.exchange.server rtt
    pure { index := i, query := q, outcome := .answered out answers }
  | none => do
    report S i out.exchange.server (penalty out.request)
    pure
      { index := i
        query := { q with lastFailed := some out.exchange.server }
        outcome := .failed out }

/-- The replies go to the seats something was sent for, in order. -/
def landAll (S : Services σ) : List Seat → List Reply → Action σ (List Landing)
  | [], _ => pure []
  | seat :: seats, replies =>
    match seat.out, replies with
    | none, _ => do
      let rest ← landAll S seats replies
      pure ({ index := seat.index, query := seat.query, outcome := .idle } :: rest)
    | some _, [] => do
      let rest ← landAll S seats []
      pure ({ index := seat.index, query := seat.query, outcome := .idle } :: rest)
    | some out, reply :: replies => do
      let landing ← land S seat.index seat.query out reply
      let rest ← landAll S seats replies
      pure (landing :: rest)

/-- The resolutions of a landing. -/
def Landing.resolutions (now : Nat) (l : Landing) : List Resolution :=
  match l.outcome with
  | .answered out answers =>
    answers.map fun a => .ofAnswer a (out.request.cacheKeyFor a.host) now
  | .idle | .failed _ => []

/-- The merged resolutions of a round. -/
def roundResolutions (now : Nat) (landings : List Landing) : List Resolution :=
  Resolution.merge (landings.flatMap (Landing.resolutions now))

/-- A partial hit fills the gaps of the resolution under its own key. -/
def fillFrom (hit : Option Resolution) (r : Resolution) : Resolution :=
  match hit with
  | some p => if r.cacheKey = p.cacheKey then r.fillGaps p else r
  | none => r

/-- A query's share of a round: the resolutions of the hosts its own exchange answered, under its
own keys and with the gaps filled from its partial hit. -/
def share (merged : List Resolution) (q : Query) (answers : List Answer) : List Resolution :=
  (merged.filter fun r => answers.any (·.host = r.host)).map fun r =>
    fillFrom q.partialHit { r with cacheKey := q.request.cacheKeyFor r.host }

def storeAll (S : Services σ) (i : Nat) : List Resolution → Action σ Unit
  | [] => pure ()
  | r :: rest => do
    Action.effect (S.store r)
    Action.tell (.stored i r)
    storeAll S i rest

/-- The query after a round: completed with its share if it was answered. -/
def deliver (S : Services σ) (merged : List Resolution) (l : Landing) : Action σ Query :=
  match l.outcome with
  | .idle | .failed _ => pure l.query
  | .answered _ answers => do
    let results := share merged l.query answers
    if l.query.request.usingCache then storeAll S l.index results
    complete l.index { l.query with partialHit := none } results

def deliverAll (S : Services σ) (merged : List Resolution) : List Landing →
    Action σ (List Query)
  | [] => pure []
  | l :: rest => do
    let q ← deliver S merged l
    let qs ← deliverAll S merged rest
    pure (q :: qs)

/-- The seats of a round. -/
def launch (S : Services σ) (settings : JobSettings) (round : Nat) (queries : List Query) :
    Action σ (List Seat) := do
  let now ← Action.read S.seconds
  boardAll S settings now round 0 queries

/-- The queries after the replies of a round. -/
def receive (S : Services σ) (seats : List Seat) (replies : List Reply) :
    Action σ (List Query) := do
  let now ← Action.read S.instant
  let landings ← landAll S seats replies
  deliverAll S (roundResolutions now landings) landings

/-- Sends what goes out in a round, in one batch. -/
def exchange (S : Services σ) (round : Nat) (seats : List Seat) : Action σ (List Reply) := do
  Action.tell (.sent round (manifest seats))
  let replies ← Action.call (S.sendAll (batchOf seats))
  pure replies.1

/-- Rounds until nothing goes out. A round costs every query that may be sent an attempt, so as
many rounds as the most attempts of a query are always enough. -/
def rounds (S : Services σ) (settings : JobSettings) : (most : Nat) → (round : Nat) →
    List Query → Action σ (List Query)
  | 0, _, queries => pure queries
  | most + 1, round, queries => do
    let seats ← launch S settings round queries
    if manifest seats = [] then pure (seats.map (·.query))
    else do
      let replies ← exchange S round seats
      let queries ← receive S seats replies
      rounds S settings most (round + 1) queries

/-- The most attempts a query has left. -/
def mostAttempts (queries : List Query) : Nat :=
  queries.foldr (fun q n => max q.attemptsLeft n) 0

/-- Runs a job until each of its queries is completed or exhausted. -/
def run (S : Services σ) (j : Job) : Action σ (Job × Except Error Unit) := do
  let (queries, ok) ← prepare S 0 none j.queries
  if ok then do
    let queries ← rounds S j.settings (mostAttempts queries) 0 queries
    pure ({ j with queries := queries.map Query.sweep }, .ok ())
  else pure ({ j with queries }, .error .noResolverAvailable)

end Job

end HttpDns
