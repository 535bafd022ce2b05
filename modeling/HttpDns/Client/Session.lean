import HttpDns.Client

/-!
# Concurrent calls

Several calls on one client, advanced one at a time from one suspension to the next. A call is
suspended while its exchange is in the air, while its bootstrap waits for the detector and while it
waits for a bootstrap that another call runs. A lookup that finds the pool empty runs the lazy
bootstrap itself unless one is running; then it waits. When the lazy bootstrap ends, in success, in
failure or because its call was dropped, the gate opens and every waiting call goes on without
another bootstrap of its own.

A call to bootstrap explicitly does not pass the gate.
-/

namespace HttpDns.Client

variable {τ : Type}

/-- How long an exchange that is sent now stays in the air, in polls of its call. -/
abbrev Delay (τ : Type) := Exchange → τ → Nat

/-- How many polls of its call a suspension takes that begins now. -/
structure Pace (τ : Type) where
  exchange : Delay τ
  /-- of a bootstrap that asks the detector -/
  detection : τ → Nat := fun _ => 0

instance : Coe (Delay τ) (Pace τ) where
  coe exchange := { exchange }

/-- What a call yields. A bootstrap that succeeds yields no answer. -/
abbrev Result := Except Error (Option Resolution)

/-- A bootstrap that is suspended. The boot servers are those when it began. -/
inductive Search
  /-- the detector has been asked; its answer arrives after so many polls -/
  | detecting (boot : Roster) (stack : Stack) (delay : Nat)
  /-- a server has been asked, at most `tried` are, and `left` come after it; its reply arrives
  after so many polls -/
  | asking (boot : Roster) (tried : Nat) (left : List String) (reply : Reply) (delay : Nat)

/-- A job whose exchanges are in the air. -/
structure Voyage where
  job : Job
  /-- the rounds that may follow this one -/
  most : Nat
  round : Nat
  seats : List Job.Seat
  replies : List Reply
  delay : Nat

/-- Where a call stands. -/
inductive Phase
  /-- not begun -/
  | arriving
  /-- waits for the lazy bootstrap of another call -/
  | waiting
  /-- runs the lazy bootstrap -/
  | guarding (search : Search)
  /-- runs a bootstrap it was called for -/
  | searching (search : Search)
  /-- past the gate, its job not begun -/
  | admitted
  | resolving (voyage : Voyage)
  | done (result : Result)
  /-- given up by its caller -/
  | dropped

/-- A call for a job, or for a bootstrap. -/
structure Call where
  job? : Option Job
  phase : Phase := .arriving

/-- The calls on a client, and whether a lazy bootstrap is running. -/
structure Session where
  inFlight : Bool := false
  calls : List Call := []

namespace Call

/-- The call waits no more once the gate is open. -/
def release (c : Call) : Call :=
  match c.phase with
  | .waiting => { c with phase := .admitted }
  | _ => c

/-- The call has come to its end. -/
def isOver (c : Call) : Bool :=
  match c.phase with
  | .done _ | .dropped => true
  | _ => false

/-- A call that looks up a host; a faulty request ends it at once. -/
def resolveHost (c : Client) (host : String) (q : QueryType) : Call :=
  match c.job.add (c.request host q) false with
  | .error f => { job? := none, phase := .done (.error (.request f)) }
  | .ok j => { job? := some j }

end Call

namespace Session

/-- The gate opens: no lazy bootstrap is running, and nobody waits. -/
def openGate (s : Session) : Session :=
  { inFlight := false, calls := s.calls.map Call.release }

def setPhase (s : Session) (i : Nat) (p : Phase) : Session :=
  { s with calls := s.calls.modify i fun c => { c with phase := p } }

/-! ## Bootstraps -/

/-- Where a search for servers stands at its next suspension. -/
inductive SearchStep
  | suspended (left : List String) (reply : Reply) (delay : Nat)
  | found (roster : Roster)
  | failed

/-- Goes on with a reply that has arrived. -/
def searchOn (S : Services τ) (c : Client) (delay : Delay τ) : (left : List String) → Reply →
    Action τ SearchStep
  | left, reply => do
    match ← Bootstrap.listed S reply with
    | some roster => pure (.found roster)
    | none =>
      match left with
      | [] => pure .failed
      | server :: left => do
        let e ← Bootstrap.exchangeWith S c.config server
        let d ← Action.read (delay e)
        Action.tell (.asked e)
        let reply ← Action.call (S.send e)
        if d = 0 then searchOn S c delay left reply
        else pure (.suspended left reply d)
termination_by left => left.length

/-- Begins with the first server. -/
def searchFrom (S : Services τ) (c : Client) (delay : Delay τ) : List String →
    Action τ SearchStep
  | [] => pure .failed
  | server :: left => do
    let e ← Bootstrap.exchangeWith S c.config server
    let d ← Action.read (delay e)
    Action.tell (.asked e)
    let reply ← Action.call (S.send e)
    if d = 0 then searchOn S c delay left reply
    else pure (.suspended left reply d)

/-- An action on the services' own state. -/
def outside {α : Type} (x : Action τ α) : Action (State τ) α :=
  Action.beside (Action.beside (Action.beside x))

/-- What a search found goes into the pool and the boot servers. -/
def take (boot roster : Roster) : Action (State τ) Unit := do
  Action.beside (Bootstrap.learn roster)
  absorb (boot.union roster)

/-- The end of a search, or its suspension. -/
def afterSearch (boot : Roster) (tried : Nat) : SearchStep →
    Action (State τ) (Except (Except Error Unit) Search)
  | .suspended left reply delay => pure (.ok (.asking boot tried left reply delay))
  | .found roster => do
    take boot roster
    pure (.error (.ok ()))
  | .failed => pure (.error (.error (.bootstrapFailed tried)))

/-- Goes on with the stack that was detected. -/
def searchOnStack (S : Services τ) (c : Client) (delay : Delay τ) (boot : Roster)
    (stack : Stack) : Action (State τ) (Except (Except Error Unit) Search) := do
  let servers ← outside (Bootstrap.orderOn S boot stack)
  let step ← outside (searchFrom S c delay servers)
  afterSearch boot servers.length step

/-- Begins a bootstrap: how it ended, or where it is suspended. -/
def beginSearch (S : Services τ) (c : Client) (pace : Pace τ) :
    Action (State τ) (Except (Except Error Unit) Search) := do
  let boot ← bootServers
  let d ← outside (Action.read pace.detection)
  let stack ← outside (Bootstrap.detect S)
  if d = 0 then searchOnStack S c pace.exchange boot stack
  else pure (.ok (.detecting boot stack d))

/-- Goes on with a bootstrap that has been polled. -/
def pollSearch (S : Services τ) (c : Client) (delay : Delay τ) :
    Search → Action (State τ) (Except (Except Error Unit) Search)
  | .detecting boot stack polls =>
    if 1 < polls then pure (.ok (.detecting boot stack (polls - 1)))
    else searchOnStack S c delay boot stack
  | .asking boot tried left reply polls =>
    if 1 < polls then pure (.ok (.asking boot tried left reply (polls - 1)))
    else do
      let step ← outside (searchOn S c delay left reply)
      afterSearch boot tried step

/-! ## Jobs -/

/-- The polls until all replies of a batch have arrived. -/
def batchDelay (delay : Delay τ) (batch : List Exchange) (w : State τ) : Nat :=
  batch.foldr (fun e polls => delay e w.2.2.2 + polls) 0

/-- The result of a job that has come to its end. -/
def finish (j : Job) (queries : List Query) : Result :=
  .ok (firstAnswer { j with queries := queries.map Query.sweep })

/-- Rounds until one is suspended or nothing goes out. -/
def sail (S : Services τ) (delay : Delay τ) (j : Job) : (most : Nat) → (round : Nat) →
    List Query → Action (State τ) Phase
  | 0, _, queries => pure (.done (finish j queries))
  | most + 1, round, queries => do
    let seats ← Job.launch (services S) j.settings round queries
    if Job.manifest seats = [] then pure (.done (finish j (seats.map (·.query))))
    else do
      let d ← Action.read (batchDelay delay (Job.batchOf seats))
      let replies ← Job.exchange (services S) round seats
      if d = 0 then do
        let queries ← Job.receive (services S) seats replies
        sail S delay j most (round + 1) queries
      else pure (.resolving { job := j, most, round, seats, replies, delay := d })

/-- Begins a job. -/
def embark (S : Services τ) (delay : Delay τ) (j : Job) : Action (State τ) Phase := do
  let (queries, ok) ← Job.prepare (services S) 0 none j.queries
  if ok then sail S delay j (Job.mostAttempts queries) 0 queries
  else pure (.done (.error .noResolverAvailable))

/-- Goes on with a job that has been polled. -/
def pollVoyage (S : Services τ) (delay : Delay τ) (v : Voyage) : Action (State τ) Phase :=
  if 1 < v.delay then pure (.resolving { v with delay := v.delay - 1 })
  else do
    let queries ← Job.receive (services S) v.seats v.replies
    sail S delay v.job v.most (v.round + 1) queries

/-! ## Polling -/

/-- Begins the job of a call that is past the gate. -/
def admitted (S : Services τ) (pace : Pace τ) (s : Session) (i : Nat) (j : Job) :
    Action (State τ) Session := do
  let p ← embark S pace.exchange j
  pure (s.setPhase i p)

/-- The lazy bootstrap of a call is suspended, or it is over and the gate opens. -/
def afterGuard (S : Services τ) (pace : Pace τ) (s : Session) (i : Nat) (j : Job) :
    Except (Except Error Unit) Search → Action (State τ) Session
  | .ok search => pure (s.setPhase i (.guarding search))
  | .error _ => admitted S pace s.openGate i j

/-- Runs the lazy bootstrap of a call that has taken the gate, unless servers are known by now. -/
def guardPool (S : Services τ) (c : Client) (pace : Pace τ) (s : Session) (i : Nat) (j : Job) :
    Action (State τ) Session := do
  if ← poolEmpty then do
    let step ← beginSearch S c pace
    afterGuard S pace s i j step
  else admitted S pace s.openGate i j

/-- The bootstrap of a call is suspended or over. -/
def afterBootstrap (s : Session) (i : Nat) :
    Except (Except Error Unit) Search → Session
  | .ok search => s.setPhase i (.searching search)
  | .error outcome => s.setPhase i (.done (outcome.map fun _ => none))

/-- Advances a call to its next suspension. -/
def poll (S : Services τ) (c : Client) (pace : Pace τ) (s : Session) (i : Nat) :
    Action (State τ) Session :=
  match s.calls[i]? with
  | none => pure s
  | some call =>
    match call.phase, call.job? with
    | .arriving, none => do
      let step ← beginSearch S c pace
      pure (s.afterBootstrap i step)
    | .arriving, some j => do
      if ← poolEmpty then
        if s.inFlight then pure (s.setPhase i .waiting)
        else guardPool S c pace { s with inFlight := true } i j
      else admitted S pace s i j
    | .guarding search, some j => do
      let step ← pollSearch S c pace.exchange search
      afterGuard S pace s i j step
    | .searching search, _ => do
      let step ← pollSearch S c pace.exchange search
      pure (s.afterBootstrap i step)
    | .admitted, some j => admitted S pace s i j
    | .resolving voyage, _ => do
      let p ← pollVoyage S pace.exchange voyage
      pure (s.setPhase i p)
    | _, _ => pure s

/-- Gives a call up; if it ran the lazy bootstrap the gate opens. -/
def drop (s : Session) (i : Nat) : Session :=
  match s.calls[i]? with
  | none => s
  | some call =>
    match call.phase with
    | .done _ => s
    | .guarding _ => s.openGate.setPhase i .dropped
    | _ => s.setPhase i .dropped

/-- Polls the calls at the given positions in turn. -/
def pollAll (S : Services τ) (c : Client) (pace : Pace τ) (s : Session) : List Nat →
    Action (State τ) Session
  | [] => pure s
  | i :: rest => do
    let s ← poll S c pace s i
    pollAll S c pace s rest

/-- Every call has come to its end. -/
def isOver (s : Session) : Bool :=
  s.calls.all Call.isOver

/-- Polls all calls in turn, at most `passes` times, until every one is over. -/
def runFor (S : Services τ) (c : Client) (pace : Pace τ) : (passes : Nat) → Session →
    Action (State τ) Session
  | 0, s => pure s
  | passes + 1, s =>
    if s.isOver then pure s
    else do
      let s ← pollAll S c pace s (List.range s.calls.length)
      runFor S c pace passes s

/-- The results of the calls that are done. -/
def results (s : Session) : List (Option Result) :=
  s.calls.map fun call =>
    match call.phase with
    | .done r => some r
    | _ => none

end Session

/-- Looks up several hosts at once, polled in turn. -/
def concurrently (c : Client) (hosts : List (String × QueryType)) : Session :=
  { calls := hosts.map fun (host, q) => Call.resolveHost c host q }

end HttpDns.Client
