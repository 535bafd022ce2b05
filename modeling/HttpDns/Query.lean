import HttpDns.Request
import HttpDns.Resolution
import HttpDns.Text.Quoted

/-!
# Queries

A request that has been accepted, with the answers it has gathered and the attempts it has left.
A query is completed by real answers and never changes again; it is exhausted when its attempts
are spent without one.
-/

namespace HttpDns

inductive QueryState
  | pending
  | completed
  | exhausted
  deriving DecidableEq, Repr, Inhabited

def QueryState.name : QueryState → String
  | pending => "Pending"
  | completed => "Completed"
  | exhausted => "Exhausted"

structure Query where
  request : Request
  results : List Resolution := []
  /-- a callback is still to be called -/
  armed : Bool := false
  state : QueryState := .pending
  attemptsLeft : Nat
  /-- the type that is sent; narrower than the request's after a partial cache hit -/
  queryType : QueryType
  /-- the cached half of a partial hit -/
  partialHit : Option Resolution := none
  /-- the server of the last failed exchange -/
  lastFailed : Option String := none
  deriving DecidableEq, Repr

namespace Query

def ofRequest (r : Request) (armed : Bool) (attempts : Nat) : Query where
  request := r
  armed := armed
  attemptsLeft := attempts
  queryType := r.queryType

/-- It may be sent once more. -/
def isRunnable (q : Query) : Bool :=
  q.state = .pending && 0 < q.attemptsLeft

/-- The query with a server to be sent to. -/
def serve (q : Query) (server : String) : Query :=
  { q with request := { q.request with resolver := some server } }

/-- The query with a settled type. -/
def settle (q : Query) (type : QueryType) : Query :=
  { q with request := { q.request with queryType := type }, queryType := type }

/-- The query with its answers; its callback is used up. -/
def complete (q : Query) (answers : List Resolution) : Query :=
  { q with results := q.results ++ answers, state := .completed, armed := false }

/-- A query still pending when the rounds are over is exhausted. -/
def sweep (q : Query) : Query :=
  if q.state = .pending then { q with state := .exhausted } else q

/-- The key the query looks itself up under. -/
def ownKey (q : Query) : String :=
  q.request.cacheKeyFor q.request.host

/-- The query asks the cache before anything is sent. -/
def usesProbe (q : Query) : Bool :=
  q.request.usingCache && !q.request.usingMulti

/-- The host as requested, how the query stands, and the type that is sent. -/
def describe (q : Query) : String :=
  "ResolveContext \x7b host: " ++ Text.quote q.request.host ++ ", state: " ++ q.state.name
    ++ ", query_type: " ++ q.queryType.label ++ ", attempts_left: " ++ toString q.attemptsLeft
    ++ ", results: " ++ toString q.results.length ++ " \x7d"

end Query

end HttpDns
