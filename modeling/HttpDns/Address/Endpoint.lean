/-!
# Endpoints

An address with the round-trip time observed for it, if any, and the operations on ordered lists
of them. An unmeasured endpoint comes before every measured one, so it is the first to be tried.
-/

namespace HttpDns

/-- An address and its round-trip time in milliseconds; none while it has not been measured. -/
structure Endpoint where
  addr : String
  rtt : Option UInt32 := none
  deriving DecidableEq, Repr

namespace Endpoint

/-- The order of round-trip times, unmeasured first. -/
def compareRtt (x y : Endpoint) : Ordering :=
  match x.rtt, y.rtt with
  | none, none => .eq
  | none, some _ => .lt
  | some _, none => .gt
  | some r, some s => compare r s

/-- The round-trip time comes strictly before. -/
def before (x y : Endpoint) : Bool :=
  x.compareRtt y == .lt

/-- The address holds a colon. -/
def isIpv6 (x : Endpoint) : Bool :=
  x.addr.toList.contains ':'

/-- The address with its round-trip time. -/
def describe (x : Endpoint) : String :=
  match x.rtt with
  | some rtt => x.addr ++ " (" ++ toString rtt.toNat ++ "ms)"
  | none => x.addr ++ " (unmeasured)"

end Endpoint

/-- Endpoints in order. -/
abbrev Endpoints := List Endpoint

namespace Endpoints

/-- The first endpoint with this address. -/
def find (l : Endpoints) (addr : String) : Option Endpoint :=
  l.find? (·.addr = addr)

def contains (l : Endpoints) (addr : String) : Bool :=
  l.any (·.addr = addr)

/-- The first endpoint that no other one comes strictly before. -/
def fastest : Endpoints → Option Endpoint
  | [] => none
  | x :: rest =>
    match fastest rest with
    | none => some x
    | some y => if y.before x then some y else some x

/-- Places an endpoint behind all that do not come strictly after it. -/
def insertSorted (x : Endpoint) : Endpoints → Endpoints
  | [] => [x]
  | y :: rest => if y.before x then y :: insertSorted x rest else x :: y :: rest

/-- The endpoints by round-trip time, those of one time in their order. -/
def sorted : Endpoints → Endpoints
  | [] => []
  | x :: rest => insertSorted x (sorted rest)

/-- The first endpoint moved to the end. -/
def rotate : Endpoints → Endpoints
  | [] => []
  | x :: rest => rest ++ [x]

/-- Appends every address that is neither empty nor present, unmeasured. -/
def merge (l : Endpoints) : List String → Endpoints
  | [] => l
  | addr :: rest =>
    if addr = "" ∨ l.contains addr then merge l rest else merge (l ++ [⟨addr, none⟩]) rest

/-- How many endpoints a merge appends, counted one by one. -/
def mergeCount (l : Endpoints) : List String → Nat
  | [] => 0
  | addr :: rest =>
    if addr = "" ∨ l.contains addr then mergeCount l rest
    else mergeCount (l ++ [⟨addr, none⟩]) rest + 1

/-- The addresses, without empty and repeated ones, unmeasured. -/
def ofAddrs (addrs : List String) : Endpoints :=
  merge [] addrs

def addrs (l : Endpoints) : List String :=
  l.map (·.addr)

/-- Changes the first endpoint with this address. -/
def modify (addr : String) (f : Endpoint → Endpoint) : Endpoints → Endpoints
  | [] => []
  | x :: rest => if x.addr = addr then f x :: rest else x :: modify addr f rest

theorem contains_iff {l : Endpoints} {addr : String} :
    l.contains addr = true ↔ addr ∈ l.addrs := by
  simp [contains, addrs]

theorem merge_append (l : Endpoints) : ∀ xs ys : List String,
    l.merge (xs ++ ys) = (l.merge xs).merge ys
  | [], _ => rfl
  | x :: xs, ys => by
    simp only [List.cons_append, merge]
    split
    · exact merge_append l xs ys
    · exact merge_append _ xs ys

end Endpoints

end HttpDns
