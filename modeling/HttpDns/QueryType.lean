/-!
# Query types and address families

What a lookup asks for: IPv4 addresses, IPv6 addresses, both, or whatever suits the local network
stack. The last one is settled from the detected stack before anything is sent; should it be sent
unsettled it asks for both families.
-/

namespace HttpDns

/-- The address families the local host can route. -/
inductive Stack
  | unknown
  | ipv4Only
  | ipv6Only
  | dual
  deriving DecidableEq, Repr, Inhabited

namespace Stack

def ofFamilies (ipv4 ipv6 : Bool) : Stack :=
  match ipv4, ipv6 with
  | true, true => dual
  | true, false => ipv4Only
  | false, true => ipv6Only
  | false, false => unknown

def hasIpv4 : Stack → Bool
  | ipv4Only | dual => true
  | unknown | ipv6Only => false

def hasIpv6 : Stack → Bool
  | ipv6Only | dual => true
  | unknown | ipv4Only => false

/-- The number a stack is stored under: one for IPv4 plus two for IPv6. -/
def code : Stack → Nat
  | unknown => 0
  | ipv4Only => 1
  | ipv6Only => 2
  | dual => 3

/-- The stack stored under a number; a number that stands for none is an unknown stack. -/
def ofCode : Nat → Stack
  | 1 => ipv4Only
  | 2 => ipv6Only
  | 3 => dual
  | _ => unknown

def name : Stack → String
  | unknown => "unknown"
  | ipv4Only => "ipv4-only"
  | ipv6Only => "ipv6-only"
  | dual => "dual"

theorem ofCode_code : ∀ s : Stack, ofCode s.code = s
  | unknown | ipv4Only | ipv6Only | dual => rfl

theorem ofFamilies_hasIpv4_hasIpv6 : ∀ s : Stack, ofFamilies s.hasIpv4 s.hasIpv6 = s
  | unknown | ipv4Only | ipv6Only | dual => rfl

end Stack

/-- The address families asked for. -/
inductive QueryType
  | a
  | aaaa
  | both
  /-- settled from the detected stack -/
  | auto
  deriving DecidableEq, Repr, Inhabited

namespace QueryType

def name : QueryType → String
  | a => "A"
  | aaaa => "AAAA"
  | both => "BOTH"
  | auto => "AUTO"

/-- How the type is spelled when a query is described. -/
def label : QueryType → String
  | a => "A"
  | aaaa => "AAAA"
  | both => "Both"
  | auto => "Auto"

/-- The value of the `query` parameter. -/
def wireToken : QueryType → String
  | a => "4"
  | aaaa => "6"
  | both | auto => "4,6"

def wantsIpv4 : QueryType → Bool
  | aaaa => false
  | a | both | auto => true

def wantsIpv6 : QueryType → Bool
  | a => false
  | aaaa | both | auto => true

/-- The type that suits a stack; both families when it has both or is unknown. -/
def ofStack : Stack → QueryType
  | .ipv4Only => a
  | .ipv6Only => aaaa
  | .dual | .unknown => both

/-- The type of a written name or wire token in any ASCII case, or the upper-case text when it
names none. -/
def parse (s : String) : Except String QueryType :=
  let upper := s.toUpper
  if upper = "A" ∨ upper = "4" then .ok a
  else if upper = "AAAA" ∨ upper = "6" then .ok aaaa
  else if upper = "BOTH" ∨ upper = "4,6" then .ok both
  else if upper = "AUTO" then .ok auto
  else .error upper

/-- The message about a text that names no type. -/
def unknownMessage (upper : String) : String :=
  "Unknown query type: " ++ upper

/-- The type with exactly this name. -/
def ofName? (s : String) : Option QueryType :=
  [a, aaaa, both, auto].find? (·.name = s)

theorem ofName?_name : ∀ q : QueryType, ofName? q.name = some q
  | a | aaaa | both | auto => by decide

/-- A type that suits a stack is never left open. -/
theorem ofStack_ne_auto : ∀ s : Stack, ofStack s ≠ auto
  | .unknown | .ipv4Only | .ipv6Only | .dual => by decide

end QueryType

end HttpDns
