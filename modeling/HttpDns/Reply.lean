import HttpDns.Answer
import HttpDns.Json.Record
import HttpDns.Roster

/-!
# Reply bodies

What the servers send: a schedule body lists resolver servers, a single body answers one host, a
multi body answers several. Reading is all or nothing: a body that is not of its form is read as
nothing. Empty addresses are dropped, and an entry of the IPv6 record type has its addresses moved
to the IPv6 family.
-/

namespace HttpDns.Reply

open Json (Tree Value)

/-- The addresses that are not empty. -/
def nonEmpty (addrs : List String) : List String :=
  addrs.filter (· ≠ "")

/-- The text, unless it is empty. -/
def nonEmptyText (s : Option String) : Option String :=
  s.filter (· ≠ "")

/-- A list of texts in a record at the given depth. -/
def texts (depth : Nat) : Tree → Option (List String) :=
  Tree.listOf? depth Tree.text?

/-! ## Schedule bodies -/

def scheduleFields : List String := ["service_ip", "service_ipv6"]

def schedule? (t : Tree) : Option Roster := do
  let fs ← t.fields scheduleFields Json.maxDepth
  let ipv4 ← fs.get "service_ip" [] (texts (Json.maxDepth - 1))
  let ipv6 ← fs.get "service_ipv6" [] (texts (Json.maxDepth - 1))
  pure ⟨nonEmpty ipv4, nonEmpty ipv6⟩

/-- The servers a schedule body lists; none if it is no such body. -/
def readSchedule (body : String) : Roster :=
  ((Json.parse body.toList).bind schedule?).getD {}

/-! ## Single bodies -/

def singleFields : List String :=
  ["host", "ips", "ipsv6", "ttl", "origin_ttl", "client_ip", "extra"]

/-- A text stands for itself, unless it is empty; any other value is written out. -/
def extraText : Value → Option String
  | .null => none
  | .text s => nonEmptyText (some s)
  | v => some (String.ofList v.write)

def single? (t : Tree) : Option Answer := do
  let fs ← t.fields singleFields Json.maxDepth
  let host ← fs.get "host" "" Tree.text?
  let ips ← fs.get "ips" [] (texts (Json.maxDepth - 1))
  let ipsv6 ← fs.get "ipsv6" [] (texts (Json.maxDepth - 1))
  let ttl ← fs.get "ttl" 0 Tree.word32?
  let originTtl ← fs.get "origin_ttl" 0 Tree.word32?
  let clientIp ← fs.get "client_ip" none Tree.textOrNull?
  let extra ← fs.get "extra" none (Tree.valueOrNull? (Json.maxDepth - 1))
  pure
    { host, ips := nonEmpty ips, ipsv6 := nonEmpty ipsv6, ttl, originTtl
      clientIp := nonEmptyText clientIp
      extra := extra.bind extraText }

/-- The answer of a single body. -/
def readSingle (body : String) : Option Answer :=
  (Json.parse body.toList).bind single?

/-! ## Multi bodies -/

/-- The record type of IPv6 addresses. -/
def typeAaaa : UInt16 := 28

def entryFields : List String :=
  ["host", "ips", "ipsv6", "type", "ttl", "origin_ttl", "client_ip"]

/-- One entry of a multi body. -/
structure Entry where
  host : String
  ips : List String
  ipsv6 : List String
  recordType : UInt16
  ttl : UInt32
  originTtl : UInt32
  clientIp : Option String
  deriving DecidableEq, Repr

def entryOf? (t : Tree) : Option Entry := do
  let fs ← t.fields entryFields (Json.maxDepth - 2)
  let host ← fs.get "host" "" Tree.text?
  let ips ← fs.get "ips" [] (texts (Json.maxDepth - 3))
  let ipsv6 ← fs.get "ipsv6" [] (texts (Json.maxDepth - 3))
  let recordType ← fs.get "type" 1 Tree.word16?
  let ttl ← fs.get "ttl" 0 Tree.word32?
  let originTtl ← fs.get "origin_ttl" 0 Tree.word32?
  let clientIp ← fs.get "client_ip" none Tree.textOrNull?
  pure { host, ips, ipsv6, recordType, ttl, originTtl, clientIp }

/-- Appends every address that is not present. -/
def appendNew (l : List String) : List String → List String
  | [] => l
  | addr :: rest => if addr ∈ l then appendNew l rest else appendNew (l ++ [addr]) rest

/-- The answer of an entry. -/
def Entry.answer (e : Entry) : Answer where
  host := e.host
  ips := if e.recordType = typeAaaa then [] else nonEmpty e.ips
  ipsv6 :=
    appendNew (if e.recordType = typeAaaa then nonEmpty e.ips else []) (nonEmpty e.ipsv6)
  ttl := e.ttl
  originTtl := e.originTtl
  clientIp := nonEmptyText e.clientIp

def multi? (t : Tree) : Option (List Entry) := do
  let fs ← t.fields ["dns"] Json.maxDepth
  fs.get "dns" [] (Tree.listOf? (Json.maxDepth - 1) entryOf?)

/-- The answers of the entries that name a host. -/
def answers (entries : List Entry) : List Answer :=
  (entries.filter (·.host ≠ "")).map Entry.answer

/-- The answers of a multi body; none if it is no such body. -/
def readMulti (body : String) : List Answer :=
  answers (((Json.parse body.toList).bind multi?).getD [])

end HttpDns.Reply
