import HttpDns.Json.Record
import HttpDns.QueryType

/-!
# Query types as JSON

A query type is written as its name. It is read from its exact name, or from an object whose only
member is that name with null.
-/

namespace HttpDns.QueryType

/-- The type a tree stands for. -/
def ofTree? : Json.Tree → Option QueryType
  | .text pieces => (Json.readText pieces).bind ofName?
  | .object [(key, .null)] => (Json.readText key).bind ofName?
  | _ => none

/-- The type a JSON text stands for. -/
def ofJson? (s : String) : Option QueryType :=
  (Json.parse s.toList).bind ofTree?

def toJson (q : QueryType) : String :=
  String.ofList (Json.writeText q.name)

theorem ofJson?_toJson : ∀ q : QueryType, ofJson? q.toJson = some q
  | a | aaaa | both | auto => by decide

end HttpDns.QueryType
