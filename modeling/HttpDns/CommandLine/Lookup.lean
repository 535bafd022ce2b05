import HttpDns.Client
import HttpDns.CommandLine

/-!
# Lookups for an invocation

A client bootstraps first and then looks the hosts up, one after the other or in batches. A
bootstrap that fails is passed over; what it lacks shows when a server is drawn. The first error
ends the lookups.
-/

namespace HttpDns.CommandLine

variable {τ : Type}

/-- The answer for one host, if there is one. -/
def lookUp (S : Services τ) (c : Client) (i : Invocation) (host : String) :
    Action (Client.State τ) (Except Error (Option Resolution)) :=
  if i.fallback then Client.resolveWithFallback S c host i.type
  else Client.resolveHost S c host i.type

/-- The answers for the hosts that have one. -/
def lookUpEach (S : Services τ) (c : Client) (i : Invocation) :
    List String → Action (Client.State τ) (Except Error (List Resolution))
  | [] => pure (.ok [])
  | host :: rest => do
    match ← lookUp S c i host with
    | .error e => pure (.error e)
    | .ok answer => do
      let answers ← lookUpEach S c i rest
      pure (answers.map (answer.toList ++ ·))

/-- The answers an invocation asks for. -/
def answers (S : Services τ) (c : Client) (i : Invocation) :
    Action (Client.State τ) (Except Error (List Resolution)) := do
  let _ ← Client.bootstrap S c
  if i.batch then Client.resolveBatch S c i.hosts i.type else lookUpEach S c i i.hosts

end HttpDns.CommandLine
