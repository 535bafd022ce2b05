import HttpDns.Services.Layer
import HttpDns.Url

/-!
# Bootstrapping

Fetching the list of resolver servers from a boot server. The boot servers for the detected stack
are asked in their order, from one chosen by chance and each once, until one lists a server. Its
list is appended to the pool and to the boot servers; when none does, neither changes.
-/

namespace HttpDns.Bootstrap

variable {σ τ : Type}

/-- The detected stack. -/
def detect (S : Services σ) : Action σ Stack := do
  let stack ← Action.call S.stack
  Action.tell (.detected stack)
  pure stack

/-- The boot servers for a stack in the order in which they are asked. -/
def orderOn (S : Services σ) (boot : Roster) (stack : Stack) : Action σ (List String) :=
  let candidates := boot.candidates stack
  if candidates = [] then pure []
  else do
    let start ← Action.call (S.chance candidates.length)
    pure (candidates.rotateLeft start)

/-- The boot servers in the order in which they are asked. -/
def order (S : Services σ) (boot : Roster) : Action σ (List String) := do
  let stack ← detect S
  orderOn S boot stack

/-- The exchange with a boot server, of the present second. -/
def exchangeWith (S : Services σ) (c : ClientConfig) (server : String) : Action σ Exchange := do
  let now ← Action.read S.seconds
  let nonce ← Action.call S.nonce
  pure
    { url := Url.schedule (.ofConfig S.signer c) c server now nonce
      server
      timeoutMs := c.timeoutMs }

/-- The servers a reply lists; none unless it lists one. -/
def listed (S : Services σ) (reply : Reply) : Action σ (Option Roster) :=
  match reply with
  | .error _ => pure none
  | .ok response =>
    if response.isOk then do
      let roster ← Action.call (S.readSchedule response.body)
      pure (if roster.isEmpty then none else some roster)
    else pure none

/-- Asks one boot server. -/
def ask (S : Services σ) (c : ClientConfig) (server : String) : Action σ Reply := do
  let e ← exchangeWith S c server
  Action.tell (.asked e)
  Action.call (S.send e)

/-- Asks one boot server after the other until one lists a server. -/
def walk (S : Services σ) (c : ClientConfig) : List String → Action σ (Option Roster)
  | [] => pure none
  | server :: rest => do
    let reply ← ask S c server
    match ← listed S reply with
    | some roster => pure (some roster)
    | none => walk S c rest

/-- Appends listed servers to the pool. -/
def learn (roster : Roster) : Action (Pool × τ) Unit :=
  Action.effect fun (p, w) => (p.add roster.ipv4 roster.ipv6, w)

/-- The boot servers after a bootstrap. -/
def bootstrap (S : Services τ) (c : ClientConfig) (boot : Roster) :
    Action (Pool × τ) (Except Error Roster) := do
  let servers ← (order S boot).beside
  match ← (walk S c servers).beside with
  | none => pure (.error (.bootstrapFailed servers.length))
  | some roster => do
    learn roster
    pure (.ok (boot.union roster))

end HttpDns.Bootstrap
