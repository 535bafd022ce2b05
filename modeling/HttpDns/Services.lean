import HttpDns.Address.Literal
import HttpDns.Answer
import HttpDns.Error
import HttpDns.Resolution
import HttpDns.Roster
import HttpDns.Signature

/-!
# Services

What a lookup needs from outside itself: the stack detector, the source of resolver servers, the
answer cache, the transport, the readers of reply bodies, the signer, the clocks and chance. Each
is a function of a state and may answer differently at every call; nothing else is assumed of them.

An action is a step over that state that yields a value and tells what it did.
-/

namespace HttpDns

/-- One outgoing exchange. -/
structure Exchange where
  url : String
  /-- the server it goes to -/
  server : String
  timeoutMs : UInt64
  deriving DecidableEq, Repr

structure Response where
  status : Nat
  body : String
  /-- round-trip time in milliseconds -/
  rtt : UInt32
  deriving DecidableEq, Repr

/-- The status of a response that carries an answer. -/
def statusOk : Nat := 200

def Response.isOk (r : Response) : Bool :=
  r.status = statusOk

abbrev Reply := Except ExchangeFault Response

/-- One reply for each exchange of a batch. -/
abbrev Replies (batch : List Exchange) := { replies : List Reply // replies.length = batch.length }

structure Services (σ : Type) where
  /-- the stack of the local host -/
  stack : σ → Stack × σ
  /-- a resolver server -/
  pick : σ → Option Endpoint × σ
  /-- a resolver server other than the one at an address, if there is another -/
  pickOther : String → σ → Option Endpoint × σ
  /-- takes note of a server's round-trip time -/
  sample : String → UInt32 → σ → σ
  /-- the cached answer under a key that has something for a type -/
  lookup : String → QueryType → σ → Option Resolution × σ
  /-- advances the order of the cached addresses under a key -/
  rotate : String → σ → σ
  /-- caches an answer -/
  store : Resolution → σ → σ
  send : Exchange → σ → Reply × σ
  sendAll : (batch : List Exchange) → σ → Replies batch × σ
  readSchedule : String → σ → Roster × σ
  readSingle : String → σ → Option Answer × σ
  readMulti : String → σ → List Answer × σ
  signer : Signer
  /-- unix seconds -/
  seconds : σ → Nat
  /-- the present instant in milliseconds -/
  instant : σ → Nat
  /-- a number below a positive one, by chance -/
  chance : Nat → σ → Nat × σ
  nonce : σ → String × σ
  /-- the addresses the system resolver knows for a host -/
  systemLookup : String → σ → List Address.Literal × σ

/-- The replies of a batch whose exchanges are sent one after the other. -/
def sendEach {σ : Type} (send : Exchange → σ → Reply × σ) : (batch : List Exchange) → σ →
    Replies batch × σ
  | [], w => (⟨[], rfl⟩, w)
  | e :: rest, w =>
    let (reply, w) := send e w
    let (replies, w) := sendEach send rest w
    (⟨reply :: replies.1, by simp [replies.2]⟩, w)

/-- What an action tells of. Queries go by their position in their job. -/
inductive Event
  /-- the detector was asked -/
  | detected (stack : Stack)
  /-- a server was drawn for a query that names none -/
  | drew (query : Nat) (server : Option Endpoint)
  /-- the cache was asked -/
  | probed (query : Nat) (key : String) (type : QueryType) (found : Option Resolution)
  /-- the cached addresses under a key were advanced -/
  | rotated (query : Nat) (key : String)
  /-- another server was drawn after one failed -/
  | switched (query : Nat) (failed : String) (server : Option Endpoint)
  /-- the exchanges of a round were sent, each for a query -/
  | sent (round : Nat) (batch : List (Nat × Exchange))
  /-- a round-trip time was reported -/
  | sampled (query : Nat) (server : String) (ms : UInt32)
  /-- an answer was cached -/
  | stored (query : Nat) (answer : Resolution)
  /-- a query's callback was called -/
  | fired (query : Nat) (results : List Resolution)
  /-- a boot server was asked -/
  | asked (boot : Exchange)
  deriving DecidableEq, Repr

/-- A step over the services' state with a value and what it did. -/
def Action (σ α : Type) : Type :=
  σ → α × List Event × σ

namespace Action

variable {σ α β : Type}

protected def pure (a : α) : Action σ α := fun w => (a, [], w)

protected def bind (x : Action σ α) (f : α → Action σ β) : Action σ β := fun w =>
  let (a, es, w) := x w
  let (b, fs, w) := f a w
  (b, es ++ fs, w)

instance : Monad (Action σ) where
  pure := Action.pure
  bind := Action.bind

/-- Tells an event. -/
def tell (e : Event) : Action σ Unit := fun w => ((), [e], w)

/-- Calls a service. -/
def call (f : σ → α × σ) : Action σ α := fun w =>
  let (a, w) := f w
  (a, [], w)

/-- Calls a service that answers nothing. -/
def effect (f : σ → σ) : Action σ Unit := fun w => ((), [], f w)

/-- Reads off the state. -/
def read (f : σ → α) : Action σ α := fun w => (f w, [], w)

@[simp] theorem pure_apply (a : α) (w : σ) : (pure a : Action σ α) w = (a, [], w) := rfl

@[simp] theorem bind_apply (x : Action σ α) (f : α → Action σ β) (w : σ) :
    (x >>= f) w = ((f (x w).1 (x w).2.2).1, (x w).2.1 ++ (f (x w).1 (x w).2.2).2.1,
      (f (x w).1 (x w).2.2).2.2) := rfl

@[simp] theorem tell_apply (e : Event) (w : σ) : (tell e : Action σ Unit) w = ((), [e], w) := rfl

@[simp] theorem call_apply (f : σ → α × σ) (w : σ) :
    (call f : Action σ α) w = ((f w).1, [], (f w).2) := rfl

@[simp] theorem effect_apply (f : σ → σ) (w : σ) :
    (effect f : Action σ Unit) w = ((), [], f w) := rfl

@[simp] theorem read_apply (f : σ → α) (w : σ) : (read f : Action σ α) w = (f w, [], w) := rfl

end Action

end HttpDns
