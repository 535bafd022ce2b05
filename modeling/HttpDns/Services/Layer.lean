import HttpDns.Cache
import HttpDns.Pool
import HttpDns.Reply
import HttpDns.Services

/-!
# Layers of services

Services can be taken beside another state, which they leave alone, and single services can be
provided by a cache, a server pool or the readers of JSON bodies. What is said of a job over any
services so carries over to one that has these parts, whatever the others do.
-/

namespace HttpDns

variable {α β σ τ : Type}

/-- A call beside another state. -/
def onRight (f : τ → β × τ) : α × τ → β × (α × τ) := fun (a, w) =>
  let (b, w) := f w
  (b, (a, w))

/-- An action beside another state. -/
def Action.beside (x : Action τ β) : Action (α × τ) β := fun (a, w) =>
  let (b, es, w) := x w
  (b, es, (a, w))

@[simp] theorem onRight_apply (f : τ → β × τ) (a : α) (w : τ) :
    onRight f (a, w) = ((f w).1, (a, (f w).2)) := rfl

@[simp] theorem Action.beside_apply (x : Action τ β) (a : α) (w : τ) :
    x.beside (a, w) = ((x w).1, (x w).2.1, (a, (x w).2.2)) := rfl

namespace Services

/-- The services beside another state. -/
def beside (S : Services τ) : Services (α × τ) where
  stack := onRight S.stack
  pick := onRight S.pick
  pickOther addr := onRight (S.pickOther addr)
  sample addr ms := fun (a, w) => (a, S.sample addr ms w)
  lookup key q := onRight (S.lookup key q)
  rotate key := fun (a, w) => (a, S.rotate key w)
  store r := fun (a, w) => (a, S.store r w)
  send e := onRight (S.send e)
  sendAll batch := onRight (S.sendAll batch)
  readSchedule body := onRight (S.readSchedule body)
  readSingle body := onRight (S.readSingle body)
  readMulti body := onRight (S.readMulti body)
  signer := S.signer
  seconds := fun (_, w) => S.seconds w
  instant := fun (_, w) => S.instant w
  chance n := onRight (S.chance n)
  nonce := onRight S.nonce
  systemLookup host := onRight (S.systemLookup host)

/-- The services with a cache of their own, read and written at the present instant. -/
def withCache (S : Services τ) : Services (Cache × τ) :=
  { S.beside with
    lookup := fun key q (c, w) =>
      let (found, c) := c.lookup key q (S.instant w)
      (found, (c, w))
    rotate := fun key (c, w) => (c.rotate key, w)
    store := fun r (c, w) => (c.update r, w) }

/-- The services with a server pool of their own, which asks the detector at every draw. -/
def withPool (S : Services τ) : Services (Pool × τ) :=
  { S.beside with
    pick := fun (p, w) =>
      let (stack, w) := S.stack w
      (p.pick stack, (p, w))
    pickOther := fun addr (p, w) =>
      let (stack, w) := S.stack w
      (p.pickOther stack addr, (p, w))
    sample := fun addr ms (p, w) => (p.update addr ms, w) }

/-- The services with the readers of JSON bodies. -/
def withJson (S : Services σ) : Services σ :=
  { S with
    readSchedule := fun body w => (Reply.readSchedule body, w)
    readSingle := fun body w => (Reply.readSingle body, w)
    readMulti := fun body w => (Reply.readMulti body, w) }

end Services

end HttpDns
