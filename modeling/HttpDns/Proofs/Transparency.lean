import HttpDns.Proofs.Lookup
import HttpDns.Proofs.Settling

/-!
# What the cache changes of a lookup

Two clients over the same fixed records and servers, one with its cache and one without, have made
any lookups. The next lookup of the first has an answer exactly when it has one with the second, but
for one case (`resolveHost_transparent`): the lookup asks for both families, its host owns just one
of them, and the cache has it. Then only the family that the host does not own is asked for, and no
partial answer is reported (`answered_only_once`).
-/

namespace HttpDns

namespace Client

open Job

variable {τ : Type}

/-- The client with its cache switched off. -/
def withoutCache (c : Client) : Client where
  config := { c.config with usingCache := false }
  valid := c.valid

/-- The states of a client over a pool of servers after any lookups, whatever happens outside it
from one to the next. -/
inductive Called (S : Services τ) (c : Client) (p : Pool) : State τ → Prop
  | start (boot : Roster) (w : τ) : Called S c p ({}, p, boot, w)
  | called {s : State τ} (h : Called S c p s) (host : String) (q : QueryType) :
      Called S c p (resolveHost S c host q s).2.2
  | waited {cache : Cache} {pool : Pool} {boot : Roster} {w : τ}
      (h : Called S c p (cache, pool, boot, w)) (w' : τ) : Called S c p (cache, pool, boot, w')

/-- A lookup is told the same stacks in both states. -/
def SameStack (S : Services τ) (q : QueryType) (s s' : State τ) : Prop :=
  (S.stack s.2.2.2).1 = (S.stack s'.2.2.2).1
    ∧ (settledFor S q s.2.2.2).1 = (settledFor S q s'.2.2.2).1

variable {S : Services τ} {c : Client} {R : Records} {p : Pool}

theorem Called.upkept (hS : Serves S c R) (hp : p.isEmpty = false) {s : State τ}
    (h : Called S c p s) : Upkept R p s := by
  induction h with
  | start boot w => exact ⟨fun _ he => (nomatch he), rfl, rfl⟩
  | called _ host q ih => exact resolveHost_upkept hS hp host q ih
  | waited _ w' ih => exact ih

theorem serves_withoutCache (h : Serves S c R) : Serves S c.withoutCache R :=
  fun host type server now w => h host type server now w

theorem not_narrowed_withoutCache (host : String) (q : QueryType) (s : State τ) :
    ¬ Narrowed S c.withoutCache R host q s := by
  intro h
  cases h.usingCache

/-- Whether a lookup that is not narrowed has an answer is the same for all states of the client,
with its cache or without. -/
theorem answered_iff_of_called (hS : Serves S c R) (hp : p.isEmpty = false) {s : State τ}
    (hs : Called S c p s) (host : String) (q : QueryType) :
    Answered S c host q s ↔ ((c.request host q).fault? = none
      ∧ p.servers (S.stack s.2.2.2).1 ≠ [] ∧ R.Owns host (settledFor S q s.2.2.2).1)
      ∧ ¬ Narrowed S c R host q s := by
  have hup := hs.upkept hS hp
  rw [answered_iff hS hup.1 (hup.isEmpty_eq.trans hp), Ne, hup.2.servers_eq_nil]
  tauto

/-! ## A host of one family -/

/-- The end of a URL that asks for IPv6 addresses alone. -/
def ipv6Ending : List Char :=
  "=6&platform=linux&sdk_version=0.3.1".toList

/-- The body that has the one address of every host, or none. -/
def ipv4Body : Bool → String
  | true => "\x7b\"ips\":[\"192.0.2.1\"],\"ttl\":60\x7d"
  | false => "\x7b\x7d"

/-- The body for an exchange: it has the address unless only IPv6 addresses are asked for. -/
def bodyFor (e : Exchange) : String :=
  ipv4Body !(ipv6Ending.isSuffixOf e.url.toList)

/-- Services on both stacks where every host has the one address 192.0.2.1. -/
def ipv4Services : Services Unit :=
  { (Services.steady (fun _ => none) (fun e => .ok ⟨statusOk, bodyFor e, 8⟩)
      fun _ => none).withJson with
    stack := fun w => (.dual, w) }

def ipv4Records : Records where
  ipv4 _ := ["192.0.2.1"]
  ipv6 _ := []

def plain : Client where
  config := { accountId := "100000" }
  valid := by decide

def oneServer : Pool where
  ipv4 := [⟨"203.0.113.7", none⟩]

/-- The state of the client before any lookup. -/
def unasked : State Unit := ({}, oneServer, {}, ())

/-- The state of a client after a lookup of both families. -/
def afterBoth (c : Client) : State Unit :=
  (resolveHost ipv4Services c "a.com" .both unasked).2.2

theorem called_afterBoth (c : Client) : Called ipv4Services c oneServer (afterBoth c) :=
  (Called.start {} ()).called "a.com" .both

theorem url_plain (host : String) (type : QueryType) (server : String) (now : Nat) :
    ∃ front, (plain.outgoingFor ipv4Services.signer host type server now).exchange.url.toList
      = front ++ ("query=".toList ++ type.wireToken.toList
        ++ "&platform=linux&sdk_version=0.3.1".toList) := by
  have hpieces : (Url.resolveTail (plain.job.settings.sender ipv4Services.signer)
      { plain.request host type with resolver := some server } type now).params.map Url.Param.write
        = ["host".toList ++ '=' :: Url.hostValue (plain.request host type),
          "query".toList ++ '=' :: type.wireToken.toList, "platform=linux".toList,
          "sdk_version=0.3.1".toList] := by
    rfl
  refine ⟨("https" ++ "://" ++ Url.formatServer server ++ "/").toList
    ++ Text.Form.encode "100000" ++ '/' :: ("d".toList ++ '?' ::
      ("host".toList ++ '=' :: (Url.hostValue (plain.request host type) ++ ['&']))), ?_⟩
  have hurl : (plain.outgoingFor ipv4Services.signer host type server now).exchange.url
      = "https" ++ "://" ++ Url.formatServer server ++ "/" ++ String.ofList
        (Text.Form.encode "100000" ++ '/' :: ("d".toList ++ '?' ::
          Text.join '&' ((Url.resolveTail (plain.job.settings.sender ipv4Services.signer)
            { plain.request host type with resolver := some server } type now).params.map
              Url.Param.write))) := rfl
  rw [hurl, hpieces, String.toList_append, String.toList_ofList]
  simp [Text.join]

theorem bodyFor_plain (host : String) (type : QueryType) (server : String) (now : Nat) :
    bodyFor (plain.outgoingFor ipv4Services.signer host type server now).exchange
      = ipv4Body type.wantsIpv4 := by
  obtain ⟨front, hurl⟩ := url_plain host type server now
  unfold bodyFor
  rw [hurl, List.isSuffixOf, List.reverse_append]
  cases type <;> rfl

theorem readSingle_ipv4Body : ∀ wanted : Bool, Reply.readSingle (ipv4Body wanted)
    = some { ips := if wanted then ["192.0.2.1"] else [], ttl := if wanted then 60 else 0 } := by
  decide +kernel

theorem serves_plain : Serves ipv4Services plain ipv4Records := by
  intro host type server now w
  have hreply : (ipv4Services.sendAll
      [(plain.outgoingFor ipv4Services.signer host type server now).exchange] w).1.1
        = [.ok ⟨statusOk, bodyFor (plain.outgoingFor ipv4Services.signer host type server
            now).exchange, 8⟩] := rfl
  rw [bodyFor_plain] at hreply
  exact ⟨_, 8, _, hreply, fun _ => readSingle_ipv4Body _, .inr rfl, rfl, (ite_self _).symm⟩

theorem sameStack_ipv4Services (q : QueryType) (s s' : State Unit) :
    SameStack ipv4Services q s s' := ⟨rfl, rfl⟩

/-! ## With the cache and without -/

/-- Over fixed records a lookup has an answer exactly when it has one without the cache, and one
that had an answer before has one again, except when the cache narrows it to a family that its host
does not own. -/
theorem resolveHost_transparent (hS : Serves S c R) (hp : p.isEmpty = false) {s : State τ}
    (hs : Called S c p s) (host : String) (q : QueryType) :
    (∀ {s' : State τ}, Called S c.withoutCache p s' → SameStack S q s s' →
      (Answered S c host q s ↔
        Answered S c.withoutCache host q s' ∧ ¬ Narrowed S c R host q s))
      ∧ ∀ {s₀ : State τ}, Called S c p s₀ → SameStack S q s s₀ → Answered S c host q s₀ →
        (Answered S c host q s ↔ ¬ Narrowed S c R host q s) := by
  have hanswered := answered_iff_of_called hS hp hs host q
  constructor
  · rintro s' hs' ⟨hstack, htype⟩
    have hplain := answered_iff_of_called (serves_withoutCache hS) hp hs' host q
    rw [and_iff_left (not_narrowed_withoutCache host q s'), ← hstack, ← htype] at hplain
    exact hanswered.trans (and_congr_left' hplain.symm)
  · rintro s₀ hs₀ ⟨hstack, htype⟩ hbefore
    have hknown := ((answered_iff_of_called hS hp hs₀ host q).1 hbefore).1
    rw [← hstack, ← htype] at hknown
    exact hanswered.trans (and_iff_right hknown)

/-- After a lookup of both families a lookup of the family that the host owns is answered from the
cache, but one of both families is not answered again. -/
theorem a_answered_after_both :
    Serves ipv4Services plain ipv4Records ∧ oneServer.isEmpty = false
      ∧ Called ipv4Services plain oneServer (afterBoth plain)
      ∧ Answered ipv4Services plain "a.com" .a (afterBoth plain)
      ∧ ¬ Answered ipv4Services plain "a.com" .both (afterBoth plain) := by
  have hs := called_afterBoth plain
  have hs' : Called ipv4Services plain.withoutCache oneServer unasked := .start {} ()
  have hplain : Answered ipv4Services plain.withoutCache "a.com" .a unasked :=
    ⟨{ host := "a.com", cacheKey := "a.com", ips := [⟨"192.0.2.1", none⟩], ttl := 60 },
      by decide +kernel⟩
  have hfirst : Answered ipv4Services plain "a.com" .both unasked :=
    ⟨{ host := "a.com", cacheKey := "a.com", ips := [⟨"192.0.2.1", none⟩], ttl := 60 },
      by decide +kernel⟩
  have hnarrowed : Narrowed ipv4Services plain ipv4Records "a.com" .both (afterBoth plain) :=
    ⟨rfl, rfl, by decide +kernel, by decide⟩
  obtain ⟨hcache, -⟩ := resolveHost_transparent serves_plain rfl hs "a.com" .a
  obtain ⟨-, hagain⟩ := resolveHost_transparent serves_plain rfl hs "a.com" .both
  refine ⟨serves_plain, rfl, hs, ?_, ?_⟩
  · exact (hcache hs' (sameStack_ipv4Services ..)).2 ⟨hplain, fun h => nomatch h.both⟩
  · exact fun h => (hagain (.start {} ()) (sameStack_ipv4Services ..) hfirst).1 h hnarrowed

/-- A lookup of both families whose host owns one is answered once, although no entry has expired;
without the cache it is answered again. -/
theorem answered_only_once :
    let answer : Resolution :=
      { host := "a.com", cacheKey := "a.com", ips := [⟨"192.0.2.1", none⟩], ttl := 60 }
    Serves ipv4Services plain ipv4Records ∧ oneServer.isEmpty = false
      ∧ Called ipv4Services plain oneServer (afterBoth plain)
      ∧ Called ipv4Services plain.withoutCache oneServer (afterBoth plain.withoutCache)
      ∧ SameStack ipv4Services .both (afterBoth plain) (afterBoth plain.withoutCache)
      ∧ (∀ e ∈ (afterBoth plain).1.entries, e.2.isExpiredAt (ipv4Services.instant ()) = false)
      ∧ (resolveHost ipv4Services plain "a.com" .both unasked).1 = .ok (some answer)
      ∧ (resolveHost ipv4Services plain "a.com" .both (afterBoth plain)).1 = .ok none
      ∧ (resolveHost ipv4Services plain.withoutCache "a.com" .both
          (afterBoth plain.withoutCache)).1 = .ok (some answer) := by
  intro answer
  refine ⟨serves_plain, rfl, called_afterBoth plain, called_afterBoth plain.withoutCache,
    sameStack_ipv4Services .., ?_, ?_, ?_, ?_⟩ <;> decide +kernel

end Client

end HttpDns
