import HttpDns.Proofs.BatchRequests
import HttpDns.Proofs.Lookup
import HttpDns.Proofs.Origins
import HttpDns.Proofs.Retries
import HttpDns.Proofs.Reuse
import HttpDns.Proofs.Supply

/-!
# Jobs over a zone

A zone is fixed records with fixed lifetimes, and a service of the zone answers every request of a
client from it: a single one with the answer for its host, a batched one with an answer for each
host it names, in any order. Whatever else is sent in the same rounds, a query over such a service
then ends with a result for each host of its request that owns something of the type, with the
addresses and lifetimes of the zone, and with no other result (`settles_resolves`,
`Client.run_resolves`).
-/

namespace HttpDns

variable {σ : Type}

/-- Records with the lifetimes of each host. -/
structure Zone extends Records where
  ttl : String → UInt32
  originTtl : String → UInt32

namespace Zone

/-- What is answered from the zone about a host to who asks for a type. -/
structure Answers (Z : Zone) (host : String) (type : QueryType) (a : Answer) : Prop extends
    Z.toRecords.Answers host type a where
  ttl_eq : a.ttl = Z.ttl host
  originTtl_eq : a.originTtl = Z.originTtl host

/-- The answers for some hosts: each is for one of them, and each of them has one. -/
structure Lists (Z : Zone) (names : List String) (type : QueryType) (answers : List Answer) :
    Prop where
  named : ∀ a ∈ answers, a.host ∈ names ∧ Z.Answers a.host type a
  complete : ∀ host ∈ names, ∃ a ∈ answers, a.host = host

/-- The reply to what is sent is read as what the zone has for it. -/
inductive Tells (Z : Zone) (S : Services σ) (out : Job.Outgoing) : Reply → Prop
  | single (h : out.request.usingMulti = false) {body : String} {rtt : UInt32} {a : Answer}
      (read : ∀ w, (S.readSingle body w).1 = some a)
      (ha : Z.Answers out.request.host out.request.queryType a) :
      Tells Z S out (.ok ⟨statusOk, body, rtt⟩)
  | batched (h : out.request.usingMulti = true) {body : String} {rtt : UInt32}
      {answers : List Answer} (read : ∀ w, (S.readMulti body w).1 = answers)
      (ha : Z.Lists out.request.hosts out.request.queryType answers) :
      Tells Z S out (.ok ⟨statusOk, body, rtt⟩)

/-- The resolution has the addresses of the zone for its host, and its lifetimes. -/
structure Matches (Z : Zone) (type : QueryType) (x : Resolution) : Prop where
  ips_eq : x.ips = distinctAddrs (if type.wantsIpv4 then Z.ipv4 x.host else [])
  ipsv6_eq : x.ipsv6 = distinctAddrs (if type.wantsIpv6 then Z.ipv6 x.host else [])
  ttl_eq : x.ttl = Z.ttl x.host
  originTtl_eq : x.originTtl = Z.originTtl x.host

/-- The results for some hosts: those of the zone for each of them that owns something of the
type. -/
structure Resolves (Z : Zone) (names : List String) (type : QueryType)
    (results : List Resolution) : Prop where
  told : ∀ x ∈ results, x.host ∈ names ∧ Z.Owns x.host type ∧ Z.Matches type x
  complete : ∀ host ∈ names, Z.Owns host type → ∃ x ∈ results, x.host = host

end Zone

/-! ## What a client sends -/

namespace Client

def sends (c : Client) (signer : Signer) (ask : Request) (type : QueryType) (server : String)
    (now : Nat) : Job.Outgoing :=
  let r := { ask with resolver := some server, queryType := type }
  { request := r
    exchange :=
      { url := Url.resolve (c.job.settings.sender signer) r server type now
        server
        timeoutMs := r.timeoutMs } }

end Client

/-- Every batch of a client's exchanges is replied to from the zone. -/
def Zone.Serves (Z : Zone) (S : Services σ) (c : Client) : Prop :=
  ∀ outs : List Job.Outgoing,
    (∀ out ∈ outs, ∃ ask type server now,
        c.Poses ask ∧ out = c.sends S.signer ask type server now) →
      ∀ w, List.Forall₂ (Z.Tells S) outs (S.sendAll (outs.map (·.exchange)) w).1.1

/-- A pending query asks for what a request does, of a type and without a cached half. -/
structure Query.Posing (ask : Request) (type : QueryType) (q : Query) : Prop where
  stems : q.Stems ask
  state_eq : q.state = .pending
  results_eq : q.results = []
  queryType_eq : q.queryType = type
  partialHit_eq : q.partialHit = none

namespace Query.Posing

variable {ask : Request} {type : QueryType} {q : Query}

theorem carry (h : q.Posing ask type) (server : Option String) (attempts : Nat)
    (failed : Option String) : (q.carry server attempts failed).Posing ask type where
  stems := h.stems.trans ⟨server, q.request.queryType, rfl⟩
  state_eq := h.state_eq
  results_eq := h.results_eq
  queryType_eq := h.queryType_eq
  partialHit_eq := h.partialHit_eq

theorem outgoing_eq {S : Services σ} {c : Client} (h : q.Posing ask type) {now : Nat}
    {out : Job.Outgoing} (ho : Job.outgoing S c.job.settings now q = some out) :
    ∃ server, out = c.sends S.signer ask type server now := by
  unfold Job.outgoing at ho
  obtain ⟨server, hserver, rfl⟩ := Option.map_eq_some_iff.1 ho
  obtain ⟨server', t, hreq⟩ := h.stems
  obtain rfl : server' = some server := by rw [hreq] at hserver; exact hserver
  refine ⟨server, ?_⟩
  rw [hreq, h.queryType_eq]
  rfl

end Query.Posing

/-! ## What a reply tells -/

namespace Zone

variable {Z : Zone} {S : Services σ} {names : List String} {type : QueryType}

theorem Answers.named {host : String} {a : Answer} (h : Z.Answers host type a) :
    (if a.host = "" then { a with host } else a).host = host
      ∧ Z.Answers host type (if a.host = "" then { a with host } else a) := by
  obtain ⟨hhost, hanswers⟩ := h.toAnswers.named
  refine ⟨hhost, hanswers, ?_, ?_⟩
  · split
    · exact h.ttl_eq
    · exact h.ttl_eq
  · split
    · exact h.originTtl_eq
    · exact h.originTtl_eq

/-- A reply of the zone is read as its answers for the hosts of the request. -/
theorem Tells.readBody {out : Job.Outgoing} {response : Response}
    (h : Z.Tells S out (.ok response)) : response.isOk = true ∧ ∀ w,
      Z.Lists out.request.hosts out.request.queryType
        (Job.readBody S out.request response.body w).1 := by
  cases h with
  | @single hsingle body rtt a read ha =>
    obtain ⟨hhost, hnamed⟩ := ha.named
    have hhosts : out.request.hosts = [out.request.host] := by rw [Request.hosts, hsingle]; rfl
    refine ⟨rfl, fun w => ?_⟩
    rw [Job.readBody_of_single hsingle (read w), hhosts]
    constructor
    · simp only [List.mem_singleton, forall_eq]
      exact ⟨hhost, by rwa [hhost]⟩
    · simp only [List.mem_singleton, forall_eq, exists_eq_left]
      exact hhost
  | @batched hmulti body rtt answers read ha =>
    refine ⟨rfl, fun w => ?_⟩
    have hread : (Job.readBody S out.request body w).1 = (S.readMulti body w).1 := by
      rw [Job.readBody, hmulti]
      rfl
    rw [hread, read]
    exact ha

end Zone

/-! ## Rounds -/

namespace Job

variable {S : Services σ} {c : Client} {Z : Zone} {type : QueryType} {asks : List Request}
  {r r' : Round σ} {k : Nat} {q : Query} {ask : Request}

/-- The pending queries of a round ask for what these requests do. -/
def Round.Posed (type : QueryType) (asks : List Request) (r : Round σ) : Prop :=
  ∀ {k : Nat} {q : Query}, r.queries[k]? = some q → q.state = .pending →
    ∃ ask, asks[k]? = some ask ∧ q.Posing ask type

theorem Reaches.posed {settings : JobSettings} (h : Reaches S settings r r')
    (hposed : r.Posed type asks) : r'.Posed type asks := by
  intro k q hq hpend
  obtain ⟨es, hpass⟩ := h.passes
  obtain ⟨q₀, hq₀⟩ := hpass.get_before hq
  obtain ⟨server, attempts, failed, rfl⟩ := h.carried hq₀ hq hpend
  obtain ⟨ask, hask, hposing⟩ := hposed hq₀ hpend
  exact ⟨ask, hask, hposing.carry server attempts failed⟩

theorem of_mem_traffic {T : Outgoing → Reply → Prop} : ∀ {seats : List Seat}
    {replies : List Reply}, List.Forall₂ T (seats.filterMap (·.out)) replies →
      ∀ {k : Nat} {e : Exchange} {reply : Reply}, ((k, e), reply) ∈ (manifest seats).zip replies →
        ∃ seat ∈ seats, ∃ out, seat.index = k ∧ seat.out = some out ∧ T out reply
  | [], _, _, _, _, _, hmem => by simp [manifest] at hmem
  | seat :: seats, replies, h, k, e, reply, hmem => by
    cases ho : seat.out with
    | none =>
      rw [manifest_cons_none seats ho] at hmem
      rw [List.filterMap_cons_none ho] at h
      obtain ⟨seat', hseat, rest⟩ := of_mem_traffic h hmem
      exact ⟨seat', List.mem_cons_of_mem _ hseat, rest⟩
    | some out =>
      rw [manifest_cons_some seats ho] at hmem
      rw [List.filterMap_cons_some ho] at h
      cases h with
      | cons hfirst hrest =>
        rw [List.zip_cons_cons] at hmem
        rcases List.mem_cons.1 hmem with heq | hmem
        · cases heq
          exact ⟨seat, List.mem_cons_self, out, rfl, ho, hfirst⟩
        · obtain ⟨seat', hseat, rest⟩ := of_mem_traffic hrest hmem
          exact ⟨seat', List.mem_cons_of_mem _ hseat, rest⟩

section

variable (hS : Z.Serves S c) (hasks : ∀ ask ∈ asks, c.Poses ask) (hposed : r.Posed type asks)

include hposed in
theorem Round.out_eq {seat : Seat} (hs : (r.seats S c.job.settings)[k]? = some seat)
    {out : Outgoing} (ho : seat.out = some out) : ∃ ask server, asks[k]? = some ask
      ∧ out = c.sends S.signer ask type server (S.seconds r.world) := by
  obtain ⟨q, hq⟩ := (r.seats_pass S c.job.settings).get_before hs
  have hb := (r.seats_pass S c.job.settings).each hq hs
  obtain ⟨hrun, hsent⟩ := hb.of_out ho
  obtain ⟨server, attempts, failed, hc⟩ := hb.carry_eq
  obtain ⟨ask, hask, hposing⟩ := hposed hq (Query.isRunnable_iff.1 hrun).1
  rw [hc] at hsent
  obtain ⟨server', hout⟩ := (hposing.carry server attempts failed).outgoing_eq hsent
  exact ⟨ask, server', hask, hout⟩

include hS hasks hposed in
/-- The reply to what goes out of a seat is one of the zone. -/
theorem Round.tells {seat : Seat} (hs : (r.seats S c.job.settings)[k]? = some seat)
    {out : Outgoing} (ho : seat.out = some out) {reply : Reply}
    (hmem : ((k, out.exchange), reply) ∈ r.traffic S c.job.settings) : Z.Tells S out reply := by
  have hall : List.Forall₂ (Z.Tells S) ((r.seats S c.job.settings).filterMap (·.out))
      (r.replies S c.job.settings) := by
    have hsent := hS ((r.seats S c.job.settings).filterMap (·.out)) ?_
      (r.launched S c.job.settings).2.2
    · rw [← batchOf_eq] at hsent
      exact hsent
    · intro out hout
      obtain ⟨seat, hseat, ho⟩ := List.mem_filterMap.1 hout
      obtain ⟨k, hk⟩ := List.getElem?_of_mem hseat
      obtain ⟨ask, server, hask, heq⟩ := Round.out_eq hposed hk ho
      exact ⟨ask, type, server, _, hasks ask (List.mem_of_getElem? hask), heq⟩
  obtain ⟨seat', hseat', out', hindex, ho', htells⟩ := of_mem_traffic hall hmem
  obtain ⟨k', hk'⟩ := List.getElem?_of_mem hseat'
  rw [r.index_seat S c.job.settings hk'] at hindex
  subst hindex
  obtain rfl := Option.some.inj (hs.symm.trans hk')
  obtain rfl := Option.some.inj (ho.symm.trans ho')
  exact htells

include hS hasks hposed in
/-- A reply gives answers of the zone, for hosts that its query names. -/
theorem Round.Gives.told {a : Answer} (h : r.Gives S c.job.settings k a) : ∃ ask,
    asks[k]? = some ask ∧ a.host ∈ ask.hosts ∧ Z.Answers a.host type a ∧ Z.Owns a.host type := by
  obtain ⟨seat, out, response, hs, ho, htraffic, -, ha, hne⟩ := h
  obtain ⟨ask, server, hask, rfl⟩ := Round.out_eq hposed hs ho
  obtain ⟨-, hread⟩ := (Round.tells hS hasks hposed hs ho htraffic).readBody
  obtain ⟨hhost, hanswers⟩ := (hread _).named a ha
  refine ⟨ask, hask, hhost, hanswers, ?_⟩
  by_contra hnot
  rw [hanswers.isEmpty_iff.2 hnot] at hne
  cases hne

include hS hasks hposed in
/-- The reply to what goes out for a query gives an answer for each of its hosts that owns something
of the type. -/
theorem Round.gives {seat : Seat} (hs : (r.seats S c.job.settings)[k]? = some seat)
    {out : Outgoing} (ho : seat.out = some out) (hask : asks[k]? = some ask) {host : String}
    (hhost : host ∈ ask.hosts) (howns : Z.Owns host type) :
    ∃ a, r.Gives S c.job.settings k a ∧ a.host = host := by
  obtain ⟨ask', server, hask', rfl⟩ := Round.out_eq hposed hs ho
  obtain rfl := Option.some.inj (hask.symm.trans hask')
  have hlen : (manifest (r.seats S c.job.settings)).length
      ≤ (r.replies S c.job.settings).length :=
    Nat.le_of_eq (r.length_replies S c.job.settings).symm
  obtain ⟨reply, hmem, -⟩ := landAll_get S _ _ (r.exchanged S c.job.settings).2.2 hlen hs ho
  rw [r.index_seat S c.job.settings hs] at hmem
  have htells := Round.tells hS hasks hposed hs ho hmem
  obtain ⟨response, rfl⟩ : ∃ response, reply = .ok response := by
    cases htells <;> exact ⟨_, rfl⟩
  obtain ⟨hok, hread⟩ := htells.readBody
  obtain ⟨a, ha, rfl⟩ := (hread (r.readIn S c.job.settings k)).complete host hhost
  have hanswers := ((hread _).named a ha).2
  refine ⟨a, ⟨seat, _, response, hs, ho, hmem, hok, ha, ?_⟩, rfl⟩
  rw [Bool.eq_false_iff]
  exact fun hempty => hanswers.isEmpty_iff.1 hempty howns

end

/-! ## Results -/

theorem firstNonEmpty_const {α : Type} {v : List α} : ∀ {ls : List (List α)}, ls ≠ [] →
    (∀ l ∈ ls, l = v) → Resolution.firstNonEmpty ls = v
  | [], hne, _ => absurd rfl hne
  | [l], _, h => by
    rw [Resolution.firstNonEmpty_singleton]
    exact h l List.mem_cons_self
  | l :: m :: ls, _, h => by
    obtain rfl := h l List.mem_cons_self
    obtain rfl := h m (by simp)
    rw [Resolution.firstNonEmpty_cons_cons, ite_self]
    exact firstNonEmpty_const (List.cons_ne_nil _ _) fun l' hl => h l' (List.mem_cons_of_mem _ hl)

theorem max_seconds_self (n : UInt32) : max n n = n :=
  if_pos (UInt32.le_iff_toNat_le.2 (Nat.le_refl _))

theorem foldl_max_self {n : UInt32} {ns : List UInt32} (h : ∀ m ∈ ns, m = n) :
    ns.foldl max n = n := by
  induction ns with
  | nil => rfl
  | cons m ns ih =>
    rw [List.foldl_cons, h m List.mem_cons_self, max_seconds_self]
    exact ih fun m' hm => h m' (List.mem_cons_of_mem _ hm)

theorem foldl_max_const {n : UInt32} {ns : List UInt32} (hne : ns ≠ []) (h : ∀ m ∈ ns, m = n) :
    ns.foldl max 0 = n := by
  cases ns with
  | nil => exact absurd rfl hne
  | cons m ns =>
    rw [foldl_max_zero, h m List.mem_cons_self]
    exact foldl_max_self fun m' hm => h m' (List.mem_cons_of_mem _ hm)

/-- What is made of answers of the zone is what the zone has for their host. -/
theorem portion_matches {pool : List Answer} (hpool : ∀ a ∈ pool, Z.Answers a.host type a)
    (hhit : q.partialHit = none) (now : Nat) {host : String} (hsome : ∃ a ∈ pool, a.host = host) :
    Z.Matches type (portion pool q now host) := by
  have hne : pool.filter (·.host = host) ≠ [] := by
    obtain ⟨a, ha, hhost⟩ := hsome
    exact List.ne_nil_of_mem (List.mem_filter.2 ⟨ha, decide_eq_true hhost⟩)
  have hown : ∀ a ∈ pool.filter (·.host = host), Z.Answers host type a := by
    intro a ha
    obtain ⟨hmem, hhost⟩ := List.mem_filter.1 ha
    exact of_decide_eq_true hhost ▸ hpool a hmem
  have const {β : Type} {f : Answer → β} {v : β} (hf : ∀ a, Z.Answers host type a → f a = v) :
      (pool.filter (·.host = host)).map f ≠ []
        ∧ ∀ b ∈ (pool.filter (·.host = host)).map f, b = v := by
    refine ⟨mt List.map_eq_nil_iff.1 hne, fun b hb => ?_⟩
    obtain ⟨a, ha, rfl⟩ := List.mem_map.1 hb
    exact hf a (hown a ha)
  unfold portion pooled gather
  rw [hhit]
  simp only [spare, Option.map_none, Option.toList_none, List.append_nil]
  constructor
  · obtain ⟨hne, hall⟩ := const fun a ha => congrArg distinctAddrs ha.ips_eq
    exact firstNonEmpty_const hne hall
  · obtain ⟨hne, hall⟩ := const fun a ha => congrArg distinctAddrs ha.ipsv6_eq
    exact firstNonEmpty_const hne hall
  · obtain ⟨hne, hall⟩ := const fun a ha => ha.ttl_eq
    exact foldl_max_const hne hall
  · obtain ⟨hne, hall⟩ := const fun a ha => ha.originTtl_eq
    exact foldl_max_const hne hall

section

variable (hS : Z.Serves S c) (hasks : ∀ ask ∈ asks, c.Poses ask)

include hS hasks

theorem Answered.zoned (hposed : r.Posed type asks) (hposing : q.Posing ask type)
    (hask : asks[k]? = some ask) {q' : Query} {hosts : List String}
    {es : List Event} (h : Answered S c.job.settings r k q q' hosts es) :
    ∀ x ∈ q'.results, x.host ∈ ask.hosts ∧ Z.Owns x.host type ∧ Z.Matches type x := by
  intro x hx
  rw [h.results, hposing.results_eq, List.nil_append] at hx
  obtain ⟨host, hhost, rfl⟩ := List.mem_map.1 hx
  obtain ⟨a, hgives, rfl⟩ := (h.own host).1 hhost
  obtain ⟨ask', hask', hmem, -, howns⟩ := hgives.told hS hasks hposed
  obtain rfl := Option.some.inj (hask.symm.trans hask')
  refine ⟨hmem, howns, portion_matches (fun b hb => ?_) hposing.partialHit_eq _ ?_⟩
  · obtain ⟨l, hl, hb⟩ := List.mem_flatMap.1 hb
    obtain ⟨k', hk'⟩ := List.getElem?_of_mem hl
    obtain ⟨-, -, -, hanswers, -⟩ :=
      ((r.mem_answers hk').1 hb).told hS hasks hposed
    exact hanswers
  · obtain ⟨l, hl, ha⟩ := hgives.landing
    exact ⟨a, List.mem_flatMap.2 ⟨l, List.mem_of_getElem? hl, ha⟩, rfl⟩

omit hS hasks in
/-- Something goes out in a first round for a query that may be sent. -/
theorem Round.goes_out (S : Services σ) (settings : JobSettings) (hequipped : r.Equipped)
    (hfirst : r.number = 0) (hq : r.queries[k]? = some q) (hpend : q.state = .pending)
    (hleft : 0 < q.attemptsLeft) :
    ∃ seat out, (r.seats S settings)[k]? = some seat ∧ seat.out = some out := by
  obtain ⟨seat, hs⟩ := (r.seats_pass S settings).get_after hq
  refine ⟨seat, ?_⟩
  have hb := (r.seats_pass S settings).each hq hs
  have hrun : q.isRunnable = true := Query.isRunnable_iff.2 ⟨hpend, hleft⟩
  have hnone : failedBefore r.number q = none := by
    rw [hfirst]
    rfl
  generalize about (0 + k) _ = gs at hb
  cases hb with
  | passed hnot => exact absurd (hrun.symm.trans hnot) (by decide)
  | kept =>
    have hserver := hequipped q (List.mem_of_getElem? hq) hpend
    have hout : (outgoing S settings (S.seconds r.world)
        (q.carry q.request.resolver (q.attemptsLeft - 1) q.lastFailed)).isSome = true :=
      (isSome_outgoing _ _).trans hserver
    obtain ⟨out, ho⟩ := Option.isSome_iff_exists.1 hout
    exact ⟨out, hs, ho⟩
  | stranded _ hf | moved _ hf => exact absurd (hnone.symm.trans hf) (by simp)

/-- A query that is answered in a round in which something went out for it has what the zone has for
its hosts. -/
theorem Answered.resolves (hposed : r.Posed type asks) (hposing : q.Posing ask type)
    (hask : asks[k]? = some ask) {seat : Seat} {out : Outgoing}
    (hseat : (r.seats S c.job.settings)[k]? = some seat) (ho : seat.out = some out) {q' : Query}
    {hosts : List String} {es : List Event} (h : Answered S c.job.settings r k q q' hosts es) :
    Z.Resolves ask.hosts type q'.results := by
  refine ⟨h.zoned hS hasks hposed hposing hask, fun host hhost howns => ?_⟩
  obtain ⟨a, hgives, rfl⟩ := Round.gives hS hasks hposed hseat ho hask hhost howns
  refine ⟨r.portion S c.job.settings q a.host, ?_, rfl⟩
  rw [h.results]
  exact List.mem_append_right _ (List.mem_map_of_mem ((h.own a.host).2 ⟨a, hgives, rfl⟩))

/-- A query in a first round ends with what the zone has for its hosts. -/
theorem settles_resolves (hposed : r.Posed type asks) (hequipped : r.Equipped)
    (hfirst : r.number = 0) {qs : List Query} {es : List Event} {w : σ}
    (hs : Settles S c.job.settings r qs es w) (hq : r.queries[k]? = some q)
    (hpend : q.state = .pending) (hleft : 0 < q.attemptsLeft) (hask : asks[k]? = some ask)
    {q' : Query} (hq' : qs[k]? = some q') : Z.Resolves ask.hosts type q'.results := by
  obtain ⟨ask', hask', hposing⟩ := hposed hq hpend
  obtain rfl := Option.some.inj (hask.symm.trans hask')
  obtain ⟨seat, out, hseat, ho⟩ := Round.goes_out S c.job.settings hequipped
    hfirst hq hpend hleft
  have hsent : r.isSent S c.job.settings :=
    (r.isSent_iff S c.job.settings).2 ⟨k, (r.mem_sent S c.job.settings).2
      ⟨seat, hseat, by rw [ho]; rfl⟩⟩
  cases hs with
  | ended hend => exact absurd hsent hend
  | again _ rest =>
    obtain ⟨q₁, hq₁⟩ := (r.passes S c.job.settings).get_after hq
    have hround := (r.passes S c.job.settings).each hq hq₁
    rw [Nat.zero_add] at hround
    cases hround.fared with
    | answered hosts h =>
      obtain rfl : q₁ = q' := Option.some.inj
        ((rest.kept hq₁ (by simp [Query.isRunnable, h.state])).symm.trans hq')
      exact h.resolves hS hasks hposed hposing hask hseat ho
    | carried server attempts failed hquery hnone =>
      subst hquery
      have hnext : (r.next S c.job.settings).Posed type asks :=
        (Reaches.step hsent (.refl _)).posed hposed
      -- the first round would have had an answer for a host that owns something
      have hnothing : ∀ host ∈ ask.hosts, ¬ Z.Owns host type := by
        intro host hhost howns
        obtain ⟨a, hgives, -⟩ := Round.gives hS hasks hposed hseat ho hask hhost howns
        exact hnone a hgives
      refine ⟨?_, fun host hhost howns => absurd howns (hnothing host hhost)⟩
      -- and what it is told in a later round is in the zone all the same
      cases rest.fares hq₁ hq' with
      | carried server' attempts' failed' hquery' =>
        rw [hquery', Query.results_carry, Query.results_carry, hposing.results_eq]
        exact fun x hx => absurd hx List.not_mem_nil
      | answered hreach _ server' attempts' failed' hquery' hosts h =>
        exact h.zoned hS hasks (hreach.posed hnext) ((hposing.carry _ _ _).carry _ _ _) hask

end

end Job

/-! ## Runs of a client -/

/-- The type that is sent on a stack. -/
def QueryType.on (type : QueryType) (stack : Stack) : QueryType :=
  if type = .auto then .ofStack stack else type

namespace Client

open Job

variable {τ : Type} {S : Services τ} {c : Client} {Z : Zone} {stack : Stack} {type : QueryType}

/-- Nothing is cached, and there is a server for the stack. -/
structure Unused (stack : Stack) (s : State τ) : Prop where
  entries_eq : s.1.entries = []
  supplies : s.2.1.Supplies stack

/-- The query for a request of a client. -/
def asked (c : Client) (type : QueryType) (ask : Request) : Query :=
  .ofRequest { ask with queryType := type } false c.job.settings.attempts

/-- The query with its server and its type. -/
def askedOf (c : Client) (type : QueryType) (stack : Stack) (ask : Request) (server : String) :
    Query :=
  { c.asked (type.on stack) ask with
    request := { ask with queryType := type.on stack, resolver := some server } }

theorem askedOf_posing (ask : Request) (server : String) :
    (c.askedOf type stack ask server).Posing ask (type.on stack) where
  stems := ⟨some server, type.on stack, rfl⟩
  state_eq := rfl
  results_eq := rfl
  queryType_eq := rfl
  partialHit_eq := rfl

theorem zone_serves_services (h : Z.Serves S c) : Z.Serves (services S) c := by
  intro outs houts s
  refine (h outs houts s.2.2.2).imp fun out reply htells => ?_
  cases htells with
  | single hsingle read ha => exact .single hsingle (fun s' => read s'.2.2.2) ha
  | batched hmulti read ha => exact .batched hmulti (fun s' => read s'.2.2.2) ha

section

variable (hstack : ∀ w, (S.stack w).1 = stack)

include hstack

theorem assignServer_asked (type : QueryType) (i : Nat) {ask : Request} (hask : c.Poses ask)
    {cache : Cache} {pool : Pool} (hpool : pool.Supplies stack) (boot : Roster) (w : τ) :
    ∃ server es w',
      assignServer (services S) i (c.asked type ask) (cache, pool, boot, w)
        = (some ((c.asked type ask).serve server), es, (cache, pool, boot, w')) := by
  obtain ⟨e, he⟩ := Option.isSome_iff_exists.1 (Pool.isSome_pick.2 hpool)
  have hpick : (services S).pick (cache, pool, boot, w)
      = (some e, (cache, pool, boot, (S.stack w).2)) := by
    rw [← he, ← hstack w]
    rfl
  have hnone : (c.asked type ask).request.resolver = none := hask.resolver_eq
  refine ⟨e.addr, [.drew i (some e)], (S.stack w).2, ?_⟩
  unfold assignServer
  simp [hnone, hpick]

theorem assignType_asked (c : Client) (type : QueryType) (ask : Request) (server : String)
    {seen : Option Stack} (hseen : ∀ found ∈ seen, found = stack) (cache : Cache) (pool : Pool)
    (boot : Roster) (w : τ) :
    ∃ seen' es w', (∀ found ∈ seen', found = stack)
      ∧ assignType (services S) seen ((c.asked type ask).serve server) (cache, pool, boot, w)
        = ((c.askedOf type stack ask server, seen'), es, (cache, pool, boot, w')) := by
  by_cases hauto : type = .auto
  · subst hauto
    cases seen with
    | none =>
      refine ⟨some stack, [.detected stack], (S.stack w).2, by simp, ?_⟩
      have hdetect : (services S).stack (cache, pool, boot, w)
          = (stack, (cache, pool, boot, (S.stack w).2)) := by
        rw [← hstack w]
        rfl
      have htype : ((c.asked .auto ask).serve server).request.queryType = .auto := rfl
      simp only [assignType, htype, if_true, askStack, Action.bind_apply, Action.call_apply,
        hdetect, Action.tell_apply, Action.pure_apply]
      rfl
    | some found =>
      obtain rfl := hseen found rfl
      exact ⟨some found, [], w, by simp, rfl⟩
  · have htype : ((c.asked type ask).serve server).request.queryType ≠ .auto := hauto
    refine ⟨seen, [], w, hseen, ?_⟩
    rw [assignType, if_neg htype]
    have heq : (c.asked type ask).serve server = c.askedOf type stack ask server := by
      rw [askedOf, QueryType.on, if_neg hauto]
      rfl
    rw [heq]
    rfl

omit hstack in
theorem probe_unused (i : Nat) (q : Query) {cache : Cache} (hcache : cache.entries = [])
    (pool : Pool) (boot : Roster) (w : τ) : ∃ es cache', cache'.entries = []
      ∧ probe (services S) i q (cache, pool, boot, w) = (q, es, (cache', pool, boot, w)) := by
  unfold probe
  split
  · have hlookup : cache.lookup q.ownKey q.queryType (S.instant w) = (none, cache.countMiss) := by
      simp [Cache.lookup, hcache, Entries.get?]
    have hcall : (services S).lookup q.ownKey q.queryType (cache, pool, boot, w)
        = (none, (cache.countMiss, pool, boot, w)) := by
      have hcalled : (services S).lookup q.ownKey q.queryType (cache, pool, boot, w)
          = ((cache.lookup q.ownKey q.queryType (S.instant w)).1,
            ((cache.lookup q.ownKey q.queryType (S.instant w)).2, pool, boot, w)) := rfl
      rw [hcalled, hlookup]
    exact ⟨[.probed i q.ownKey q.queryType none], cache.countMiss, hcache, by simp [hcall]⟩
  · exact ⟨[], cache, hcache, rfl⟩

/-- Over an empty cache every query gets a server and the type that suits the stack. -/
theorem prepare_asked (type : QueryType) : ∀ (i : Nat) (seen : Option Stack)
    {asks : List Request} {s : State τ}, (∀ ask ∈ asks, c.Poses ask) →
    (∀ found ∈ seen, found = stack) → Unused stack s →
      (prepare (services S) i seen (asks.map (c.asked type)) s).1.2 = true
        ∧ List.Forall₂ (fun ask q => ∃ server, q = c.askedOf type stack ask server) asks
          (prepare (services S) i seen (asks.map (c.asked type)) s).1.1
  | _, _, [], _, _, _, _ => ⟨rfl, .nil⟩
  | i, seen, ask :: asks, (cache, pool, boot, w), hasks, hseen, hs => by
    have hpend : (c.asked type ask).state = .pending := rfl
    obtain ⟨server, es, w₁, hserved⟩ := assignServer_asked hstack type i
      (hasks ask List.mem_cons_self) hs.supplies boot w
    obtain ⟨seen', es', w₂, hseen', htyped⟩ := assignType_asked hstack c type ask
      server hseen cache pool boot w₁
    obtain ⟨es'', cache', hcache, hprobed⟩ := probe_unused (S := S) i
      (c.askedOf type stack ask server) hs.entries_eq pool boot w₂
    have hs' : Unused stack (cache', pool, boot, w₂) := ⟨hcache, hs.supplies⟩
    have hrest := prepare_asked type (i + 1) seen'
      (fun ask' hask => hasks ask' (List.mem_cons_of_mem _ hask)) hseen' hs'
    rw [List.map_cons, prepare_served _ hpend hserved]
    simp only [htyped, hprobed]
    exact ⟨hrest.1, .cons ⟨server, rfl⟩ hrest.2⟩

/-- A run of a client over a service of the zone and an empty cache gives each of its requests what
the zone has for its hosts. -/
theorem run_resolves (hS : Z.Serves S c) {s : State τ} (hs : Unused stack s) {asks : List Request}
    (hasks : ∀ ask ∈ asks, c.Poses ask) (type : QueryType) : ∃ qs,
      (run S { c.job with queries := asks.map (c.asked type) } s).1
          = ({ c.job with queries := qs }, .ok ())
        ∧ List.Forall₂ (fun ask q => Z.Resolves ask.hosts (type.on stack) q.results) asks qs := by
  obtain ⟨hok, hready⟩ := prepare_asked hstack type 0 none hasks (by simp) hs
  set j : Job := { c.job with queries := asks.map (c.asked type) } with hj
  have hasked : ∀ {k : Nat} {q : Query}, (firstRound (services S) j s).queries[k]? = some q →
      ∃ ask server, asks[k]? = some ask ∧ q = c.askedOf type stack ask server := by
    intro k q hq
    obtain ⟨hk, hget⟩ := List.getElem?_eq_some_iff.1 hq
    have hk' : k < asks.length := hready.length_eq ▸ hk
    obtain ⟨server, hserver⟩ := hready.get hk' hk
    exact ⟨_, server, List.getElem?_eq_getElem hk', hget.symm.trans hserver⟩
  have hposed : (firstRound (services S) j s).Posed (type.on stack) asks := by
    intro k q hq _
    obtain ⟨ask, server, hask, rfl⟩ := hasked hq
    exact ⟨ask, hask, askedOf_posing ask server⟩
  have hexec := executes_run (services S) j s
  unfold run
  generalize Job.run (services S) j s = out at hexec ⊢
  cases hexec with
  | refused hnot => exact absurd (hok.symm.trans hnot) (by decide)
  | @settled _ qs es w' hsettles =>
    have hlength : asks.length = qs.length := hready.length_eq.trans hsettles.passes.length_eq.symm
    refine ⟨qs.map Query.sweep, rfl, List.forall₂_map_right_iff.2 ?_⟩
    refine List.forall₂_iff_get.2 ⟨hlength, fun k hk hk' => ?_⟩
    rw [Query.results_sweep]
    have hq' : qs[k]? = some qs[k] := List.getElem?_eq_getElem hk'
    obtain ⟨q, hq⟩ := hsettles.passes.get_before hq'
    obtain ⟨ask, server, hask, rfl⟩ := hasked hq
    obtain rfl : asks[k] = ask := Option.some.inj ((List.getElem?_eq_getElem hk).symm.trans hask)
    exact settles_resolves (zone_serves_services hS) hasks hposed (equipped_firstRound hok) rfl
      hsettles hq rfl c.job.settings.attempts_pos hask hq'

end

end Client

end HttpDns
