import HttpDns.Proofs.Lone

/-!
# The lookups of a client over fixed records

Once its server is drawn and its type settled, a lookup of a client is asked for in full, narrowed
to the family that its cached answer lacks, or answered from the cache (`readied`). Over a record
service it has an answer exactly when there is a server for the stack, the host owns a family of the
type, and the lookup is not narrowed to a family that the host does not own (`answered_iff`).
-/

namespace HttpDns

theorem JobSettings.attempts_pos (s : JobSettings) : 0 < s.attempts := by
  have hsize : UInt32.size = 4294967296 := rfl
  unfold attempts
  omega

namespace Client

open Job

variable {τ : Type}

/-- The type a lookup settles on, and the services' state then: a server is drawn first, and the
detector is asked both for that and for the type. -/
def settledFor (S : Services τ) (q : QueryType) (w : τ) : QueryType × τ :=
  let w := (S.stack w).2
  if q = .auto then (.ofStack (S.stack w).1, (S.stack w).2) else (q, w)

theorem settledFor_ne_auto (S : Services τ) (q : QueryType) (w : τ) :
    (settledFor S q w).1 ≠ .auto := by
  unfold settledFor
  split
  · exact QueryType.ofStack_ne_auto _
  · assumption

/-- What the cache has for a lookup when it is asked. -/
def cached (S : Services τ) (host : String) (q : QueryType) (s : State τ) : Option Resolution :=
  (s.1.lookup host (settledFor S q s.2.2.2).1 (S.instant (settledFor S q s.2.2.2).2)).1

def query (c : Client) (host : String) (q : QueryType) : Query :=
  .ofRequest (c.request host q) false c.job.settings.attempts

/-! ## Preparing a lookup -/

theorem cached_eq_some {S : Services τ} {R : Records} {host : String} {q : QueryType}
    {s : State τ} (hf : Faithful R s.1) {r : Resolution} (h : cached S host q s = some r) :
    R.Backs host r ∧ Cache.usable r (settledFor S q s.2.2.2).1 = true := by
  unfold cached Cache.lookup at h
  split at h
  · cases h
  · rename_i stored hg
    split at h
    · cases h
    · split at h
      · rename_i husable
        cases h
        exact ⟨hf.of_get? hg, husable⟩
      · cases h

/-- How a lookup goes into its rounds. -/
inductive Readied (S : Services τ) (c : Client) (R : Records) (host : String) (q : QueryType)
    (s : State τ) : List Query × Bool → Prop
  | refused (h : s.2.1.servers (S.stack s.2.2.2).1 = []) {qs : List Query} :
      Readied S c R host q s (qs, false)
  | asking (h : s.2.1.servers (S.stack s.2.2.2).1 ≠ [])
      (hc : c.config.usingCache = false ∨ cached S host q s = none) {q' : Query}
      (hq : Asking c R host (settledFor S q s.2.2.2).1 q') (ha : 0 < q'.attemptsLeft) :
      Readied S c R host q s ([q'], true)
  | narrowed (h : s.2.1.servers (S.stack s.2.2.2).1 ≠ []) (hc : c.config.usingCache = true)
      {r : Resolution} (hr : cached S host q s = some r) {type : QueryType}
      (hm : r.missing (settledFor S q s.2.2.2).1 = some type) {q' : Query}
      (hq : Asking c R host type q') (ha : 0 < q'.attemptsLeft) :
      Readied S c R host q s ([q'], true)
  | found (h : s.2.1.servers (S.stack s.2.2.2).1 ≠ []) (hc : c.config.usingCache = true)
      {r : Resolution} (hr : cached S host q s = some r)
      (hm : r.missing (settledFor S q s.2.2.2).1 = none) {q' : Query}
      (hstate : q'.state = .completed) (hne : q'.results ≠ []) :
      Readied S c R host q s ([q'], true)

def readyQuery (S : Services τ) (c : Client) (host : String) (q : QueryType) (w : τ)
    (server : String) : Query :=
  ((c.query host q).serve server).settle (settledFor S q w).1

theorem assignType_query (S : Services τ) (c : Client) (host : String) (q : QueryType)
    (server : String) (cache : Cache) (pool : Pool) (boot : Roster) (w : τ) :
    (assignType (services S) none ((c.query host q).serve server)
        (cache, pool, boot, (S.stack w).2)).1.1 = readyQuery S c host q w server
      ∧ (assignType (services S) none ((c.query host q).serve server)
        (cache, pool, boot, (S.stack w).2)).2.2 = (cache, pool, boot, (settledFor S q w).2) := by
  cases q <;> exact ⟨rfl, rfl⟩

theorem readyQuery_asking (S : Services τ) (c : Client) (R : Records) (host : String)
    (q : QueryType) (w : τ) (server : String) :
    Asking c R host (settledFor S q w).1 (readyQuery S c host q w server) where
  state_eq := rfl
  results_eq := rfl
  queryType_eq := rfl
  request_eq := ⟨server, (settledFor S q w).1, rfl⟩
  hit _ hp := by cases hp

theorem usesProbe_ready (S : Services τ) (c : Client) (host : String) (q : QueryType) (w : τ)
    (server : String) : (readyQuery S c host q w server).usesProbe = c.config.usingCache :=
  Bool.and_true _

theorem lookup_ready (S : Services τ) (c : Client) (host : String) (q : QueryType)
    (cache : Cache) (pool : Pool) (boot : Roster) (w : τ) (server : String) :
    ((services S).lookup (readyQuery S c host q w server).ownKey
        (readyQuery S c host q w server).queryType
        (cache, pool, boot, (settledFor S q w).2)).1
      = cached S host q (cache, pool, boot, w) := rfl

/-- The query is ready to be sent, narrowed or completed once it has asked the cache. -/
theorem probe_readied (S : Services τ) (c : Client) {R : Records} (host : String) (q : QueryType)
    {cache : Cache} (hf : Faithful R cache) {pool : Pool} {w : τ}
    (h : pool.servers (S.stack w).1 ≠ []) (boot : Roster) (server : String) :
    Readied S c R host q (cache, pool, boot, w)
      ([(probe (services S) 0 (readyQuery S c host q w server)
        (cache, pool, boot, (settledFor S q w).2)).1], true) := by
  have hask := readyQuery_asking S c R host q w server
  have hpos : 0 < (readyQuery S c host q w server).attemptsLeft := c.job.settings.attempts_pos
  unfold probe
  rw [usesProbe_ready]
  cases hc : c.config.usingCache with
  | false => exact .asking h (.inl hc) hask hpos
  | true =>
    simp only [if_true, Action.bind_apply, Action.call_apply, lookup_ready]
    cases hr : cached S host q (cache, pool, boot, w) with
    | none => exact .asking h (.inr hr) hask hpos
    | some r =>
      have hbacks : R.Backs host r := (cached_eq_some hf hr).1
      cases hm : r.missing (readyQuery S c host q w server).queryType with
      | none =>
        simp only [hm, Action.bind_apply, complete_apply]
        exact .found h hc hr hm rfl (List.cons_ne_nil _ _)
      | some type =>
        simp only [hm, Action.pure_apply]
        refine .narrowed h hc hr hm ⟨rfl, rfl, rfl, hask.request_eq, ?_⟩ hpos
        rintro p ⟨⟩
        exact hbacks

theorem readied (S : Services τ) (c : Client) {R : Records} (host : String) (q : QueryType)
    {s : State τ} (hf : Faithful R s.1) :
    Readied S c R host q s (prepare (services S) 0 none [c.query host q] s).1 := by
  obtain ⟨cache, pool, boot, w⟩ := s
  have hserve : assignServer (services S) 0 (c.query host q) (cache, pool, boot, w)
      = ((pool.pick (S.stack w).1).map fun e => (c.query host q).serve e.addr,
        [.drew 0 (pool.pick (S.stack w).1)], (cache, pool, boot, (S.stack w).2)) := rfl
  have hstate : (c.query host q).state = .pending := rfl
  simp only [prepare, hstate, if_true, Action.bind_apply, hserve]
  cases hp : pool.pick (S.stack w).1 with
  | none => exact .refused (Pool.pick_eq_none.1 hp)
  | some e =>
    have hne : pool.servers (S.stack w).1 ≠ [] := fun hnil => by
      rw [Pool.pick_eq_none.2 hnil] at hp
      cases hp
    obtain ⟨htype, hworld⟩ := assignType_query S c host q e.addr cache pool boot w
    simp only [Option.map_some, Action.bind_apply, htype, hworld]
    exact probe_readied S c host q hf hne boot e.addr

theorem Readied.isOk_iff {S : Services τ} {c : Client} {R : Records} {host : String}
    {q : QueryType} {s : State τ} {ready : List Query × Bool}
    (h : Readied S c R host q s ready) :
    ready.2 = true ↔ s.2.1.servers (S.stack s.2.2.2).1 ≠ [] := by
  cases h with
  | refused h => simp [h]
  | asking h | narrowed h | found h => exact iff_of_true rfl h

/-! ## The cached half -/

theorem owns_of_usable {R : Records} {host : String} {r : Resolution} {type : QueryType}
    (hb : R.Backs host r) (hu : Cache.usable r type = true) (hauto : type ≠ .auto) :
    R.Owns host type := by
  cases type with
  | a => exact .inl ⟨rfl, hb.1 (by simpa [Cache.usable] using hu)⟩
  | aaaa => exact .inr ⟨rfl, hb.2 (by simpa [Cache.usable] using hu)⟩
  | both =>
    by_cases h : r.ips = []
    · exact .inr ⟨rfl, hb.2 (by simpa [Cache.usable, Resolution.isEmpty, h] using hu)⟩
    · exact .inl ⟨rfl, hb.1 h⟩
  | auto => exact absurd rfl hauto

/-- Only a lookup of both families is narrowed, and then to the family that its cached answer
lacks. -/
theorem owns_missing_iff {R : Records} {host : String} {r : Resolution} {type other : QueryType}
    (hb : R.Backs host r) (hu : Cache.usable r type = true) (hauto : type ≠ .auto)
    (hm : r.missing type = some other) :
    type = .both ∧ (R.Owns host other ↔ ¬ R.OneFamily host) := by
  unfold Resolution.missing at hm
  cases type with
  | a =>
    have hips : r.ips.isEmpty = false := by simpa [Cache.usable] using hu
    simp [QueryType.wantsIpv4, QueryType.wantsIpv6, hips] at hm
  | aaaa =>
    have hips : r.ipsv6.isEmpty = false := by simpa [Cache.usable] using hu
    simp [QueryType.wantsIpv4, QueryType.wantsIpv6, hips] at hm
  | auto => exact absurd rfl hauto
  | both =>
    refine ⟨rfl, ?_⟩
    unfold Records.OneFamily Records.Owns
    cases h4 : r.ips with
    | cons =>
      have howns := hb.1 (by simp [h4])
      cases h6 : r.ipsv6 with
      | cons => simp [QueryType.wantsIpv4, QueryType.wantsIpv6, h4, h6] at hm
      | nil =>
        obtain rfl : .aaaa = other := by
          simpa [QueryType.wantsIpv4, QueryType.wantsIpv6, h4, h6] using hm
        simp [QueryType.wantsIpv4, QueryType.wantsIpv6, howns]
    | nil =>
      cases h6 : r.ipsv6 with
      | nil => simp [Cache.usable, Resolution.isEmpty, h4, h6] at hu
      | cons =>
        have howns := hb.2 (by simp [h6])
        obtain rfl : .a = other := by
          simpa [QueryType.wantsIpv4, QueryType.wantsIpv6, h4, h6] using hm
        simp [QueryType.wantsIpv4, QueryType.wantsIpv6, howns]

theorem not_oneFamily_of_whole {R : Records} {host : String} {r : Resolution}
    (hb : R.Backs host r) (hm : r.missing .both = none) : ¬ R.OneFamily host := by
  have hsat := Resolution.missing_eq_none_iff.1 hm
  simp only [Resolution.satisfies, QueryType.wantsIpv4, QueryType.wantsIpv6, Bool.not_true,
    Bool.false_or, Bool.and_eq_true, Bool.not_eq_true', List.isEmpty_eq_false_iff] at hsat
  intro hone
  exact hb.1 hsat.1 (hone.2 (hb.2 hsat.2))

/-! ## Running a lookup -/

theorem serves_services {S : Services τ} {c : Client} {R : Records} (h : Serves S c R) :
    Serves (services S) c R := by
  intro host type server now s
  obtain ⟨body, rtt, a, hreply, hread, ha⟩ := h host type server now s.2.2.2
  exact ⟨body, rtt, a, hreply, fun s' => hread s'.2.2.2, ha⟩

def lookupJob (c : Client) (host : String) (q : QueryType) : Job :=
  { c.job with queries := [c.query host q] }

theorem resolve_of_fault (S : Services τ) {c : Client} {r : Request} (s : State τ)
    {f : RequestFault} (h : r.fault? = some f) :
    resolve S c r s = (.error (.request f), [], s) := by
  rw [resolve, add_error c.job false h]
  rfl

theorem resolveHost_of_fault (S : Services τ) {c : Client} {host : String} {q : QueryType}
    (s : State τ) {f : RequestFault} (h : (c.request host q).fault? = some f) :
    resolveHost S c host q s = (.error (.request f), [], s) :=
  resolve_of_fault S s h

theorem resolveHost_of_run (S : Services τ) {c : Client} {host : String} {q : QueryType}
    {s : State τ} (h : (c.request host q).fault? = none) (hp : s.2.1.isEmpty = false) :
    resolveHost S c host q s
      = ((run S (c.lookupJob host q) s).1.2.map fun _ =>
          firstAnswer (run S (c.lookupJob host q) s).1.1,
        (run S (c.lookupJob host q) s).2) := by
  have hadd : c.job.add (c.request host q) false = .ok (c.lookupJob host q) := add_ok _ _ h
  have hready : ensureServers S c s = ((), [], s) := by
    simp [ensureServers, poolEmpty, hp]
  unfold resolveHost resolve
  rw [hadd]
  simp only [Action.bind_apply, hready, List.nil_append, Action.pure_apply, List.append_nil]

theorem firstAnswer_sweep (j : Job) (qs : List Query) :
    firstAnswer { j with queries := qs.map Query.sweep } = qs.head?.bind (·.results.head?) := by
  cases qs with
  | nil => rfl
  | cons q rest =>
    show q.sweep.results.head? = q.results.head?
    unfold Query.sweep
    split <;> rfl

/-- A query that is asked over a record service is answered if and only if its host owns something
of the type that is sent. -/
theorem asking_answered_iff {S : Services τ} {c : Client} {R : Records} (hS : Serves S c R)
    {host : String} {type : QueryType} {r : Round (State τ)} {qs : List Query} {es : List Event}
    {s : State τ} (h : Settles (services S) c.job.settings r qs es s) {q : Query}
    (hr : r.queries = [q]) (hn : r.number = 0) (hq : Asking c R host type q)
    (ha : 0 < q.attemptsLeft) :
    (qs.head?.bind (·.results.head?)).isSome = true ↔ R.Owns host type := by
  constructor
  · intro hsome
    by_contra hnot
    obtain ⟨q', rfl, hq'⟩ := lone_unanswered (serves_services hS) hnot h hr hq
    simp [hq'.results_eq] at hsome
  · intro howns
    obtain ⟨q', hget, -, hne⟩ := lone_answered (serves_services hS) howns h hr hn hq ha
    obtain ⟨x, xs, hx⟩ := List.exists_cons_of_ne_nil hne
    rw [List.head?_eq_getElem?, hget, Option.bind_some, hx]
    rfl

/-- A lookup of both families asks for the one that its host does not own: the cache has the
other. -/
structure Narrowed (S : Services τ) (c : Client) (R : Records) (host : String) (q : QueryType)
    (s : State τ) : Prop where
  usingCache : c.config.usingCache = true
  both : (settledFor S q s.2.2.2).1 = .both
  hit : (cached S host q s).isSome = true
  oneFamily : R.OneFamily host

/-- The rounds of a lookup that is ready bring an answer if its host owns something of the type,
unless the lookup is narrowed. -/
theorem settles_answered_iff {S : Services τ} {c : Client} {R : Records} (hS : Serves S c R)
    {host : String} {q : QueryType} {s : State τ} (hf : Faithful R s.1)
    {ready : List Query × Bool} (h : Readied S c R host q s ready) (hok : ready.2 = true)
    {w : State τ} {qs : List Query} {es : List Event} {w' : State τ}
    (hs : Settles (services S) c.job.settings ⟨0, ready.1, w⟩ qs es w') :
    (qs.head?.bind (·.results.head?)).isSome = true
      ↔ R.Owns host (settledFor S q s.2.2.2).1 ∧ ¬ Narrowed S c R host q s := by
  have hauto := settledFor_ne_auto S q s.2.2.2
  cases h with
  | refused => cases hok
  | asking _ hc hq ha =>
    have hnot : ¬ Narrowed S c R host q s := by
      rintro ⟨husing, -, hhit, -⟩
      rcases hc with hc | hc
      · exact absurd (hc.symm.trans husing) (by decide)
      · rw [hc] at hhit
        cases hhit
    rw [asking_answered_iff hS hs rfl rfl hq ha]
    exact (and_iff_left hnot).symm
  | narrowed _ hc hr hm hq ha =>
    obtain ⟨hb, hu⟩ := cached_eq_some hf hr
    obtain ⟨hboth, howns⟩ := owns_missing_iff hb hu hauto hm
    rw [asking_answered_iff hS hs rfl rfl hq ha, howns]
    constructor
    · exact fun hone => ⟨owns_of_usable hb hu hauto, fun hn => hone hn.oneFamily⟩
    · exact fun ⟨_, hn⟩ hone => hn ⟨hc, hboth, by rw [hr]; rfl, hone⟩
  | found _ hc hr hm hstate hne =>
    obtain ⟨hb, hu⟩ := cached_eq_some hf hr
    have hget := hs.kept (k := 0) rfl (by simp [Query.isRunnable, hstate])
    obtain ⟨x, xs, hx⟩ := List.exists_cons_of_ne_nil hne
    rw [List.head?_eq_getElem?, hget, Option.bind_some, hx]
    refine iff_of_true rfl ⟨owns_of_usable hb hu hauto, fun hn => ?_⟩
    rw [hn.both] at hm
    exact not_oneFamily_of_whole hb hm hn.oneFamily

def Answered (S : Services τ) (c : Client) (host : String) (q : QueryType) (s : State τ) : Prop :=
  ∃ r, (resolveHost S c host q s).1 = .ok (some r)

/-- A lookup over fixed records has an answer exactly when its request is accepted, a server can be
drawn, the host owns something of the type, and the lookup is not narrowed. -/
theorem answered_iff {S : Services τ} {c : Client} {R : Records} (hS : Serves S c R)
    {host : String} {q : QueryType} {s : State τ} (hf : Faithful R s.1)
    (hp : s.2.1.isEmpty = false) :
    Answered S c host q s ↔ (c.request host q).fault? = none
      ∧ s.2.1.servers (S.stack s.2.2.2).1 ≠ [] ∧ R.Owns host (settledFor S q s.2.2.2).1
      ∧ ¬ Narrowed S c R host q s := by
  unfold Answered
  cases hfault : (c.request host q).fault? with
  | some f => simp [resolveHost_of_fault S s hfault]
  | none =>
    have hready := readied S c host q hf
    have hexec := executes_run (services S) (c.lookupJob host q) s
    rw [resolveHost_of_run S hfault hp]
    unfold run
    generalize Job.run (services S) (c.lookupJob host q) s = out at hexec ⊢
    cases hexec with
    | refused h =>
      have hnone := mt hready.isOk_iff.2 (Bool.eq_false_iff.1 h)
      exact iff_of_false (fun ⟨_, h⟩ => by cases h) fun h => hnone h.2.1
    | settled h hs =>
      have hserved := hready.isOk_iff.1 h
      have hanswer := settles_answered_iff hS hf hready h hs
      rw [← firstAnswer_sweep (c.lookupJob host q)] at hanswer
      rw [Option.isSome_iff_exists] at hanswer
      simpa [Except.map, hserved] using hanswer

/-! ## What a lookup leaves -/

theorem Readied.lone {S : Services τ} {c : Client} {R : Records} {host : String} {q : QueryType}
    {s : State τ} {ready : List Query × Bool} (h : Readied S c R host q s ready)
    (hok : ready.2 = true) : ∃ q' type, ready.1 = [q'] ∧ Lone c R host type q' := by
  cases h with
  | refused => cases hok
  | asking _ _ hq | narrowed _ _ _ _ hq => exact ⟨_, _, rfl, .inl hq⟩
  | found _ _ _ _ hstate => exact ⟨_, .auto, rfl, .inr (by simp [Query.isRunnable, hstate])⟩

theorem lookup_fit {S : Services τ} {c : Client} {R : Records} (hS : Serves S c R)
    (host : String) (q : QueryType) {s : State τ} (hf : Faithful R s.1) :
    StoresFit (fun r => R.Backs r.cacheKey r)
      (Job.run (services S) (c.lookupJob host q) s).2.1 := by
  have hready := readied S c host q hf
  have hprepare : StoresFit (fun r => R.Backs r.cacheKey r)
      (prepare (services S) 0 none [c.query host q] s).2.1 :=
    prepare_storesFit (services S) 0 none [c.query host q] s
  have hexec := executes_run (services S) (c.lookupJob host q) s
  generalize Job.run (services S) (c.lookupJob host q) s = out at hexec ⊢
  cases hexec with
  | refused => exact hprepare
  | settled h hs =>
    obtain ⟨q', type, hone, hlone⟩ := hready.lone h
    exact storesFit_append.2 ⟨hprepare, lone_fit (serves_services hS) hs hone hlone⟩

theorem Upkept.isEmpty_eq {R : Records} {p : Pool} {s : State τ} (h : Upkept R p s) :
    s.2.1.isEmpty = p.isEmpty := h.2.isEmpty_eq

/-- A lookup over fixed records keeps the cache faithful and the servers as they are. -/
theorem resolveHost_upkept {S : Services τ} {c : Client} {R : Records} (hS : Serves S c R)
    {p : Pool} (hp : p.isEmpty = false) (host : String) (q : QueryType) {s : State τ}
    (h : Upkept R p s) : Upkept R p (resolveHost S c host q s).2.2 := by
  cases hfault : (c.request host q).fault? with
  | some f =>
    rw [resolveHost_of_fault S s hfault]
    exact h
  | none =>
    rw [resolveHost_of_run S hfault (h.isEmpty_eq.trans hp)]
    exact run_upholds (maintains_services S R p) _ s h (lookup_fit hS host q h.1)

end Client

end HttpDns
