import HttpDns.Proofs.Ledger
import HttpDns.Proofs.Lone
import HttpDns.Proofs.Retries
import HttpDns.Proofs.Updates

/-!
# Answers that are used again

What a round caches under a key that had no live entry is the entry of that key as long as nothing
else is done under it. A single request with that key, of a type the answer has all families of, so
gets the answer as it was told before, without an exchange, until it expires (`run_reuses`).
-/

namespace HttpDns

namespace Cache

/-- The operation is on the key; to clear the cache is on all of them. -/
def Op.IsOn (key : String) : Op → Prop
  | .lookup k _ _ | .delete k | .rotate k => k = key
  | .add r | .update r => r.cacheKey = key
  | .clear => True

theorem Op.next_of_not_isOn {key : String} {op : Op} (h : ¬ op.IsOn key) (x : Option Resolution) :
    op.next key x = x := by
  cases op with
  | lookup | delete | rotate => exact if_neg h
  | add | update => exact if_neg fun hon => h hon.1
  | clear => exact absurd trivial h

/-- Operations on other keys leave the entry under a key as it is. -/
theorem get?_foldl_of_not_isOn {key : String} {ops : List Op} (h : ∀ op ∈ ops, ¬ op.IsOn key)
    {c : Cache} (hc : c.WellKept) : (ops.foldl apply c).entries.get? key = c.entries.get? key := by
  induction ops generalizing c with
  | nil => rfl
  | cons op ops ih =>
    rw [List.foldl_cons, ih (fun op' hop => h op' (List.mem_cons_of_mem _ hop)) (hc.apply op),
      get?_apply hc, Op.next_of_not_isOn (h op List.mem_cons_self)]

/-- At the instant there is no live entry under the key. An update judges so by the instant at which
its answer was learned. -/
def Vacant (c : Cache) (key : String) (now : Nat) : Prop :=
  ∀ e ∈ c.entries.get? key, e.isExpiredAt now = true

theorem get?_update_of_vacant {c : Cache} {x : Resolution} (h : c.Vacant x.cacheKey x.learnedAt)
    (hkey : x.cacheKey ≠ "") : (c.update x).entries.get? x.cacheKey = some x := by
  rw [c.get?_update_self hkey, (renews_renewed x _).replaces h]

theorem usable_of_satisfies {r : Resolution} {type : QueryType} (h : r.satisfies type = true) :
    usable r type = true := by
  cases type <;> simp_all [usable, Resolution.satisfies, Resolution.isEmpty,
    QueryType.wantsIpv4, QueryType.wantsIpv6]

/-- A live entry that has all families of a type is found. -/
theorem lookup_of_satisfies {c : Cache} {key : String} {x : Resolution} {type : QueryType}
    {now : Nat} (hget : c.entries.get? key = some x) (hlive : now < x.expiresAt)
    (hsat : x.satisfies type = true) : (c.lookup key type now).1 = some x := by
  have hnot : x.isExpiredAt now = false := decide_eq_false (Nat.not_le.2 hlive)
  simp [lookup, hget, hnot, usable_of_satisfies hsat]

end Cache

namespace Request

theorem host_ne_empty {r : Request} (h : r.fault? = none) : r.host ≠ "" := by
  intro hempty
  simp [fault?, hempty, Text.allBlank] at h

theorem cacheKeyFor_ne_empty_of_host (r : Request) {host : String} (h : host ≠ "") :
    r.cacheKeyFor host ≠ "" := by
  unfold cacheKeyFor
  split
  · split
    · exact h
    · rename_i hnot
      exact fun hkey => hnot (by simp [hkey])
  · exact h

theorem cacheKeyFor_ne_empty {r : Request} (h : r.fault? = none) : r.cacheKeyFor r.host ≠ "" :=
  r.cacheKeyFor_ne_empty_of_host (host_ne_empty h)

end Request

namespace Job

variable {σ : Type}

/-! ## When a query asks the cache -/

section

variable (S : Services σ)

/-- Once the first queries could be prepared, preparation goes on with the others. -/
theorem prepare_append : ∀ (i : Nat) (seen : Option Stack) (qs : List Query) (w : σ),
    (prepare S i seen qs w).1.2 = true → ∃ seen', ∀ rest,
      prepare S i seen (qs ++ rest) w =
        let p := prepare S i seen qs w
        let r := prepare S (i + qs.length) seen' rest p.2.2
        ((p.1.1 ++ r.1.1, r.1.2), p.2.1 ++ r.2.1, r.2.2)
  | i, seen, [], w, _ => ⟨seen, fun rest => by simp [prepare]⟩
  | i, seen, q :: qs, w, h => by
    by_cases hq : q.state = .pending
    · rcases hs : assignServer S i q w with ⟨_ | q₁, es, u⟩
      · simp [prepare, hq, hs] at h
      · rw [prepare_served S hq hs] at h
        obtain ⟨seen', hrest⟩ := prepare_append (i + 1) _ qs _ h
        refine ⟨seen', fun rest => ?_⟩
        rw [List.cons_append, prepare_served S hq hs, prepare_served S hq hs]
        simp [hrest rest, Nat.add_assoc, Nat.add_comm 1]
    · have hrest : (prepare S (i + 1) seen qs w).1.2 = true := by simpa [prepare, hq] using h
      obtain ⟨seen', hrest⟩ := prepare_append (i + 1) seen qs w hrest
      refine ⟨seen', fun rest => ?_⟩
      simp [prepare, hq, hrest rest, Nat.add_assoc, Nat.add_comm 1]

/-- The state in which a pending query asks the cache as a run is prepared, if its type is settled:
the queries before it could be prepared, and it names a server or one is found. -/
inductive AsksIn (j : Job) (w : σ) (k : Nat) : σ → Prop
  | intro {q q₁ : Query} {es : List Event} {u : σ} (query : j.queries[k]? = some q)
      (pending : q.state = .pending)
      (reached : (prepare S 0 none (j.queries.take k) w).1.2 = true)
      (served : assignServer S k q (prepare S 0 none (j.queries.take k) w).2.2 = (some q₁, es, u)) :
      AsksIn j w k u

variable {S}

/-- What preparation makes of a query of a settled type is what its question to the cache makes of
it. -/
theorem AsksIn.prepared {j : Job} {w u : σ} {k : Nat} (h : AsksIn S j w k u) :
    ∃ q q₁, j.queries[k]? = some q ∧ q.state = .pending ∧ (∃ es, Served k q q₁ es)
      ∧ (q.request.queryType ≠ .auto →
        (prepare S 0 none j.queries w).1.1[k]? = some (probe S k q₁ u).1) := by
  cases h with
  | @intro q q₁ es _ hq hpend hreached hserved =>
    have hserves : Served k q q₁ es := by
      rcases assignServer_cases S k q (prepare S 0 none (j.queries.take k) w).2.2 with
        ⟨hnone, -⟩ | ⟨q', hsome, hserves⟩
      · rw [hserved] at hnone
        cases hnone
      · rw [hserved] at hsome hserves
        cases hsome
        exact hserves
    refine ⟨q, q₁, hq, hpend, ⟨es, hserves⟩, fun hne => ?_⟩
    obtain ⟨hk, hget⟩ := List.getElem?_eq_some_iff.1 hq
    have hlen : (j.queries.take k).length = k := List.length_take_of_le (Nat.le_of_lt hk)
    have hsplit : j.queries = j.queries.take k ++ q :: j.queries.drop (k + 1) := by
      rw [← hget, ← List.drop_eq_getElem_cons hk, List.take_append_drop]
    have htype : q₁.request.queryType ≠ .auto := by
      cases hserves <;> exact hne
    obtain ⟨seen, hrest⟩ := prepare_append S 0 none (j.queries.take k) w hreached
    have hfirst : (prepare S 0 none (j.queries.take k) w).1.1.length = k :=
      (prepare_passes S 0 none (j.queries.take k) w).length_eq.trans hlen
    rw [hsplit, hrest, hlen, Nat.zero_add]
    dsimp only
    rw [prepare_served S hpend hserved, List.getElem?_append_right (Nat.le_of_eq hfirst), hfirst,
      Nat.sub_self, assignType, if_neg htype]
    rfl

/-- A query that is completed as a run is prepared is left alone in its rounds. -/
theorem run_of_prepared {j : Job} {w : σ} {k : Nat} {q : Query}
    (hq : (prepare S 0 none j.queries w).1.1[k]? = some q) (hdone : q.state = .completed) :
    (run S j w).1.1.queries[k]? = some q ∧ roundsOf k (run S j w).2.1 = [] := by
  have hidle : q.isRunnable = false := by simp [Query.isRunnable, hdone]
  have hunsent := roundsOf_of_batches (batches_prepare S j.queries w) (k := k)
  have hrun := executes_run S j w
  generalize run S j w = out at hrun ⊢
  cases hrun with
  | refused => exact ⟨hq, hunsent⟩
  | settled hok hs =>
    have hkept := hs.kept hq hidle
    obtain ⟨-, hrounds, -⟩ := (hs.spends (equipped_firstRound hok) hq hkept).resting hidle
    refine ⟨?_, by rw [roundsOf_append, hunsent, hrounds]; rfl⟩
    rw [List.getElem?_map, hkept, Option.map_some, Query.sweep_of_completed hdone]

end

/-! ## When a result is cached -/

/-- What is cached for a query at the end of a round: its share, if it is answered and uses the
cache. -/
def Landing.cached (merged : List Resolution) (l : Landing) : List Resolution :=
  match l.outcome with
  | .idle | .failed _ => []
  | .answered _ answers =>
    if l.query.request.usingCache then share merged l.query answers else []

theorem Landing.mem_cached {merged : List Resolution} {l : Landing} {x : Resolution} :
    x ∈ l.cached merged ↔ l.query.request.usingCache = true
      ∧ ∃ out answers, l.outcome = .answered out answers ∧ x ∈ share merged l.query answers := by
  unfold cached
  cases l.outcome with
  | idle | failed => simp
  | answered out answers => simp

section

variable (S : Services σ) (settings : JobSettings)

/-- The services' state when the replies of a round have been read. -/
def Round.landedIn (r : Round σ) : σ :=
  (landAll S (r.seats S settings) (r.replies S settings) (r.exchanged S settings).2.2).2.2

/-- In a round a result is cached for the query at a position in this state of the services: the
queries before it have been handed their shares, and of its own share the results before this one
have been cached. -/
inductive Round.StoresIn (r : Round σ) (k : Nat) (x : Resolution) : σ → Prop
  | intro {l : Landing} {before rest : List Resolution}
      (landing : (r.landings S settings)[k]? = some l)
      (cached : l.cached (r.merged S settings) = before ++ x :: rest) :
      StoresIn r k x
        (storeAll S k before (deliverAll S (r.merged S settings)
          ((r.landings S settings).take k) (r.landedIn S settings)).2.2).2.2

variable {S settings}

/-- Whatever a run caches is cached in some state of one of its rounds. -/
theorem run_storesIn {j : Job} {w : σ} {k : Nat} {x : Resolution}
    (h : Event.stored k x ∈ (run S j w).2.1) :
    ∃ r u, InRun S j w r ∧ r.StoresIn S j.settings k x u := by
  obtain ⟨r, q, hshares, hcaching⟩ := run_stored h
  obtain ⟨a, hgives, hhost⟩ := hshares.given
  obtain ⟨l, hl, ha⟩ := hgives.landing
  obtain ⟨seat, hs⟩ := (r.landings_pass S j.settings).get_before hl
  have hboard := (r.seats_pass S j.settings).each hshares.query hs
  have hreturn := (r.landings_pass S j.settings).each hs hl
  rw [Nat.zero_add] at hboard hreturn
  obtain ⟨server, attempts, failed, hc⟩ := hboard.carry_eq
  cases ho : l.outcome with
  | idle | failed =>
    rw [Landing.answers, ho] at ha
    cases ha
  | answered out answers =>
    obtain ⟨-, hquery, -⟩ := answered_cases hboard hreturn ho
    have hcarry := hquery.trans hc
    have hanswers : a ∈ answers := by rwa [Landing.answers, ho] at ha
    have hmem : x ∈ share (r.merged S j.settings) l.query answers := by
      rw [Round.share_eq hcarry, hshares.eq_portion]
      refine List.mem_map_of_mem ((mem_shareHosts (List.mem_of_getElem? hl) ho).2 ?_)
      exact ⟨a, hanswers, hhost⟩
    have hcached : x ∈ l.cached (r.merged S j.settings) :=
      Landing.mem_cached.2 ⟨by rw [hcarry]; exact hcaching, out, answers, ho, hmem⟩
    obtain ⟨before, rest, hsplit⟩ := List.append_of_mem hcached
    exact ⟨r, _, hshares.inRun, .intro hl hsplit⟩

/-- The result that a round caches for a query is one of its results when the run ends. -/
theorem Round.StoresIn.reported {j : Job} {w u : σ} {r : Round σ} {k : Nat} {x : Resolution}
    (h : r.StoresIn S j.settings k x u) (hr : InRun S j w r) :
    ∃ q, (run S j w).1.1.queries[k]? = some q ∧ q.state = .completed ∧ x ∈ q.results := by
  cases h with
  | @intro l before rest hl hcached =>
    have hmem : x ∈ l.cached (r.merged S j.settings) := by simp [hcached]
    obtain ⟨-, out, answers, ho, hshare⟩ := Landing.mem_cached.1 hmem
    exact ⟨_, hr.completes hl ho, rfl, List.mem_append_right _ hshare⟩

end

/-! ## What is used again -/

variable {τ : Type}

section

variable {S : Services τ} {settings : JobSettings}

theorem Reaches.wellKept {r r' : Round (Cache × τ)} (h : Reaches S.withCache settings r r')
    (hr : r.world.1.WellKept) : r'.world.1.WellKept := by
  induction h with
  | refl => exact hr
  | @step r r' hsent _ ih => exact ih ((r.obeys S.withCache_follows settings).wellKept hr)

theorem Round.StoresIn.wellKept {j : Job} {c : Cache} {w : τ} {u : Cache × τ}
    {r : Round (Cache × τ)} {k : Nat} {x : Resolution}
    (h : r.StoresIn S.withCache j.settings k x u) (hr : InRun S.withCache j (c, w) r)
    (hc : c.WellKept) : u.1.WellKept := by
  have hprepared : (firstRound S.withCache j (c, w)).world.1.WellKept :=
    (prepare_follows S 0 none j.queries (c, w)).wellKept hc
  have hround := hr.reached.wellKept hprepared
  have hlaunched := (launch_obeys S.withCache_follows j.settings r.number r.queries).wellKept
    hround
  have hexchanged := (exchange_obeys S.withCache_follows r.number
    (r.seats S.withCache j.settings)).wellKept hlaunched
  have hlanded := (landAll_obeys S.withCache_follows (r.seats S.withCache j.settings)
    (r.replies S.withCache j.settings)).wellKept hexchanged
  cases h with
  | @intro l before =>
    exact (storeAll_obeys S.withCache_follows k before).wellKept
      ((deliverAll_obeys S.withCache_follows _
        ((r.landings S.withCache j.settings).take k)).wellKept hlanded)

end

/-- A single request that uses the cache, has this key for its host and asks for families that the
answer has. -/
structure Fits (ra : Request) (x : Resolution) : Prop where
  single : ra.usingMulti = false
  caching : ra.usingCache = true
  key : ra.cacheKeyFor ra.host = x.cacheKey
  concrete : ra.queryType ≠ .auto
  satisfied : x.satisfies ra.queryType = true

section

variable {S : Services τ} {settings : JobSettings} {rs : List (Request × Bool)} {j : Job}
  {es : List Event} {w u : Cache × τ} {k : Nat} {ra : Request × Bool} {x : Resolution}

/-- A query that asks the cache for what its live entry has is completed with the entry. -/
theorem probe_of_entry {q : Query} (huses : q.usesProbe = true)
    (hget : u.1.entries.get? q.ownKey = some x) (hlive : S.instant u.2 < x.expiresAt)
    (hsat : x.satisfies q.queryType = true) :
    (probe S.withCache k q u).1 = q.complete [{ x with hitCache := true }] := by
  have hfound : (S.withCache.lookup q.ownKey q.queryType u).1 = some x :=
    Cache.lookup_of_satisfies hget hlive hsat
  unfold probe
  rw [if_pos huses]
  simp [hfound, Resolution.missing_eq_none_iff.2 hsat]

/-- A query that asks the cache while an answer that fits its request is the live entry of its key
gets the answer. -/
theorem AsksIn.hits (life : Life S.withCache settings rs j es w) (hra : rs[k]? = some ra)
    (hfits : Fits ra.1 x) (h : AsksIn S.withCache j w k u)
    (hget : u.1.entries.get? x.cacheKey = some x) (hlive : S.instant u.2 < x.expiresAt) :
    ∃ q, (prepare S.withCache 0 none j.queries w).1.1[k]? = some q ∧ q.state = .completed
      ∧ q.results = [{ x with hitCache := true }] := by
  obtain ⟨q, q₁, hq, hpend, ⟨gs, hserved⟩, hprepared⟩ := h.prepared
  have hrooted := life.rooted.each hra hq
  have hnil := ((life.sound.each hra hq).pending hpend).1
  obtain ⟨hauto, hcovers⟩ := hrooted.narrows hfits.concrete
  have hsame : q₁.usesProbe = q.usesProbe ∧ q₁.ownKey = q.ownKey ∧ q₁.queryType = q.queryType := by
    cases hserved <;> exact ⟨rfl, rfl, rfl⟩
  have huses : q₁.usesProbe = true := by
    rw [hsame.1, hrooted.stems.usesProbe_eq, hfits.caching, hfits.single]
    rfl
  have hown : q₁.ownKey = x.cacheKey :=
    hsame.2.1.trans (hrooted.stems.ownKey_eq.trans hfits.key)
  have hsat : x.satisfies q₁.queryType = true := by
    rw [hsame.2.2]
    exact hcovers x hfits.satisfied
  have hprobe : (probe S.withCache k q₁ u).1 = q₁.complete [{ x with hitCache := true }] :=
    probe_of_entry huses (hown ▸ hget) hlive hsat
  refine ⟨_, hprepared hauto, ?_, ?_⟩
  · rw [hprobe]
    rfl
  · rw [hprobe, Query.complete, hserved.results_eq, hnil]
    rfl

end

section

variable {τ' : Type} {S : Services τ} {S' : Services τ'} {settings' : JobSettings}
  {rs' : List (Request × Bool)} {j j' : Job} {es' : List Event} {c : Cache} {w : τ}
  {w' : Cache × τ'} {r : Round (Cache × τ)} {i k : Nat} {x : Resolution} {u : Cache × τ}
  {u' : Cache × τ'} {ops : List Cache.Op} {ra : Request × Bool}

/-- A run caches a result under a key that has no live entry then. In a later run, over the cache as
operations on other keys have left it, a request that the result fits is completed with it, without
an exchange. -/
theorem run_reuses (hc : c.WellKept) (hr : InRun S.withCache j (c, w) r)
    (hstores : r.StoresIn S.withCache j.settings i x u)
    (hvacant : u.1.Vacant x.cacheKey x.learnedAt)
    (hops : ∀ op ∈ ops, ¬ op.IsOn x.cacheKey)
    (life : Life S'.withCache settings' rs' j' es' w') (hra : rs'[k]? = some ra)
    (hfits : Fits ra.1 x) (hasks : AsksIn S'.withCache j' w' k u')
    (hcache : u'.1 = ops.foldl Cache.apply (S.withCache.store x u).1)
    (hlive : S'.instant u'.2 < x.expiresAt) :
    (∃ q, (run S.withCache j (c, w)).1.1.queries[i]? = some q ∧ q.state = .completed
        ∧ x ∈ q.results)
      ∧ ∃ q, (run S'.withCache j' w').1.1.queries[k]? = some q ∧ q.state = .completed
        ∧ q.results = [{ x with hitCache := true }]
        ∧ roundsOf k (run S'.withCache j' w').2.1 = [] := by
  refine ⟨hstores.reported hr, ?_⟩
  have hkept := hstores.wellKept hr hc
  have hkey : x.cacheKey ≠ "" := by
    rw [← hfits.key]
    exact Request.cacheKeyFor_ne_empty (life.accepted ra (List.mem_of_getElem? hra))
  have hget : u'.1.entries.get? x.cacheKey = some x := by
    have hstore : (S.withCache.store x u).1 = u.1.apply (.update x) := rfl
    rw [hcache, hstore, Cache.get?_foldl_of_not_isOn hops (hkept.apply (.update x))]
    exact Cache.get?_update_of_vacant hvacant hkey
  obtain ⟨q, hq, hdone, hresults⟩ := hasks.hits life hra hfits hget hlive
  obtain ⟨hfinal, hunsent⟩ := run_of_prepared hq hdone
  exact ⟨q, hfinal, hdone, hresults, hunsent⟩

end

/-- A server that answers for two hosts. -/
def batching : Services Unit :=
  { Services.steady (fun _ => none) (fun _ => .ok ⟨statusOk, "", 8⟩) fun _ => none with
    readMulti := fun _ w =>
      ([{ host := "a.com", ips := ["192.0.2.1"], ttl := 60 },
        { host := "b.com", ips := ["192.0.2.2"], ttl := 60 }], w) }

def askBatch : Request :=
  { host := "a.com,b.com", accountId := "100000", resolver := some "203.0.113.1", queryType := .a
    usingMulti := true }

def batchJob : Job :=
  holding ⟨1, "", "", 0⟩ [(askBatch, true)]

/-- What the second host of a batch was answered is told again, a millisecond before it expires, to
a single request whose server never replies. -/
theorem run_reuses_batched :
    let r := firstRound batching.withCache batchJob ({}, ())
    let x : Resolution :=
      { host := "b.com", cacheKey := "b.com", ips := [⟨"192.0.2.2", none⟩], ttl := 60 }
    let late : Services Unit := { Services.unheard (fun _ => none) with instant := fun _ => 59999 }
    let ask : Request :=
      { host := "b.com", accountId := "100000", resolver := some "203.0.113.1", queryType := .a }
    let j := holding ⟨1, "", "", 0⟩ [(ask, true)]
    ∃ u : Cache × Unit,
      let w' : Cache × Unit := ((u.1.update x).rotate "a.com", ())
      (InRun batching.withCache batchJob ({}, ()) r
          ∧ r.StoresIn batching.withCache batchJob.settings 0 x u
          ∧ u.1.Vacant x.cacheKey x.learnedAt ∧ Fits ask x ∧ AsksIn late.withCache j w' 0 w'
          ∧ late.instant w'.2 < x.expiresAt)
        ∧ ∃ q, (run late.withCache j w').1.1.queries[0]? = some q ∧ q.state = .completed
          ∧ q.results = [{ x with hitCache := true }]
          ∧ roundsOf 0 (run late.withCache j w').2.1 = [] := by
  intro r x late ask j
  have hr : InRun batching.withCache batchJob ({}, ()) r :=
    ⟨by decide +kernel, .refl r, by
      show manifest _ ≠ []
      decide +kernel⟩
  let first : Resolution :=
    { host := "a.com", cacheKey := "a.com", ips := [⟨"192.0.2.1", none⟩], ttl := 60 }
  have hcached : (r.landings batching.withCache batchJob.settings)[0]?.map
      (Landing.cached (r.merged batching.withCache batchJob.settings)) = some ([first] ++ [x]) := by
    decide +kernel
  obtain ⟨l, hl, hshare⟩ := Option.map_eq_some_iff.1 hcached
  have hstores := Round.StoresIn.intro hl hshare
  have hnone : (storeAll batching.withCache 0 [first] (deliverAll batching.withCache
      (r.merged batching.withCache batchJob.settings)
      ((r.landings batching.withCache batchJob.settings).take 0)
      (r.landedIn batching.withCache batchJob.settings)).2.2).2.2.1.entries.get? "b.com"
        = none := by
    decide +kernel
  generalize (storeAll batching.withCache 0 [first] _).2.2 = u at hstores hnone
  have hvacant : u.1.Vacant x.cacheKey x.learnedAt := fun e he => by
    rw [hnone] at he
    cases he
  have hops : ∀ op ∈ [Cache.Op.rotate "a.com"], ¬ op.IsOn x.cacheKey := by
    simp [Cache.Op.IsOn, x]
  have hfits : Fits ask x := ⟨rfl, rfl, by decide, by decide, by decide⟩
  have hasks : ∀ w', AsksIn late.withCache j w' 0 w' := fun _ => .intro rfl rfl rfl rfl
  have hlive : 59999 < x.expiresAt := by decide
  have hempty : ({} : Cache).WellKept := Cache.run_wellKept []
  exact ⟨u, ⟨hr, hstores, hvacant, hfits, hasks _, hlive⟩,
    (run_reuses hempty hr hstores hvacant hops (.holding (by decide) _) rfl hfits (hasks _) rfl
      hlive).2⟩

end Job

end HttpDns
