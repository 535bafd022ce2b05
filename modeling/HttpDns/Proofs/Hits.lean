import HttpDns.Proofs.Reuse
import HttpDns.Proofs.Tokens

/-!
# What the cache answers

A pending query asks the cache once as a run is prepared, with a server and a settled type by then
(`asking`). It is completed from the cache exactly if its request is a single one that uses the
cache and the entry under its key is live then and has all that it asks for; its only result is that
entry, and nothing is sent for it (`run_hits`).

What it asks for is what its request asks for, unless an earlier run has found one family of two in
the cache and was refused: the query then asks for the other family alone. Where the entry holds
that one and has lost the one found before, a request for both is so completed with half of what it
asks for (`half_completes_both`).
-/

namespace HttpDns

namespace Job

/-! ## What the cache has -/

section

variable {τ : Type}

/-- For a request of this type the cache has all that it takes as the services stand: the request is
a single one that uses the cache, and the entry under its key is live and has all families of the
type. -/
structure Suffices (S : Services τ) (u : Cache × τ) (r : Request) (type : QueryType)
    (x : Resolution) : Prop where
  single : r.usingMulti = false
  caching : r.usingCache = true
  entry : u.1.entries.get? (r.cacheKeyFor r.host) = some x
  live : S.instant u.2 < x.expiresAt
  whole : x.satisfies type = true

variable {S : Services τ} {u : Cache × τ} {k : Nat} {q : Query} {r : Request} {x : Resolution}
  {type : QueryType}

theorem suffices_of_stems (hq : q.Stems r) :
    Suffices S u q.request type x ↔ Suffices S u r type x := by
  obtain ⟨server, asked, heq⟩ := hq
  rw [heq]
  exact ⟨fun ⟨h, h', hget, hlive, hsat⟩ => ⟨h, h', hget, hlive, hsat⟩,
    fun ⟨h, h', hget, hlive, hsat⟩ => ⟨h, h', hget, hlive, hsat⟩⟩

/-- There is but one entry under the key. -/
theorem Suffices.unique {type' : QueryType} {y : Resolution} (h : Suffices S u r type x)
    (h' : Suffices S u r type' y) : x = y :=
  Option.some.inj (h.entry.symm.trans h'.entry)

theorem Suffices.probed (h : Suffices S u q.request q.queryType x) :
    (probe S.withCache k q u).1 = q.complete [{ x with hitCache := true }] := by
  have huses : q.usesProbe = true := by rw [Query.usesProbe, h.caching, h.single]; rfl
  exact probe_of_entry huses h.entry h.live h.whole

/-- A query for which the cache does not have all that it takes goes into the rounds. -/
theorem probe_of_insufficient (h : ∀ x, ¬ Suffices S u q.request q.queryType x) :
    (probe S.withCache k q u).1.state = q.state
      ∧ (probe S.withCache k q u).1.results = q.results := by
  unfold probe
  split
  · rename_i huses
    rw [Query.usesProbe, Bool.and_eq_true, Bool.not_eq_true'] at huses
    cases hl : (S.withCache.lookup q.ownKey q.queryType u).1 with
    | none => simp [hl]
    | some x =>
      cases hm : x.missing q.queryType with
      | none =>
        obtain ⟨hget, hlive⟩ := Cache.lookup_eq_some hl
        exact absurd ⟨huses.2, huses.1, hget, hlive, Resolution.missing_eq_none_iff.1 hm⟩ (h x)
      | some type => simp [hl, hm]
  · exact ⟨rfl, rfl⟩

end

/-! ## What the rounds bring -/

section

variable {σ : Type} {S : Services σ} {settings : JobSettings} {rs : List (Request × Bool)}
  {j : Job} {es : List Event} {w : σ} {k : Nat} {e : Event}

/-- The rounds of a run bring a query no results from the cache. -/
theorem unhit_of_prepared {q : Query} (hq : (prepare S 0 none j.queries w).1.1[k]? = some q)
    (hnil : q.results = []) :
    ∃ q', (run S j w).1.1.queries[k]? = some q' ∧ ∀ x ∈ q'.results, x.hitCache = false := by
  have hrun := executes_run S j w
  generalize run S j w = out at hrun ⊢
  cases hrun with
  | refused => exact ⟨q, hq, by simp [hnil]⟩
  | settled _ hs =>
    obtain ⟨q', hq'⟩ := hs.passes.get_after hq
    refine ⟨q'.sweep, by rw [List.getElem?_map, hq']; rfl, fun x hx => ?_⟩
    rw [Query.results_sweep] at hx
    cases hs.fares hq hq' with
    | carried _ _ _ hquery =>
      rw [hquery, Query.results_carry, hnil] at hx
      cases hx
    | answered _ _ _ _ _ _ hosts hanswered =>
      rw [hanswered.results, Query.results_carry, hnil, List.nil_append] at hx
      obtain ⟨host, -, rfl⟩ := List.mem_map.1 hx
      rfl

/-- A run makes calls on the cache only for requests that use it, and for a batched one only those
that cache results. -/
theorem run_calls_at (life : Life S settings rs j es w) (he : e ∈ about k (run S j w).2.1)
    (hkey : e.key? ≠ none) : ∃ ra, rs[k]? = some ra ∧ ra.1.usingCache = true
      ∧ (ra.1.usingMulti = true → ∃ x, e = .stored k x) := by
  obtain ⟨key, hkey⟩ := Option.ne_none_iff_exists'.1 hkey
  have hquery : e.query? = some k := of_decide_eq_true (List.mem_filter.1 he).2
  rcases run_calls (mem_of_mem_about he) hkey with hprepare | ⟨k', x, r, q, rfl, hshares, hcaching⟩
  · obtain ⟨ra, hra, hsingle, hcaching, -⟩ := prepare_key_at life (mem_about hprepare hquery) hkey
    exact ⟨ra, hra, hcaching, fun hmulti => absurd (hsingle.symm.trans hmulti) (by decide)⟩
  · obtain rfl : k' = k := Option.some.inj hquery
    obtain ⟨ra, hra, hrooted⟩ := hshares.inRun.rooted life hshares.query hshares.pending
    exact ⟨ra, hra, hrooted.stems.usingCache_eq.symm.trans hcaching, fun _ => ⟨x, rfl⟩⟩

end

/-! ## What is asked for -/

/-- What is left of a type when one family is found is what has the other one. -/
theorem SentWith.covers {own sent : QueryType} {found : List Resolution}
    (h : SentWith own found sent) : own.Covers sent := by
  intro x hx
  cases h with
  | own => exact hx
  | @missing hboth p f =>
    subst hboth
    exact Resolution.satisfies_asked_iff.2 ((Resolution.satisfies_both_iff f).1 hx).2

/-- What has all that a query is sent with has all that its request asks for, unless it holds just
the other family than a part that was found before. -/
theorem SentWith.satisfies_iff {own sent : QueryType} {found : List Resolution}
    (h : SentWith own found sent) {x : Resolution} (hsat : x.satisfies sent = true) :
    x.satisfies own = true ↔ ¬ ∃ p ∈ found, ∃ f : Family, p.Half f ∧ x.Half f.other := by
  cases h with
  | own => simpa using hsat
  | @missing hboth p f half =>
    subst hboth
    have hother : f.other.kept x ≠ [] := Resolution.satisfies_asked_iff.1 hsat
    rw [Resolution.satisfies_both_iff f]
    constructor
    · rintro ⟨hkept, -⟩ ⟨p', hp', f', half', hx⟩
      obtain rfl := List.mem_singleton.1 hp'
      obtain rfl : f' = f := half'.unique half
      exact hkept (f'.other_other ▸ hx.lacks)
    · intro hnone
      refine ⟨fun hlacks => hnone ⟨p, List.mem_singleton_self p, f, half, hother, ?_⟩, hother⟩
      rw [f.other_other]
      exact hlacks

variable {τ : Type}

/-- What its request asks for decides whether the cache suffices for what a query is sent with,
unless the entry holds just the other family than a part that was found before. -/
theorem SentWith.suffices_iff {own sent : QueryType} {found : List Resolution}
    (h : SentWith own found sent) {S : Services τ} {u : Cache × τ} {r : Request} :
    ((∃ x, Suffices S u r sent x) ↔ ∃ x, Suffices S u r own x)
      ↔ ¬ ∃ p ∈ found, ∃ (f : Family) (x : Resolution), p.Half f ∧ x.Half f.other
        ∧ Suffices S u r sent x := by
  constructor
  · rintro hiff ⟨p, hp, f, x, hhalf, hx, hsent⟩
    obtain ⟨y, hown⟩ := hiff.1 ⟨x, hsent⟩
    obtain rfl := hsent.unique hown
    exact (h.satisfies_iff hsent.whole).1 hown.whole ⟨p, hp, f, hhalf, hx⟩
  · intro hnone
    constructor
    · rintro ⟨x, hsent⟩
      refine ⟨x, hsent.single, hsent.caching, hsent.entry, hsent.live, ?_⟩
      refine (h.satisfies_iff hsent.whole).2 ?_
      rintro ⟨p, hp, f, hhalf, hx⟩
      exact hnone ⟨p, hp, f, x, hhalf, hx, hsent⟩
    · rintro ⟨x, hown⟩
      exact ⟨x, hown.single, hown.caching, hown.entry, hown.live, h.covers x hown.whole⟩

/-! ## Over a run -/

/-- The calls on the cache that are made for a request: none if it does not use the cache, and if it
is a batched one only those that cache its results. -/
structure KeepsOff (r : Request) (k : Nat) (es : List Event) : Prop where
  uncached : r.usingCache = false → ∀ e ∈ es, e.key? = none
  batched : r.usingMulti = true → ∀ e ∈ es, e.key? ≠ none → ∃ x, e = .stored k x

/-- How a query that is pending before a run, with some events before it, fares with the cache: it
asks it in this form, as the services stand so, and is left by the run in the other one. -/
structure Consults (S : Services τ) (j : Job) (es : List Event) (w : Cache × τ) (k : Nat)
    (r : Request) (q : Query) (u : Cache × τ) (q' : Query) : Prop where
  asked : asking S.withCache 0 none j.queries k w = some (q, u)
  left : (run S.withCache j w).1.1.queries[k]? = some q'
  stems : q.Stems r
  concrete : q.request.queryType ≠ .auto
  named : r.queryType ≠ .auto → q.request.queryType = r.queryType
  sent : SentWith q.request.queryType (halvesFound (about k es)) q.queryType
  /-- it is completed from the cache exactly if this has all that it asks for -/
  hit_iff : q'.FromCache ↔ ∃ x, Suffices S u r q.queryType x
  hit : ∀ x, Suffices S u r q.queryType x → q'.results = [{ x with hitCache := true }]
    ∧ roundsOf k (es ++ (run S.withCache j w).2.1) = []
  /-- it is so for all that its request asks for, unless the entry holds just the other family than
  a part that was found before -/
  whole_iff : (q'.FromCache ↔ ∃ x, Suffices S u r q.request.queryType x)
    ↔ ¬ ∃ p ∈ halvesFound (about k es), ∃ (f : Family) (x : Resolution), p.Half f ∧ x.Half f.other
      ∧ Suffices S u r q.queryType x

section

variable {S : Services τ} {settings : JobSettings} {rs : List (Request × Bool)} {j : Job}
  {es : List Event} {w u : Cache × τ} {k : Nat} {q : Query} {x : Resolution}

/-- A query that has asked the cache is completed from it exactly if this suffices; the entry is its
only result then, and it is not sent. -/
theorem run_of_asked (hnil : q.results = [])
    (hq : (prepare S.withCache 0 none j.queries w).1.1[k]? = some (probe S.withCache k q u).1) :
    ∃ q', (run S.withCache j w).1.1.queries[k]? = some q'
      ∧ (q'.FromCache ↔ ∃ x, Suffices S u q.request q.queryType x)
      ∧ ∀ x, Suffices S u q.request q.queryType x → q'.results = [{ x with hitCache := true }]
        ∧ roundsOf k (run S.withCache j w).2.1 = [] := by
  by_cases hex : ∃ x, Suffices S u q.request q.queryType x
  · obtain ⟨x, hx⟩ := hex
    rw [hx.probed] at hq
    obtain ⟨hleft, hunsent⟩ := run_of_prepared hq rfl
    have hresults : (q.complete [{ x with hitCache := true }]).results
        = [{ x with hitCache := true }] := by rw [Query.complete, hnil]; rfl
    have hfrom : (q.complete [{ x with hitCache := true }]).FromCache :=
      ⟨rfl, { x with hitCache := true }, by rw [hresults]; exact List.mem_singleton_self _, rfl⟩
    refine ⟨_, hleft, iff_of_true hfrom ⟨x, hx⟩, fun y hy => ?_⟩
    obtain rfl := hx.unique hy
    exact ⟨hresults, hunsent⟩
  · have hnone : ∀ x, ¬ Suffices S u q.request q.queryType x := fun x hx => hex ⟨x, hx⟩
    obtain ⟨q', hleft, hfresh⟩ :=
      unhit_of_prepared hq ((probe_of_insufficient hnone).2.trans hnil)
    refine ⟨q', hleft, iff_of_false ?_ hex, fun x hx => absurd ⟨x, hx⟩ hex⟩
    rintro ⟨-, x, hx, hhit⟩
    rw [hfresh x hx] at hhit
    cases hhit

theorem Life.consults (life : Life S.withCache settings rs j es w)
    (hok : (run S.withCache j w).1.2 = .ok ()) {q₀ : Query} (hq₀ : j.queries[k]? = some q₀)
    (hpend : q₀.state = .pending) :
    ∃ ra q u q', rs[k]? = some ra ∧ Consults S j es w k ra.1 q u q' := by
  have hprepared : (prepare S.withCache 0 none j.queries w).1.2 = true := by
    have hrun := executes_run S.withCache j w
    generalize run S.withCache j w = out at hrun hok
    cases hrun with
    | refused => cases hok
    | settled h => exact h
  obtain ⟨q₁, q, gs, u, hasking, hserved, htyped, hget⟩ :=
    prepare_asking S.withCache 0 none j.queries w hprepared hq₀ hpend
  rw [Nat.zero_add] at hserved hget
  obtain ⟨ra, hra⟩ := life.rooted.get_before hq₀
  have hstems : q.Stems ra.1 := by
    refine (life.rooted.each hra hq₀).stems.trans ?_
    cases hserved <;> cases htyped <;> exact ⟨_, _, rfl⟩
  have hnil : q.results = [] := by
    rw [(hserved.readies htyped).results]
    exact ((life.sound.each hra hq₀).pending hpend).1
  have hnamed : ra.1.queryType ≠ .auto → q.request.queryType = ra.1.queryType := by
    intro hne
    have hsame : q₁.request.queryType = ra.1.queryType :=
      hserved.queryType_eq.trans (life.named.each hra hq₀ hne)
    cases htyped with
    | given => exact hsame
    | settled hauto => exact absurd (hsame.symm.trans hauto) hne
  obtain ⟨haimed, hconcrete⟩ := (life.aimed.each hra hq₀).settled hserved htyped
  have hsent : SentWith q.request.queryType (halvesFound (about k es)) q.queryType := by
    have hgs : halvesFound gs = [] := by cases hserved <;> rfl
    rw [Nat.zero_add] at haimed
    rwa [Aimed, halvesFound_append, hgs, List.append_nil] at haimed
  obtain ⟨q', hleft, hiff, hhit⟩ := run_of_asked hnil hget
  simp only [suffices_of_stems hstems] at hiff hhit
  refine ⟨ra, q, u, q', hra, hasking, hleft, hstems, hconcrete, hnamed, hsent, hiff, fun x hx => ?_,
    by rw [hiff]; exact hsent.suffices_iff⟩
  obtain ⟨hresults, hunsent⟩ := hhit x hx
  rw [roundsOf_append, (life.untried.full hq₀ hpend).2, hunsent]
  exact ⟨hresults, rfl⟩

theorem Life.keepsOff (life : Life S.withCache settings rs j es w) {ra : Request × Bool}
    (hra : rs[k]? = some ra) : KeepsOff ra.1 k (about k (run S.withCache j w).2.1) := by
  refine ⟨fun hoff e he => ?_, fun hmulti e he hkey => ?_⟩
  · by_contra hkey
    obtain ⟨ra', hra', hcaching, -⟩ := run_calls_at life he hkey
    obtain rfl := Option.some.inj (hra.symm.trans hra')
    exact absurd (hoff.symm.trans hcaching) (by decide)
  · obtain ⟨ra', hra', -, hstores⟩ := run_calls_at life he hkey
    obtain rfl := Option.some.inj (hra.symm.trans hra')
    exact hstores hmulti

/-- What a run tells of its cache is all that is done to it, and requests that do not use the cache
keep off it, as batched ones do but for caching their results. Where the run is not refused, each
query that is pending before it is completed from the cache exactly if this has all that the query
asks for by then. -/
theorem run_hits (life : Life S.withCache settings rs j es w) :
    Follows w.1 (run S.withCache j w).2.1 (run S.withCache j w).2.2.1
      ∧ (∀ {k ra}, rs[k]? = some ra → KeepsOff ra.1 k (about k (run S.withCache j w).2.1))
      ∧ ((run S.withCache j w).1.2 = .ok () → ∀ {k q₀}, j.queries[k]? = some q₀ →
        q₀.state = .pending →
          ∃ ra q u q', rs[k]? = some ra ∧ Consults S j es w k ra.1 q u q') :=
  ⟨run_follows S j w.1 w.2, fun hra => life.keepsOff hra,
    fun hok _ _ hq₀ hpend => life.consults hok hq₀ hpend⟩

end

/-! ## A request for both families that is run again -/

/-- A server that gives an IPv4 address of another host. -/
def elsewhere : Services (Pool × Unit) :=
  (Services.steady (fun _ => none) (fun _ => .ok ⟨statusOk, "", 8⟩) fun _ =>
    some { host := "b.com", ips := ["192.0.2.2"], ttl := 60 }).withPool

/-- The job is refused over a cached IPv4 address, as there is no server for the other host. -/
def refusedRun : (Job × Except Error Unit) × List Event × Cache × Pool × Unit :=
  run elsewhere.withCache (holding ⟨1, "", "", 0⟩ bothAndOther) (halfCache, {}, ())

/-- There is a server by the time the job is run again, over this cache. -/
def later (c : Cache) : Cache × Pool × Unit :=
  (c, { ipv4 := [⟨"203.0.113.2", none⟩] }, ())

theorem life_refused (c : Cache) :
    Life elsewhere.withCache ⟨1, "", "", 0⟩ bothAndOther refusedRun.1.1 refusedRun.2.1 (later c) :=
  ((Life.holding (by decide) (halfCache, {}, ())).ran).waited (later c)

def cachedBoth : Resolution :=
  { cachedHalf with ipsv6 := [⟨"2001:db8::1", none⟩] }

/-- The first query as the refused run has left it. -/
def narrowedQuery : Query :=
  { Query.ofRequest askBoth true 2 with queryType := .aaaa, partialHit := some cachedHalf }

/-- With both families cached by then, the request for them is completed from the cache, and the
other one is sent. -/
theorem run_hits_again :
    let w := later (Cache.run [.update cachedBoth])
    let out := run elsewhere.withCache refusedRun.1.1 w
    (Life elsewhere.withCache ⟨1, "", "", 0⟩ bothAndOther refusedRun.1.1 refusedRun.2.1 w
        ∧ out.1.2 = .ok () ∧ refusedRun.1.1.queries[0]? = some narrowedQuery
        ∧ narrowedQuery.state = .pending)
      ∧ (∃ q u q', Consults elsewhere refusedRun.1.1 refusedRun.2.1 w 0 askBoth q u q'
        ∧ q'.FromCache)
      ∧ out.1.1.queries.map (·.results) = [[{ cachedBoth with hitCache := true }],
        [{ host := "b.com", cacheKey := "b.com", ips := [⟨"192.0.2.2", none⟩], ttl := 60 }]] := by
  intro w out
  have life := life_refused (Cache.run [.update cachedBoth])
  have hok : out.1.2 = .ok () := by rfl
  have hquery : refusedRun.1.1.queries[0]? = some narrowedQuery := by decide +kernel
  have hresults : out.1.1.queries.map (·.results) = [[{ cachedBoth with hitCache := true }],
      [{ host := "b.com", cacheKey := "b.com", ips := [⟨"192.0.2.2", none⟩], ttl := 60 }]] := by
    decide +kernel
  have hleft : out.1.1.queries[0]?
      = some (narrowedQuery.complete [{ cachedBoth with hitCache := true }]) := by decide +kernel
  obtain ⟨-, -, hconsults⟩ := run_hits life
  obtain ⟨ra, q, u, q', hra, h⟩ := hconsults hok hquery rfl
  obtain rfl : (askBoth, true) = ra := Option.some.inj hra
  obtain rfl := Option.some.inj (hleft.symm.trans h.left)
  have hfrom : (narrowedQuery.complete [{ cachedBoth with hitCache := true }]).FromCache :=
    ⟨rfl, { cachedBoth with hitCache := true }, by decide, rfl⟩
  exact ⟨⟨life, hok, hquery, rfl⟩, ⟨q, u, _, h, hfrom⟩, hresults⟩

def cachedOther : Resolution :=
  { cachedHalf with ips := [], ipsv6 := [⟨"2001:db8::1", none⟩] }

/-- With the other family cached alone by then, the request for both is completed from the cache. -/
theorem half_completes_both :
    let w := later (Cache.run [.update cachedOther])
    let out := run elsewhere.withCache refusedRun.1.1 w
    ∃ q', Life elsewhere.withCache ⟨1, "", "", 0⟩ bothAndOther refusedRun.1.1 refusedRun.2.1 w
      ∧ out.1.2 = .ok () ∧ refusedRun.1.1.queries[0]? = some narrowedQuery
      ∧ narrowedQuery.state = .pending ∧ narrowedQuery.request.queryType = .both
      ∧ asking elsewhere.withCache 0 none refusedRun.1.1.queries 0 w = some (narrowedQuery, w)
      ∧ out.1.1.queries[0]? = some q'
      ∧ ¬ (q'.FromCache ↔ ∃ x, Suffices elsewhere w askBoth .both x) := by
  intro w out
  have hleft : out.1.1.queries[0]?
      = some (narrowedQuery.complete [{ cachedOther with hitCache := true }]) := by decide +kernel
  refine ⟨_, life_refused _, by rfl, by decide +kernel, rfl, rfl, by decide +kernel, hleft,
    fun hiff => ?_⟩
  obtain ⟨x, hx⟩ := hiff.1 ⟨rfl, { cachedOther with hitCache := true }, by decide, rfl⟩
  have hentry : w.1.entries.get? (askBoth.cacheKeyFor askBoth.host) = some cachedOther := by
    decide +kernel
  obtain rfl : x = cachedOther := Option.some.inj (hx.entry.symm.trans hentry)
  exact absurd hx.whole (by decide)

end Job

end HttpDns
