import HttpDns.Proofs.Asking
import HttpDns.Proofs.Isolation

/-!
# The hosts that replies name

Nothing compares the host of an answer with the hosts that were asked for. A run reports and caches
results for the hosts that the replies to its exchanges name, and under their keys; every other key
keeps its entry, but for what a look-up of the run itself does to it (`run_confined`). A reply that
names another host so reaches the entry of a host that nobody asked for (`stored_unasked`), while
replies that keep to the hosts asked for leave all others alone.
-/

namespace HttpDns.Job

/-! ## The keys that are looked up -/

section

variable {σ : Type} {S : Services σ} {i : Nat} {q q' : Query} {es : List Event} {e : Event}
  {key : String}

/-- The requests of a job look up no keys but their own. -/
theorem prepare_key_at {settings : JobSettings} {rs : List (Request × Bool)} {j : Job} {w : σ}
    {k : Nat} (life : Life S settings rs j es w)
    (he : e ∈ about k (prepare S 0 none j.queries w).2.1) (hkey : e.key? = some key) :
    ∃ ra, rs[k]? = some ra ∧ ra.1.usingMulti = false ∧ ra.1.usingCache = true
      ∧ key = ra.1.cacheKeyFor ra.1.host := by
  obtain ⟨q, q', hq, -, hprepared⟩ := prepared_of_call he hkey
  obtain ⟨ra, hra⟩ := life.rooted.get_before hq
  have hstems := (life.rooted.each hra hq).stems
  obtain ⟨huses, rfl⟩ := hprepared.key_eq he hkey
  obtain ⟨hsingle, hcaching⟩ := hstems.of_usesProbe huses
  exact ⟨ra, hra, hsingle, hcaching, hstems.ownKey_eq⟩

theorem prepare_key_eq {settings : JobSettings} {rs : List (Request × Bool)} {j : Job} {w : σ}
    (life : Life S settings rs j es w) (he : e ∈ (prepare S 0 none j.queries w).2.1)
    (hkey : e.key? = some key) : ∃ ra ∈ rs, ra.1.usingMulti = false ∧ ra.1.usingCache = true
      ∧ key = ra.1.cacheKeyFor ra.1.host := by
  obtain ⟨k, hcall⟩ := mem_calls he hkey
  obtain ⟨ra, hra, hown⟩ := prepare_key_at life (List.mem_filter.1 hcall).1 hkey
  exact ⟨ra, List.mem_of_getElem? hra, hown⟩

end

/-! ## Named hosts -/

section

variable {σ : Type} (S : Services σ) (settings : JobSettings)

/-- The reply to the exchange of the query at a position has an answer with an address for a
host. -/
def Round.Names (r : Round σ) (k : Nat) (host : String) : Prop :=
  ∃ a, r.Gives S settings k a ∧ a.host = host

/-- The result of a request is for a host that the reply to its own exchange names, under the key
the request has for that host. -/
def Named (rs : List (Request × Bool)) (j : Job) (w : σ) (k : Nat) (x : Resolution) : Prop :=
  ∃ r ra, InRun S j w r ∧ rs[k]? = some ra ∧ r.Names S j.settings k x.host
    ∧ x.cacheKey = ra.1.cacheKeyFor x.host

/-- A key is reached by the replies of a run: it is one that a request has for a host named by the
reply to its exchange. -/
def Reached (rs : List (Request × Bool)) (j : Job) (w : σ) (key : String) : Prop :=
  ∃ r k ra host, InRun S j w r ∧ rs[k]? = some ra ∧ r.Names S j.settings k host
    ∧ ra.1.cacheKeyFor host = key

/-- Every reply of a run names hosts of its own request only. -/
def KeepsToHosts (rs : List (Request × Bool)) (j : Job) (w : σ) : Prop :=
  ∀ r, InRun S j w r → ∀ k ra host, rs[k]? = some ra → r.Names S j.settings k host →
    host ∈ ra.1.hosts

end

variable {τ : Type}

section

variable (S : Services (Cache × τ)) (rs : List (Request × Bool)) (j : Job) (c : Cache) (w : τ)

/-- The cache after a run. -/
def cacheAfter : Cache := (run S j (c, w)).2.2.1

/-- What the replies of a run decide: results and keys are of hosts that they name, where a single
answer without a host is for the request's, and the entry of a key they do not reach stays, at most
advanced by look-ups of the run, or dropped by one that found it expired, and just as it was if no
request has the key for its own. -/
structure NamesOnly : Prop where
  single : ∀ {r : Round (Cache × τ)} {k : Nat} {ra : Request × Bool} {host : String},
    InRun S j (c, w) r → rs[k]? = some ra → ra.1.usingMulti = false →
    r.Names S j.settings k host → ∃ e response u a,
      ((k, e), .ok response) ∈ r.traffic S j.settings ∧ (S.readSingle response.body u).1 = some a
        ∧ host = if a.host = "" then ra.1.host else a.host
  reported : ∀ {k : Nat} {q q' : Query} {x : Resolution}, j.queries[k]? = some q →
    q.state = .pending → (run S j (c, w)).1.1.queries[k]? = some q' → x ∈ q'.results →
      x.hitCache = false → Named S rs j (c, w) k x
  stored : ∀ {k x}, Event.stored k x ∈ (run S j (c, w)).2.1 → Named S rs j (c, w) k x
  kept : ∀ {key}, ¬ Reached S rs j (c, w) key →
    ∀ e' ∈ (cacheAfter S j c w).entries.get? key, ∃ e ∈ c.entries.get? key, e.Advances e'
  gone : ∀ {key e}, ¬ Reached S rs j (c, w) key → c.entries.get? key = some e →
    (cacheAfter S j c w).entries.get? key = none →
      ∃ k q u, asking S 0 none j.queries k (c, w) = some (q, u) ∧ AsksStale S q u key e
  untouched : ∀ {key}, ¬ Reached S rs j (c, w) key →
    (∀ ra ∈ rs, ra.1.usingMulti = false → ra.1.cacheKeyFor ra.1.host ≠ key) →
      (cacheAfter S j c w).entries.get? key = c.entries.get? key

/-- The results of a run's exchanges are for hosts that their requests name, what it caches is under
keys of such hosts, and the entry of any other host stays as it was. -/
structure Confined : Prop where
  reported : ∀ {k : Nat} {q q' : Query} {x : Resolution}, j.queries[k]? = some q →
    q.state = .pending → (run S j (c, w)).1.1.queries[k]? = some q' → x ∈ q'.results →
      x.hitCache = false → ∃ ra, rs[k]? = some ra ∧ x.host ∈ ra.1.hosts
  stored : ∀ {k x}, Event.stored k x ∈ (run S j (c, w)).2.1 →
    ∃ ra ∈ rs, ∃ host ∈ ra.1.hosts, x.cacheKey = ra.1.cacheKeyFor host
  untouched : ∀ {key}, (∀ ra ∈ rs, ∀ host ∈ ra.1.hosts, ra.1.cacheKeyFor host ≠ key) →
    (cacheAfter S j c w).entries.get? key = c.entries.get? key

end

section

variable {S : Services τ} {settings : JobSettings} {rs : List (Request × Bool)} {j : Job}
  {es : List Event} {c : Cache} {w : τ}

theorem Shares.named (life : Life S.withCache settings rs j es (c, w)) {k : Nat} {x : Resolution}
    {r : Round (Cache × τ)} {q : Query} (h : Shares S.withCache j (c, w) k x r q) :
    Named S.withCache rs j (c, w) k x := by
  obtain ⟨ra, hra, hrooted⟩ := h.inRun.rooted life h.query h.pending
  exact ⟨r, ra, h.inRun, hra, h.given, by rw [h.cacheKey_eq, hrooted.stems.cacheKeyFor_eq]⟩

theorem Named.reached {S : Services (Cache × τ)} {k : Nat} {x : Resolution}
    (h : Named S rs j (c, w) k x) : Reached S rs j (c, w) x.cacheKey := by
  obtain ⟨r, ra, hr, hra, hnames, hkey⟩ := h
  exact ⟨r, k, ra, x.host, hr, hra, hnames, hkey.symm⟩

theorem mem_readBody_single {σ : Type} {S : Services σ} {r : Request}
    (hr : r.usingMulti = false) {body : String} {u : σ} {b : Answer}
    (hb : b ∈ (readBody S r body u).1) : ∃ a, (S.readSingle body u).1 = some a
      ∧ b.host = if a.host = "" then r.host else a.host := by
  unfold readBody at hb
  rw [hr] at hb
  cases ha : (S.readSingle body u).1 with
  | none => simp [ha] at hb
  | some a =>
    refine ⟨a, rfl, ?_⟩
    simp only [ha, Bool.false_eq_true, if_false, Action.bind_apply, Action.call_apply,
      Action.pure_apply, List.mem_singleton] at hb
    rw [hb]
    split <;> rfl

/-- A single answer is for the host it names, or else for the host of its request. -/
theorem InRun.names_single {σ : Type} {S : Services σ} {w : σ} {r : Round σ}
    (hr : InRun S j w r) (life : Life S settings rs j es w) {k : Nat} {ra : Request × Bool}
    (hra : rs[k]? = some ra) (hsingle : ra.1.usingMulti = false) {host : String}
    (h : r.Names S j.settings k host) : ∃ e response u a,
      ((k, e), .ok response) ∈ r.traffic S j.settings ∧ (S.readSingle response.body u).1 = some a
        ∧ host = if a.host = "" then ra.1.host else a.host := by
  obtain ⟨b, hb, rfl⟩ := h
  obtain ⟨seat, out, response, hs, ho, htraffic, -, hmem, -⟩ := hb
  obtain ⟨q, hq⟩ := (r.seats_pass S j.settings).get_before hs
  have hboard := (r.seats_pass S j.settings).each hq hs
  obtain ⟨hrun, hsent⟩ := hboard.of_out ho
  obtain ⟨server, attempts, failed, hc⟩ := hboard.carry_eq
  obtain ⟨ra', hra', hrooted⟩ := hr.rooted life hq (Query.isRunnable_iff.1 hrun).1
  obtain rfl := Option.some.inj (hra.symm.trans hra')
  have hrequest : out.request.usingMulti = false ∧ out.request.host = ra.1.host := by
    unfold outgoing at hsent
    obtain ⟨server', -, rfl⟩ := Option.map_eq_some_iff.1 hsent
    rw [hc]
    exact ⟨hrooted.stems.usingMulti_eq.trans hsingle, hrooted.stems.host_eq⟩
  obtain ⟨a, ha, hhost⟩ := mem_readBody_single hrequest.1 hmem
  exact ⟨_, response, _, a, htraffic, ha, hhost.trans (by rw [hrequest.2])⟩

/-- The rounds of a run leave the entry of a key alone that its replies do not reach. -/
theorem get?_run_of_unreached (life : Life S.withCache settings rs j es (c, w)) (hc : c.WellKept)
    {key : String} (hkey : ¬ Reached S.withCache rs j (c, w) key) :
    (cacheAfter S.withCache j c w).entries.get? key
      = (prepare S.withCache 0 none j.queries (c, w)).2.2.1.entries.get? key := by
  have hprepared := prepare_follows S 0 none j.queries (c, w)
  have hrun := executes_run S.withCache j (c, w)
  unfold cacheAfter
  generalize run S.withCache j (c, w) = out at hrun ⊢
  cases hrun with
  | refused => rfl
  | settled hok hs =>
    refine (hs.obeys S.withCache_follows).get?_eq (hprepared.wellKept hc) fun e he heq => hkey ?_
    obtain ⟨k, x, r, q, _, _, rfl, reach, sent, hquery, -, hanswered, hx⟩ := hs.stores he heq
    cases heq
    exact ((hanswered.shares ⟨hok, reach, sent⟩ hquery hx).named life).reached

theorem run_namesOnly (life : Life S.withCache settings rs j es (c, w)) (hc : c.WellKept) :
    NamesOnly S.withCache rs j c w := by
  have hstored : ∀ {k x}, Event.stored k x ∈ (run S.withCache j (c, w)).2.1 →
      Named S.withCache rs j (c, w) k x := by
    intro k x h
    obtain ⟨r, q, hshares, -⟩ := run_stored h
    exact hshares.named life
  refine ⟨fun hr hra hsingle hnames => hr.names_single life hra hsingle hnames,
    fun hq hpend hq' hx hfresh => ?_, hstored, fun {key} hkey => ?_,
    fun {key e} hkey he hgone => ?_, fun {key} hkey hown => ?_⟩
  · cases run_gains life hq hpend hq' with
    | found type p state told results =>
      rw [results, List.mem_singleton] at hx
      rw [hx] at hfresh
      cases hfresh
    | nothing results =>
      rw [results] at hx
      cases hx
    | answered r q₁ state results => exact (results _ hx).named life
  · refine (run_follows S j c w).advanced hc fun k x hx heq => hkey ?_
    rw [← heq]
    exact (hstored hx).reached
  · rw [get?_run_of_unreached life hc hkey] at hgone
    refine (prepare_drops S 0 none j.queries hc he).resolve_right ?_
    rintro ⟨e', he', -⟩
    rw [hgone] at he'
    cases he'
  · refine (run_follows S j c w).get?_eq hc fun e he heq => ?_
    rcases run_calls he heq with hprepare | ⟨k, x, r, q, rfl, hshares, -⟩
    · obtain ⟨ra, hra, hsingle, -, rfl⟩ := prepare_key_eq life hprepare heq
      exact hown ra hra hsingle rfl
    · cases heq
      exact hkey (hshares.named life).reached

theorem NamesOnly.confined {S : Services (Cache × τ)} (h : NamesOnly S rs j c w)
    (hkeeps : KeepsToHosts S rs j (c, w)) : Confined S rs j c w where
  reported hq hpend hq' hx hfresh := by
    obtain ⟨r, ra, hr, hra, hnames, -⟩ := h.reported hq hpend hq' hx hfresh
    exact ⟨ra, hra, hkeeps r hr _ ra _ hra hnames⟩
  stored hx := by
    obtain ⟨r, ra, hr, hra, hnames, hkey⟩ := h.stored hx
    exact ⟨ra, List.mem_of_getElem? hra, _, hkeeps r hr _ ra _ hra hnames, hkey⟩
  untouched {key} hkey := by
    refine h.untouched ?_ fun ra hra hsingle => hkey ra hra _ ?_
    · rintro ⟨r, k, ra, host, hr, hra, hnames, heq⟩
      exact hkey ra (List.mem_of_getElem? hra) host (hkeeps r hr k ra host hra hnames) heq
    · rw [Request.hosts, hsingle]
      exact List.mem_singleton_self _

/-- The replies of a run decide results, keys and entries of the hosts they name and of no others; a
run whose replies name hosts of their own requests only is confined to these. -/
theorem run_confined (life : Life S.withCache settings rs j es (c, w)) (hc : c.WellKept) :
    NamesOnly S.withCache rs j c w
      ∧ (KeepsToHosts S.withCache rs j (c, w) → Confined S.withCache rs j c w) :=
  ⟨run_namesOnly life hc, (run_namesOnly life hc).confined⟩

end

/-- Two requests whose replies name the host they ask for are confined to it. -/
theorem run_confined_divided :
    ({} : Cache).WellKept ∧ KeepsToHosts divided.withCache twoKeys dividedJob ({}, ())
      ∧ Confined divided.withCache twoKeys dividedJob {} () := by
  have hkeeps : KeepsToHosts divided.withCache twoKeys dividedJob ({}, ()) := by
    rintro r hr k ra host hra ⟨b, hb, rfl⟩
    obtain rfl := hr.eq_firstRound fun hsent => hsent rfl
    obtain ⟨l, hl, hmem⟩ := hb.landing
    match k with
    | 0 =>
      obtain rfl : (askUnder "k1" "203.0.113.1", true) = ra := Option.some.inj hra
      obtain rfl := Option.some.inj hl
      obtain rfl := List.mem_singleton.1 hmem
      exact List.mem_singleton_self _
    | 1 =>
      obtain rfl : (askUnder "k2" "203.0.113.2", true) = ra := Option.some.inj hra
      obtain rfl := Option.some.inj hl
      obtain rfl := List.mem_singleton.1 hmem
      exact List.mem_singleton_self _
    | k + 2 => cases hra
  exact ⟨wellKept_empty, hkeeps, (run_confined (life_dividedJob _) wellKept_empty).2 hkeeps⟩

/-! ## A reply that names another host -/

/-- A server that names another host than the one it is asked for. -/
def misnaming : Services Unit :=
  .steady (fun _ => none) (fun e => .ok ⟨statusOk, e.server, 8⟩) fun _ =>
    some { host := "evil.com", ips := ["192.0.2.66"], ttl := 60 }

def askPlain : Request :=
  { host := "a.com", accountId := "100000", resolver := some "203.0.113.1", queryType := .a }

def plainJob : Job :=
  holding ⟨1, "", "", 0⟩ [(askPlain, true)]

/-- The only request is for `a.com`, but what it is given and what is cached is for `evil.com`. -/
theorem stored_unasked :
    let x : Resolution :=
      { host := "evil.com", cacheKey := "evil.com", ips := [⟨"192.0.2.66", none⟩], ttl := 60 }
    Life misnaming.withCache plainJob.settings [(askPlain, true)] plainJob [] ({}, ())
      ∧ ({} : Cache).WellKept
      ∧ (run misnaming.withCache plainJob ({}, ())).1.1.queries.map (·.results) = [[x]]
      ∧ (cacheAfter misnaming.withCache plainJob {} ()).entries = [("evil.com", x)]
      ∧ ¬ Confined misnaming.withCache [(askPlain, true)] plainJob {} () := by
  intro x
  have life : Life misnaming.withCache plainJob.settings [(askPlain, true)] plainJob [] ({}, ()) :=
    .holding (by decide) _
  refine ⟨life, wellKept_empty, by decide +kernel, by decide +kernel, fun h => ?_⟩
  have hmem : Event.stored 0 x ∈ (run misnaming.withCache plainJob ({}, ())).2.1 := by
    decide +kernel
  obtain ⟨ra, hra, host, hhost, hkey⟩ := h.stored hmem
  obtain rfl := List.mem_singleton.1 hra
  obtain rfl : host = "a.com" := List.mem_singleton.1 hhost
  exact absurd hkey (by decide)

end HttpDns.Job
