import HttpDns.Proofs.NameServers
import HttpDns.Proofs.Transparency
import Mathlib.Data.List.Sort

/-!
# Lookups of many hosts

A lookup of many hosts is cut into batched requests of a few hosts each. Over a service of a zone
and with nothing cached each of them gets what the zone has for its hosts, also where others of them
are sent again and again because their hosts have nothing. So a lookup of many hosts has, in
ascending order of hosts, just the answers that lookups of the single hosts have
(`resolveBatch_agrees`).
-/

namespace HttpDns

/-! ## Results of a zone -/

namespace Zone

variable {Z : Zone} {type : QueryType}

/-- The zone has one resolution for a host. -/
theorem Matches.agrees {x y : Resolution} (hx : Z.Matches type x) (hy : Z.Matches type y)
    (h : x.host = y.host) :
    x.ips = y.ips ∧ x.ipsv6 = y.ipsv6 ∧ x.ttl = y.ttl ∧ x.originTtl = y.originTtl := by
  rw [hx.ips_eq, hx.ipsv6_eq, hx.ttl_eq, hx.originTtl_eq, h]
  exact ⟨hy.ips_eq.symm, hy.ipsv6_eq.symm, hy.ttl_eq.symm, hy.originTtl_eq.symm⟩

theorem Matches.absorb {x y : Resolution} (hx : Z.Matches type x) (hy : Z.Matches type y)
    (h : x.host = y.host) : Z.Matches type (x.absorb y) := by
  obtain ⟨hips, hipsv6, httl, horigin⟩ := hx.agrees hy h
  have hsame : x.absorb y
      = { x with clientIp := x.clientIp.or y.clientIp, extra := x.extra.or y.extra } := by
    simp [Resolution.absorb, Resolution.fillGaps, ← hips, ← hipsv6, ← httl, ← horigin,
      Job.max_seconds_self]
  rw [hsame]
  exact ⟨hx.ips_eq, hx.ipsv6_eq, hx.ttl_eq, hx.originTtl_eq⟩

theorem Matches.foldl_absorb : ∀ {rest : List Resolution} {x : Resolution}, Z.Matches type x →
    (∀ y ∈ rest, x.host = y.host ∧ Z.Matches type y) →
      Z.Matches type (rest.foldl Resolution.absorb x)
  | [], _, hx, _ => hx
  | y :: rest, x, hx, h => by
    obtain ⟨hhost, hy⟩ := h y List.mem_cons_self
    rw [List.foldl_cons]
    exact (hx.absorb hy hhost).foldl_absorb fun z hz => h z (List.mem_cons_of_mem _ hz)

namespace Resolves

variable {names names' : List String} {rs rs' : List Resolution}

theorem congr (h : Z.Resolves names type rs) (hsame : ∀ name, name ∈ names ↔ name ∈ names') :
    Z.Resolves names' type rs where
  told x hx := ⟨(hsame _).1 (h.told x hx).1, (h.told x hx).2⟩
  complete host hhost := h.complete host ((hsame _).2 hhost)

theorem append (h : Z.Resolves names type rs) (h' : Z.Resolves names' type rs') :
    Z.Resolves (names ++ names') type (rs ++ rs') where
  told x hx := by
    rcases List.mem_append.1 hx with hx | hx
    · exact (h.told x hx).imp_left (List.mem_append_left _)
    · exact (h'.told x hx).imp_left (List.mem_append_right _)
  complete host hhost howns := by
    rcases List.mem_append.1 hhost with hhost | hhost
    · obtain ⟨x, hx, rfl⟩ := h.complete host hhost howns
      exact ⟨x, List.mem_append_left _ hx, rfl⟩
    · obtain ⟨x, hx, rfl⟩ := h'.complete host hhost howns
      exact ⟨x, List.mem_append_right _ hx, rfl⟩

theorem flatMap {asks : List Request} {qs : List Query}
    (h : List.Forall₂ (fun ask q => Z.Resolves ask.hosts type q.results) asks qs) :
    Z.Resolves (asks.flatMap (·.hosts)) type (qs.flatMap (·.results)) := by
  induction h with
  | nil => exact ⟨by simp, by simp⟩
  | cons hfirst _ ih => exact hfirst.append ih

/-- Merging changes nothing in the results of a zone: two for one host are the same. -/
theorem merge (h : Z.Resolves names type rs) : Z.Resolves names type (Resolution.merge rs) where
  told x hx := by
    have hfold := Resolution.mem_merge.1 hx
    have hown : ∀ y ∈ Resolution.ofHost x.host rs, y ∈ rs ∧ y.host = x.host :=
      fun y => Resolution.host_of_mem_ofHost
    cases hrun : Resolution.ofHost x.host rs with
    | nil =>
      rw [hrun] at hfold
      cases hfold
    | cons first rest =>
      rw [hrun] at hfold hown
      obtain ⟨hfirst, hhost⟩ := hown first List.mem_cons_self
      obtain ⟨hname, howns, hmatches⟩ := h.told first hfirst
      rw [hhost] at hname howns
      refine ⟨hname, howns, ?_⟩
      rw [← Option.some.inj hfold]
      refine hmatches.foldl_absorb fun y hy => ?_
      obtain ⟨hmem, hyhost⟩ := hown y (List.mem_cons_of_mem _ hy)
      exact ⟨hhost.trans hyhost.symm, (h.told y hmem).2.2⟩
  complete host hhost howns := by
    obtain ⟨x, hx, rfl⟩ := h.complete host hhost howns
    exact Resolution.exists_mem_merge hx

end Resolves

end Zone

namespace Client

open Request

variable {τ : Type} {S : Services τ} {c : Client} {Z : Zone} {stack : Stack}

theorem addAll_batchRequests {hosts : List String} (hcomma : ∀ host ∈ hosts, ',' ∉ host.toList)
    (q : QueryType) : addAll c.job (c.batchRequests hosts q)
      = .ok { c.job with queries := (c.batchAsks hosts).map (c.asked q) } := by
  rw [batchRequests_eq, addAll_ok c.job fun ask hask => batch_accepted hcomma hask q]
  rfl

/-! ## A small zone -/

/-- A zone in which a.com owns an address of each family, b.com two IPv4 addresses and no other host
owns any. -/
def smallZone : Zone where
  ipv4 host :=
    if host = "a.com" then ["192.0.2.1"]
    else if host = "b.com" then ["192.0.2.2", "192.0.2.3"]
    else []
  ipv6 host := if host = "a.com" then ["2001:db8::1"] else []
  ttl _ := 60
  originTtl host := if host = "b.com" then 120 else 0

theorem plain_smallZone : smallZone.Plain := by
  intro host
  by_cases ha : host = "a.com" <;> by_cases hb : host = "b.com" <;> simp [smallZone, ha, hb]

theorem owns_smallZone {host : String} :
    smallZone.Owns host .both ↔ host ∈ ["a.com", "b.com"] := by
  unfold Records.Owns
  by_cases ha : host = "a.com" <;> by_cases hb : host = "b.com" <;>
    simp [smallZone, QueryType.wantsIpv4, QueryType.wantsIpv6, ha, hb]

/-- Three batches are sent for these; no host of the second one owns anything. -/
def manyHosts : List String :=
  ["b.com", " a.com", "x.com", "", "b.com", "x.com", "y.com", " ", "z.com", "x.com", "a.com"]

/-! ## Lookups over a zone -/

theorem ensureServers_of_unused {s : State τ} (hs : Unused stack s) :
    ensureServers S c s = ((), [], s) := by
  simp [ensureServers, poolEmpty, Pool.nonempty_of_supplies hs.supplies]

/-- The job of a lookup of some hosts. -/
def batchJob (c : Client) (hosts : List String) (q : QueryType) : Job :=
  { c.job with queries := (c.batchAsks hosts).map (c.asked q) }

theorem resolveBatch_of_run {hosts : List String} (hcomma : ∀ host ∈ hosts, ',' ∉ host.toList)
    (hne : c.batchAsks hosts ≠ []) (q : QueryType) {s : State τ} (hs : Unused stack s) :
    (resolveBatch S c hosts q s).1 = (run S (c.batchJob hosts q) s).1.2.map fun _ =>
      Resolution.merge ((run S (c.batchJob hosts q) s).1.1.queries.flatMap (·.results)) := by
  have hqueries : ¬ (c.batchAsks hosts).map (c.asked q) = [] := mt List.map_eq_nil_iff.1 hne
  unfold resolveBatch
  rw [addAll_batchRequests hcomma]
  simp only [if_neg hqueries, Action.bind_apply, ensureServers_of_unused hs]
  rfl

section

variable (hstack : ∀ w, (S.stack w).1 = stack) (hS : Z.Serves S c)

include hstack hS

/-- A lookup of a host has an answer if and only if the host owns something of the type, and the
answer is the one of the zone. -/
theorem resolveHost_resolves {host : String} (hblank : Text.allBlank host = false) (q : QueryType)
    {s : State τ} (hs : Unused stack s) : ∃ found, (resolveHost S c host q s).1 = .ok found
      ∧ (found.isSome ↔ Z.Owns host (q.on stack))
      ∧ ∀ y ∈ found, y.host = host ∧ Z.Matches (q.on stack) y := by
  have hasks : ∀ ask ∈ [Request.ofConfig host c.config], c.Poses ask := by
    simp only [List.mem_singleton, forall_eq]
    exact .single host
  obtain ⟨qs, hrun, hall⟩ := run_resolves hstack hS hs hasks q
  obtain ⟨q', _, hq', hnil, rfl⟩ := List.forall₂_cons_left_iff.1 hall
  obtain rfl := List.forall₂_nil_left_iff.1 hnil
  have hanswer : (resolveHost S c host q s).1 = .ok q'.results.head? := by
    rw [resolveHost_of_run S (request_accepted hblank q) (Pool.nonempty_of_supplies hs.supplies)]
    have hjob : c.lookupJob host q
        = { c.job with queries := [Request.ofConfig host c.config].map (c.asked q) } := rfl
    rw [hjob, hrun]
    rfl
  refine ⟨_, hanswer, ⟨fun hsome => ?_, fun howns => ?_⟩, fun y hy => ?_⟩
  · obtain ⟨y, hy⟩ := Option.isSome_iff_exists.1 hsome
    obtain ⟨hhost, howns, -⟩ := hq'.told y (List.mem_of_mem_head? hy)
    rwa [List.mem_singleton.1 hhost] at howns
  · obtain ⟨x, hx, -⟩ := hq'.complete host (List.mem_singleton_self host) howns
    rw [List.isSome_head?]
    exact List.ne_nil_of_mem hx
  · obtain ⟨hhost, -, hmatches⟩ := hq'.told y (List.mem_of_mem_head? hy)
    exact ⟨List.mem_singleton.1 hhost, hmatches⟩

/-- A lookup of many hosts has what the zone has for them. -/
theorem resolveBatch_resolves {hosts : List String} (hcomma : ∀ host ∈ hosts, ',' ∉ host.toList)
    (q : QueryType) {s : State τ} (hs : Unused stack s) : ∃ results,
      (resolveBatch S c hosts q s).1 = .ok results ∧ (results.map (·.host)).Pairwise (· < ·)
        ∧ Z.Resolves (trimmedNames hosts) (q.on stack) results := by
  by_cases hne : c.batchAsks hosts = []
  · have hnone : ∀ name, name ∉ trimmedNames hosts := by
      intro name hname
      obtain ⟨ask, hask, -⟩ := (mem_hosts_batchAsks (c := c) hcomma).2 hname
      rw [hne] at hask
      cases hask
    refine ⟨[], ?_, .nil, ⟨by simp, fun host hhost => absurd hhost (hnone host)⟩⟩
    unfold resolveBatch
    rw [addAll_batchRequests hcomma, hne]
    rfl
  · obtain ⟨qs, hrun, hall⟩ := run_resolves hstack hS hs poses_batchAsks q
    have hresults := (Zone.Resolves.flatMap hall).merge
    refine ⟨_, ?_, Resolution.hosts_merge_pairwise _, hresults.congr fun name => ?_⟩
    · rw [resolveBatch_of_run hcomma hne q hs, batchJob, hrun]
      rfl
    · rw [List.mem_flatMap, mem_hosts_batchAsks hcomma]

/-- A lookup of many hosts has exactly one answer for each of them that a lookup of its own has an
answer for, with the same addresses and lifetimes, and no other one. Its answers come in ascending
order of hosts. -/
theorem resolveBatch_agrees {hosts : List String} (hcomma : ∀ host ∈ hosts, ',' ∉ host.toList)
    (q : QueryType) {s : State τ} (hs : Unused stack s) : ∃ results,
      (resolveBatch S c hosts q s).1 = .ok results ∧ (results.map (·.host)).Pairwise (· < ·)
        ∧ (∀ x ∈ results, x.host ∈ trimmedNames hosts)
        ∧ ∀ host ∈ trimmedNames hosts, ∀ {s' : State τ}, Unused stack s' → ∃ found,
          (resolveHost S c host q s').1 = .ok found
            ∧ (host ∈ results.map (·.host) ↔ found.isSome)
            ∧ ∀ x ∈ results, x.host = host → ∀ y ∈ found, y.host = host
              ∧ x.ips = y.ips ∧ x.ipsv6 = y.ipsv6 ∧ x.ttl = y.ttl ∧ x.originTtl = y.originTtl := by
  obtain ⟨results, hbatch, hascend, hresolves⟩ := resolveBatch_resolves hstack hS hcomma q hs
  refine ⟨results, hbatch, hascend, fun x hx => (hresolves.told x hx).1, ?_⟩
  intro host hhost s' hs'
  obtain ⟨found, hfound, hsome, hmatches⟩ :=
    resolveHost_resolves hstack hS (not_allBlank_of_mem hhost) q hs'
  refine ⟨found, hfound, ?_, fun x hx hxhost y hy => ?_⟩
  · rw [hsome, List.mem_map]
    constructor
    · rintro ⟨x, hx, rfl⟩
      exact (hresolves.told x hx).2.1
    · exact hresolves.complete host hhost
  · obtain ⟨hyhost, hy⟩ := hmatches y hy
    obtain ⟨-, -, hx⟩ := hresolves.told x hx
    exact ⟨hyhost, hx.agrees hy (hxhost.trans hyhost.symm)⟩

end

/-- Of eleven hosts, some of them blank or named twice, the two that own something are answered. -/
theorem resolveBatch_agrees_many :
    let S := smallZone.server .dual
    (∀ w, (S.stack w).1 = .dual) ∧ smallZone.Serves S plain
      ∧ (∀ host ∈ manyHosts, ',' ∉ host.toList) ∧ Unused .dual (unasked : State Unit)
      ∧ ∃ results, (resolveBatch S plain manyHosts .both unasked).1 = .ok results
        ∧ results.map (·.host) = ["a.com", "b.com"]
        ∧ ∀ x ∈ results, x.host = "a.com" → x.ips = [⟨"192.0.2.1", none⟩]
          ∧ x.ipsv6 = [⟨"2001:db8::1", none⟩] ∧ x.ttl = 60 ∧ x.originTtl = 0 := by
  intro S
  have hstack : ∀ w, (S.stack w).1 = .dual := fun _ => rfl
  have hS : smallZone.Serves S plain := Zone.serves_server plain_smallZone .dual plain
  have hcomma : ∀ host ∈ manyHosts, ',' ∉ host.toList := by decide
  have hs : Unused .dual (unasked : State Unit) := ⟨rfl, List.cons_ne_nil _ _⟩
  have hnames : Request.trimmedNames manyHosts
      = ["b.com", "a.com", "x.com", "b.com", "x.com", "y.com", "z.com", "x.com", "a.com"] := by
    decide +kernel
  obtain ⟨results, hbatch, hascend, hnamed, hagree⟩ :=
    resolveBatch_agrees hstack hS hcomma .both hs
  refine ⟨hstack, hS, hcomma, hs, results, hbatch, ?_, fun x hx hxhost => ?_⟩
  · refine hascend.eq_of_mem_iff (by decide) fun host => ?_
    by_cases hhost : host ∈ Request.trimmedNames manyHosts
    · obtain ⟨found, hfound, hiff, -⟩ := hagree host hhost hs
      obtain ⟨_, hfound', hsome, -⟩ :=
        resolveHost_resolves hstack hS (Request.not_allBlank_of_mem hhost) .both hs
      obtain rfl := Except.ok.inj (hfound.symm.trans hfound')
      exact hiff.trans (hsome.trans owns_smallZone)
    · refine iff_of_false (fun hmem => ?_) fun hmem => ?_
      · obtain ⟨x, hx, rfl⟩ := List.mem_map.1 hmem
        exact hhost (hnamed x hx)
      · rw [hnames] at hhost
        revert hhost
        rcases List.mem_pair.1 hmem with rfl | rfl <;> decide
  · have hname : "a.com" ∈ Request.trimmedNames manyHosts := by rw [hnames]; decide
    have hlone : (resolveHost S plain "a.com" .both unasked).1 = .ok (some
        { host := "a.com", cacheKey := "a.com", ips := [⟨"192.0.2.1", none⟩],
          ipsv6 := [⟨"2001:db8::1", none⟩], ttl := 60 }) := by
      decide +kernel
    obtain ⟨found, hfound, -, hsame⟩ := hagree "a.com" hname hs
    obtain rfl := Except.ok.inj (hfound.symm.trans hlone)
    exact (hsame x hx hxhost _ rfl).2

end Client

end HttpDns
