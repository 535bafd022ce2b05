import HttpDns.Proofs.Confinement
import HttpDns.Proofs.Reuse

/-!
# Results that are fit to be handed out

The readers of JSON bodies drop empty addresses and entries without a host, so an answer that a
reply gives has a host and an address, and a result made of such answers is tidy: it has a host, a
key and an address, and its addresses are neither empty nor repeated nor measured
(`Shares.tidy`). A cache that holds tidy entries only is left so by every run, as the entries only
fill each other's gaps, and everything that a run tells of is tidy (`run_tidy`). So any number of
jobs that share a cache which was empty at first hand out, cache and find tidy results only, and
none is refused for want of a key (`Sharing.tidy`).
-/

namespace HttpDns

/-! ## Tidy addresses -/

/-- No address is empty, none is measured and each stands once. -/
structure Endpoints.Tidy (l : Endpoints) : Prop where
  ne_empty : ∀ e ∈ l, e.addr ≠ ""
  unmeasured : ∀ e ∈ l, e.rtt = none
  nodup : l.addrs.Nodup

namespace Endpoints.Tidy

variable {l : Endpoints}

theorem nil : Tidy [] := ⟨by simp, by simp, List.nodup_nil⟩

theorem of_perm {l' : Endpoints} (h : l.Tidy) (hperm : l'.Perm l) : l'.Tidy where
  ne_empty e he := h.ne_empty e (hperm.mem_iff.1 he)
  unmeasured e he := h.unmeasured e (hperm.mem_iff.1 he)
  nodup := (hperm.map _).nodup_iff.2 h.nodup

theorem rotate (h : l.Tidy) : l.rotate.Tidy := by
  cases l with
  | nil => exact h
  | cons x rest => exact h.of_perm (List.perm_append_singleton x rest)

theorem merge (h : l.Tidy) (addrs : List String) : (l.merge addrs).Tidy where
  ne_empty e he := by
    rcases List.mem_append.1 (merge_eq addrs l ▸ he) with he | he
    · exact h.ne_empty e he
    · obtain ⟨a, ha, rfl⟩ := List.mem_map.1 he
      exact (mem_newcomers.1 ha).2.1
  unmeasured e he := by
    rcases List.mem_append.1 (merge_eq addrs l ▸ he) with he | he
    · exact h.unmeasured e he
    · obtain ⟨a, -, rfl⟩ := List.mem_map.1 he
      rfl
  nodup := by
    rw [addrs_merge, appendUnique_eq]
    exact h.nodup.append (nodup_newcomers _ _) fun a ha hnew => (mem_newcomers.1 hnew).2.2 ha

theorem distinctAddrs (addrs : List String) : (HttpDns.distinctAddrs addrs).Tidy := by
  rw [← ofAddrs_eq]
  exact merge .nil addrs

end Endpoints.Tidy

theorem distinctAddrs_ne_nil {addrs : List String} (hne : addrs ≠ []) (hempty : "" ∉ addrs) :
    distinctAddrs addrs ≠ [] := by
  obtain ⟨addr, haddr⟩ := List.exists_mem_of_ne_nil addrs hne
  have hkept : addr ∈ (addrs.filter (· ≠ "")).eraseDups := by
    rw [List.mem_eraseDups, List.mem_filter]
    exact ⟨haddr, decide_eq_true fun h => hempty (h ▸ haddr)⟩
  exact List.ne_nil_of_mem (List.mem_map_of_mem hkept)

namespace Resolution

/-! ## Tidy results -/

/-- It has a host, a key and an address, and its addresses are tidy. -/
structure Tidy (x : Resolution) : Prop where
  host_ne_empty : x.host ≠ ""
  cacheKey_ne_empty : x.cacheKey ≠ ""
  isEmpty_eq : x.isEmpty = false
  ips : x.ips.Tidy
  ipsv6 : x.ipsv6.Tidy

namespace Tidy

variable {x y : Resolution}

theorem hit (h : x.Tidy) : Tidy { x with hitCache := true } :=
  ⟨h.host_ne_empty, h.cacheKey_ne_empty, h.isEmpty_eq, h.ips, h.ipsv6⟩

theorem rotate (h : x.Tidy) : x.rotate.Tidy where
  host_ne_empty := h.host_ne_empty
  cacheKey_ne_empty := h.cacheKey_ne_empty
  isEmpty_eq := by
    have hlen : ∀ l : Endpoints, l.rotate.isEmpty = l.isEmpty := by
      intro l
      cases l <;> simp [Endpoints.rotate]
    simpa [Resolution.isEmpty, Resolution.rotate, hlen] using h.isEmpty_eq
  ips := h.ips.rotate
  ipsv6 := h.ipsv6.rotate

/-- What a live entry has become by an update. -/
theorem refresh (h : x.Tidy) (h' : y.Tidy) : (Cache.refresh x y).Tidy where
  host_ne_empty := h.host_ne_empty
  cacheKey_ne_empty := h.cacheKey_ne_empty
  isEmpty_eq := by
    have hne := h.isEmpty_eq
    unfold Resolution.isEmpty at hne ⊢
    simp only [Cache.refresh, Resolution.fillGaps]
    cases hips : x.ips <;> cases hipsv6 : x.ipsv6 <;> simp_all
  ips := by
    show (if x.ips.isEmpty then y.ips else x.ips).Tidy
    split
    · exact h'.ips
    · exact h.ips
  ipsv6 := by
    show (if x.ipsv6.isEmpty then y.ipsv6 else x.ipsv6).Tidy
    split
    · exact h'.ipsv6
    · exact h.ipsv6

theorem renewed (h : x.Tidy) {stored : Option Resolution} (hs : ∀ y ∈ stored, y.Tidy) :
    (Cache.renewed x stored).Tidy := by
  unfold Cache.renewed
  split
  · exact h
  · split
    · exact h
    · exact (hs _ rfl).refresh h

end Tidy

end Resolution

/-- The answer names a host and has an address, and none of its addresses is empty. -/
structure Answer.Tidy (a : Answer) : Prop where
  host_ne_empty : a.host ≠ ""
  isEmpty_eq : a.isEmpty = false
  ips : "" ∉ a.ips
  ipsv6 : "" ∉ a.ipsv6

/-- A tidy answer makes a tidy result, whatever the others for its host are. -/
theorem gather_tidy {own : List Answer} {hit : Option Resolution} {key host : String} {now : Nat}
    (hhost : host ≠ "") (hkey : key ≠ "") (hhit : ∀ p ∈ hit, p.Tidy) {a : Answer} (ha : a ∈ own)
    (hta : a.Tidy) : (gather own hit key now host).Tidy := by
  have hspare : ∀ p ∈ spare hit key, p.Tidy := by
    intro p hp
    unfold spare at hp
    split at hp
    · split at hp
      · exact hhit p hp
      · cases hp
    · cases hp
  have family (f : Answer → List String) (g : Resolution → Endpoints)
      (hg : ∀ p : Resolution, p.Tidy → (g p).Tidy) :
      Endpoints.Tidy (Resolution.firstNonEmpty
        (own.map (fun a => distinctAddrs (f a)) ++ ((spare hit key).map g).toList)) := by
    by_cases hnone : Resolution.firstNonEmpty
        (own.map (fun a => distinctAddrs (f a)) ++ ((spare hit key).map g).toList) = []
    · rw [hnone]
      exact .nil
    · rcases List.mem_append.1 (Resolution.firstNonEmpty_mem hnone) with h | h
      · obtain ⟨b, -, hb⟩ := List.mem_map.1 h
        rw [← hb]
        exact .distinctAddrs _
      · obtain ⟨p, hp, heq⟩ := Option.map_eq_some_iff.1 (Option.mem_toList.1 h)
        rw [← heq]
        exact hg p (hspare p hp)
  have some_family (f : Answer → List String) (g : Resolution → Endpoints) (hf : f a ≠ [])
      (hempty : "" ∉ f a) : Resolution.firstNonEmpty
        (own.map (fun a => distinctAddrs (f a)) ++ ((spare hit key).map g).toList) ≠ [] :=
    fun hnone => distinctAddrs_ne_nil hf hempty (Resolution.firstNonEmpty_eq_nil_iff.1 hnone _
      (List.mem_append_left _ (List.mem_map.2 ⟨a, ha, rfl⟩)))
  refine ⟨hhost, hkey, ?_, family _ _ fun _ h => h.ips, family _ _ fun _ h => h.ipsv6⟩
  have hne := hta.isEmpty_eq
  unfold Answer.isEmpty at hne
  unfold Resolution.isEmpty
  rw [Bool.and_eq_false_iff, List.isEmpty_eq_false_iff, List.isEmpty_eq_false_iff] at hne ⊢
  exact hne.imp (fun h => some_family _ _ h hta.ips) fun h => some_family _ _ h hta.ipsv6

/-! ## Tidy bodies -/

namespace Reply

theorem not_mem_nonEmpty (addrs : List String) : "" ∉ nonEmpty addrs := by
  simp [nonEmpty]

theorem mem_appendNew {s : String} : ∀ {l l' : List String}, s ∈ appendNew l l' → s ∈ l ∨ s ∈ l'
  | _, [], h => .inl h
  | l, addr :: rest, h => by
    rw [appendNew] at h
    split at h
    · exact (mem_appendNew h).imp id (List.mem_cons_of_mem _)
    · rcases mem_appendNew h with h | h
      · rcases List.mem_append.1 h with h | h
        · exact .inl h
        · exact .inr (List.mem_singleton.1 h ▸ List.mem_cons_self)
      · exact .inr (List.mem_cons_of_mem _ h)

theorem single?_nonEmpty {t : Json.Tree} {a : Answer} (h : single? t = some a) :
    "" ∉ a.ips ∧ "" ∉ a.ipsv6 := by
  unfold single? at h
  simp only [Option.bind_eq_bind, Option.bind_eq_some_iff, Option.pure_def,
    Option.some.injEq] at h
  obtain ⟨fs, -, host, -, ips, -, ipsv6, -, ttl, -, originTtl, -, clientIp, -, extra, -, rfl⟩ := h
  exact ⟨not_mem_nonEmpty _, not_mem_nonEmpty _⟩

theorem readSingle_nonEmpty {body : String} {a : Answer} (h : readSingle body = some a) :
    "" ∉ a.ips ∧ "" ∉ a.ipsv6 := by
  obtain ⟨t, -, ht⟩ := Option.bind_eq_some_iff.1 h
  exact single?_nonEmpty ht

theorem Entry.answer_nonEmpty (e : Entry) : "" ∉ e.answer.ips ∧ "" ∉ e.answer.ipsv6 := by
  unfold Entry.answer
  refine ⟨?_, fun h => ?_⟩
  · dsimp only
    split
    · exact List.not_mem_nil
    · exact not_mem_nonEmpty _
  · rcases mem_appendNew h with h | h
    · split at h
      · exact not_mem_nonEmpty _ h
      · cases h
    · exact not_mem_nonEmpty _ h

theorem readMulti_nonEmpty {body : String} {a : Answer} (h : a ∈ readMulti body) :
    a.host ≠ "" ∧ "" ∉ a.ips ∧ "" ∉ a.ipsv6 := by
  obtain ⟨e, he, rfl⟩ := List.mem_map.1 h
  exact ⟨of_decide_eq_true (List.mem_filter.1 he).2, e.answer_nonEmpty⟩

end Reply

/-! ## Tidy caches -/

/-- Every entry is tidy. -/
def Cache.Tidy (c : Cache) : Prop :=
  ∀ e ∈ c.entries, e.2.Tidy

/-- The answer that a call brings into a cache. -/
def Cache.Op.answer? : Cache.Op → Option Resolution
  | .add r | .update r => some r
  | .lookup .. | .delete _ | .rotate _ | .clear => none

namespace Cache.Tidy

variable {c c' : Cache}

theorem get? (h : c.Tidy) {key : String} {x : Resolution} (hx : c.entries.get? key = some x) :
    x.Tidy :=
  h _ (Entries.mem_of_get? hx)

theorem of_put (h : c.Tidy) {key : String} {x : Resolution} (hx : x.Tidy)
    (he : c'.entries = c.entries.put key x) : c'.Tidy := by
  intro e hmem
  rcases Entries.mem_put (he ▸ hmem) with rfl | hmem
  · exact hx
  · exact h e hmem

theorem of_erase (h : c.Tidy) {key : String} (he : c'.entries = c.entries.erase key) : c'.Tidy :=
  fun e hmem => h e (Entries.mem_erase (he ▸ hmem))

theorem of_entries (h : c.Tidy) (he : c'.entries = c.entries) : c'.Tidy :=
  fun e hmem => h e (he ▸ hmem)

/-- A call leaves a cache tidy if the answer it brings in is tidy. -/
theorem apply (h : c.Tidy) {op : Op} (hop : ∀ x ∈ op.answer?, x.Tidy) : (c.apply op).Tidy := by
  cases op with
  | lookup key type now =>
    have he := entries_lookup c key type now
    split at he
    · exact h.of_erase he
    · exact h.of_entries he
  | add x =>
    have he := entries_add c x
    split at he
    · exact h.of_put (hop x rfl) he
    · exact h.of_entries he
  | update x =>
    have he := entries_update c x
    split at he
    · exact h.of_entries he
    · exact h.of_put ((hop x rfl).renewed fun y hy => h.get? hy) he
  | delete key => exact h.of_erase rfl
  | rotate key =>
    have he := entries_rotate c key
    split at he
    · exact h.of_entries he
    · rename_i x hx
      exact h.of_put (h.get? hx).rotate he
  | clear => exact fun e he => nomatch he

theorem heed (h : c.Tidy) (now : Nat) {e : Event} (he : ∀ k x, e = .stored k x → x.Tidy) :
    (c.heed now e).Tidy := by
  unfold Cache.heed
  cases hop : e.op? now with
  | none => exact h
  | some op =>
    refine h.apply fun x hx => ?_
    cases e with
    | stored k y =>
      cases hop
      cases hx
      exact he k x rfl
    | probed | rotated =>
      cases hop
      cases hx
    | detected | drew | switched | sent | sampled | fired | asked => cases hop

end Cache.Tidy

/-- The results that are told of: found in the cache, cached or handed to a callback. -/
def Event.results : Event → List Resolution
  | .probed _ _ _ found => found.toList
  | .stored _ x => [x]
  | .fired _ results => results
  | .detected _ | .drew .. | .rotated .. | .switched .. | .sent .. | .sampled .. | .asked _ => []

/-- Where only tidy results are cached, what is found is tidy and the cache stays so. -/
theorem Follows.tidy {c c' : Cache} {es : List Event} (h : Follows c es c') (hc : c.Tidy)
    (hes : StoresFit Resolution.Tidy es) :
    c'.Tidy ∧ ∀ {k key type x}, Event.probed k key type (some x) ∈ es → x.Tidy := by
  induction h with
  | nil => exact ⟨hc, fun h => nomatch h⟩
  | cons now found _ ih =>
    obtain ⟨hc', hprobed⟩ := ih (hc.heed now fun k x he => hes k x (he ▸ List.mem_cons_self))
      fun k x hx => hes k x (List.mem_cons_of_mem _ hx)
    refine ⟨hc', fun h => ?_⟩
    rcases List.mem_cons.1 h with h | h
    · exact hc.get? (Cache.lookup_eq_some (found h.symm).symm).1
    · exact hprobed h

namespace Job

/-! ## Tidy runs -/

section

variable {τ : Type} {S : Services τ} {settings : JobSettings} {rs : List (Request × Bool)}
  {j : Job} {es : List Event} {c : Cache} {w : τ} {k : Nat}

/-- An answer with an address that a JSON body holds for a request is tidy. -/
theorem mem_readBody_json {r : Request} (hr : r.host ≠ "") {body : String} {u : Cache × τ}
    {a : Answer} (ha : a ∈ (readBody S.withJson.withCache r body u).1) (hne : a.isEmpty = false) :
    a.Tidy := by
  cases hmulti : r.usingMulti with
  | true =>
    have hmem : a ∈ Reply.readMulti body := by
      rw [readBody, hmulti] at ha
      exact ha
    obtain ⟨hhost, hips, hipsv6⟩ := Reply.readMulti_nonEmpty hmem
    exact ⟨hhost, hne, hips, hipsv6⟩
  | false =>
    have hsingle : (S.withJson.withCache.readSingle body u).1 = Reply.readSingle body := rfl
    cases hb : Reply.readSingle body with
    | none =>
      rw [hb] at hsingle
      simp [readBody, hmulti, hsingle] at ha
    | some b =>
      rw [hb] at hsingle
      rw [readBody_of_single hmulti hsingle, List.mem_singleton] at ha
      obtain ⟨hips, hipsv6⟩ := Reply.readSingle_nonEmpty hb
      split at ha
      · subst ha
        exact ⟨hr, hne, hips, hipsv6⟩
      · rename_i hhost
        subst ha
        exact ⟨hhost, hne, hips, hipsv6⟩

theorem InRun.gives_tidy {r : Round (Cache × τ)} (hr : InRun S.withJson.withCache j (c, w) r)
    (life : Life S.withJson.withCache settings rs j es (c, w)) {a : Answer}
    (h : r.Gives S.withJson.withCache j.settings k a) : a.Tidy := by
  obtain ⟨seat, out, response, hs, ho, -, -, hmem, hne⟩ := h
  obtain ⟨q, hq⟩ := (r.seats_pass S.withJson.withCache j.settings).get_before hs
  have hboard := (r.seats_pass S.withJson.withCache j.settings).each hq hs
  obtain ⟨hrun, hsent⟩ := hboard.of_out ho
  obtain ⟨server, attempts, failed, hc⟩ := hboard.carry_eq
  obtain ⟨ra, hra, hrooted⟩ := hr.rooted life hq (Query.isRunnable_iff.1 hrun).1
  refine mem_readBody_json ?_ hmem hne
  unfold outgoing at hsent
  obtain ⟨server', -, rfl⟩ := Option.map_eq_some_iff.1 hsent
  rw [hc]
  show q.request.host ≠ ""
  rw [hrooted.stems.host_eq]
  exact Request.host_ne_empty (life.accepted ra (List.mem_of_getElem? hra))

/-- A query's share of a round is tidy, if what was found in the cache before is. -/
theorem Shares.tidy (life : Life S.withJson.withCache settings rs j es (c, w))
    (hfound : ∀ {key type p}, Event.probed k key type (some p)
      ∈ es ++ (prepare S.withJson.withCache 0 none j.queries (c, w)).2.1 → p.Tidy)
    {x : Resolution} {r : Round (Cache × τ)} {q : Query}
    (h : Shares S.withJson.withCache j (c, w) k x r q) : x.Tidy := by
  obtain ⟨ra, -, hrooted⟩ := h.inRun.rooted life h.query h.pending
  obtain ⟨a, hgives, hhost⟩ := h.given
  have ha := h.inRun.gives_tidy life hgives
  obtain ⟨l, hl, hmem⟩ := hgives.landing
  have hown : x.host ≠ "" := hhost ▸ ha.host_ne_empty
  rw [h.eq_portion]
  refine gather_tidy hown (Request.cacheKeyFor_ne_empty_of_host _ hown) (fun p hp => ?_)
    (List.mem_filter.2 ⟨?_, decide_eq_true hhost⟩) ha
  · obtain ⟨type, he⟩ := hrooted.half p hp
    rw [← about_append] at he
    exact hfound (mem_of_mem_about he)
  · exact List.mem_flatMap.2 ⟨l, List.mem_of_getElem? hl, hmem⟩

end

/-- All results of a job are tidy, and so are all that are told of. -/
structure Tidy (j : Job) (es : List Event) : Prop where
  results : ∀ q ∈ j.queries, ∀ x ∈ q.results, x.Tidy
  events : ∀ e ∈ es, ∀ x ∈ e.results, x.Tidy

section

variable {τ : Type} {S : Services τ} {settings : JobSettings} {rs : List (Request × Bool)}
  {j : Job} {es : List Event} {c : Cache} {w : τ}

/-- What is fired is what a query has in the end. -/
theorem Life.fired_mem {σ : Type} {S : Services σ} {w : σ} (life : Life S settings rs j es w)
    {k : Nat} {results : List Resolution} (h : Event.fired k results ∈ es) :
    ∃ q ∈ j.queries, q.results = results := by
  have habout := mem_about h rfl
  obtain ⟨ra, q, hra, hq⟩ := life.sound.get_of_mem habout
  have hsound := life.sound.each hra hq
  rw [Nat.zero_add] at hsound
  have hfired : results ∈ firings (about k es) := List.mem_filterMap.2 ⟨_, habout, rfl⟩
  refine ⟨q, List.mem_of_getElem? hq, ?_⟩
  cases hstate : q.state with
  | pending =>
    rw [(hsound.pending hstate).2.2] at hfired
    cases hfired
  | exhausted =>
    rw [(hsound.exhausted hstate).2] at hfired
    cases hfired
  | completed =>
    rw [(hsound.completed hstate).2] at hfired
    split at hfired
    · exact (List.mem_singleton.1 hfired).symm
    · cases hfired

/-- A run adds no results to a query that is not pending. -/
theorem run_results_eq {σ : Type} {S : Services σ} {w : σ} {k : Nat} {q q' : Query}
    (hq : j.queries[k]? = some q) (hne : q.state ≠ .pending)
    (hq' : (run S j w).1.1.queries[k]? = some q') : q'.results = q.results := by
  obtain ⟨qs, hp, -, hcases⟩ := run_passes S j w
  obtain ⟨q₁, hq₁⟩ := hp.get_after hq
  have hkept : q₁.results = q.results := by
    cases hp.each hq hq₁ with
    | still _ results => exact results
    | done was => exact absurd was hne
  rcases hcases with ⟨-, hqs⟩ | ⟨-, hqs⟩
  · rw [hqs, List.getElem?_map, hq₁, Option.map_some, Option.some.injEq] at hq'
    rw [← hq', Query.results_sweep, hkept]
  · rw [hqs, hq₁, Option.some.injEq] at hq'
    rw [← hq', hkept]

theorem probed_tidy (S : Services τ) (j : Job) {c : Cache} {w : τ} (hc : c.Tidy) {k : Nat}
    {key : String} {type : QueryType} {p : Resolution} (hp : Event.probed k key type (some p)
      ∈ (prepare S.withJson.withCache 0 none j.queries (c, w)).2.1) : p.Tidy :=
  ((prepare_follows S.withJson 0 none j.queries (c, w)).tidy hc
    (prepare_storesFit S.withJson.withCache 0 none j.queries (c, w))).2 hp

theorem shares_tidy (life : Life S.withJson.withCache settings rs j es (c, w)) (hc : c.Tidy)
    (h : j.Tidy es) {k : Nat} {x : Resolution} {r : Round (Cache × τ)} {q : Query}
    (hshares : Shares S.withJson.withCache j (c, w) k x r q) : x.Tidy := by
  refine hshares.tidy life fun he => ?_
  rcases List.mem_append.1 he with he | he
  · exact h.events _ he _ List.mem_cons_self
  · exact probed_tidy S j hc he

theorem run_results_tidy (life : Life S.withJson.withCache settings rs j es (c, w)) (hc : c.Tidy)
    (h : j.Tidy es) : ∀ q ∈ (run S.withJson.withCache j (c, w)).1.1.queries, ∀ x ∈ q.results,
      x.Tidy := by
  intro q' hq' x hx
  obtain ⟨k, hk⟩ := List.getElem?_of_mem hq'
  obtain ⟨q, hq⟩ := (run_derived S.withJson.withCache j (c, w)).get_before hk
  by_cases hpend : q.state = .pending
  · cases run_gains life hq hpend hk with
    | found type p _ told results =>
      rw [results, List.mem_singleton] at hx
      exact hx ▸ (probed_tidy S j hc told).hit
    | nothing results =>
      rw [results] at hx
      cases hx
    | answered r q₁ _ results => exact shares_tidy life hc h (results x hx)
  · rw [run_results_eq hq hpend hk] at hx
    exact h.results q (List.mem_of_getElem? hq) x hx

/-- A run over a tidy cache leaves it tidy, and gives and tells tidy results only. -/
theorem run_tidy (life : Life S.withJson.withCache settings rs j es (c, w)) (hc : c.Tidy)
    (h : j.Tidy es) :
    (run S.withJson.withCache j (c, w)).2.2.1.Tidy
      ∧ (run S.withJson.withCache j (c, w)).1.1.Tidy
        (es ++ (run S.withJson.withCache j (c, w)).2.1) := by
  have hstored : StoresFit Resolution.Tidy (run S.withJson.withCache j (c, w)).2.1 := by
    intro k x hx
    obtain ⟨r, q, hshare, -⟩ := run_stored hx
    exact shares_tidy life hc h hshare
  have hresults := run_results_tidy life hc h
  obtain ⟨hcache, hprobed⟩ := (run_follows S.withJson j c w).tidy hc hstored
  refine ⟨hcache, hresults, fun e he x hx => ?_⟩
  cases e with
  | probed k key type found =>
    obtain rfl := Option.mem_toList.1 hx
    rcases List.mem_append.1 he with he | he
    · exact h.events _ he x hx
    · exact hprobed he
  | stored k y =>
    rcases List.mem_append.1 he with he | he
    · exact h.events _ he x hx
    · exact List.mem_singleton.1 hx ▸ hstored k y he
  | fired k results =>
    obtain ⟨q, hq, rfl⟩ := life.ran.fired_mem he
    exact hresults q hq x hx
  | detected | drew | rotated | switched | sent | sampled | asked => cases hx

end

/-! ## Jobs that share a cache -/

/-- A job with the requests it has queued, each with or without a callback, and the events of its
runs. -/
structure Story where
  settings : JobSettings
  requests : List (Request × Bool)
  job : Job
  events : List Event

/-- Queues a request that the job has taken. -/
def Story.queue (t : Story) (r : Request) (armed : Bool) (j : Job) : Story :=
  { t with requests := t.requests ++ [(r, armed)], job := j }

section

variable {τ : Type}

def Story.run (S : Services τ) (t : Story) (s : Cache × τ) : Story :=
  { t with
    job := (Job.run S.withCache t.job s).1.1
    events := t.events ++ (Job.run S.withCache t.job s).2.1 }

/-- What can happen to jobs that share a cache, which is empty at first: they are made, queue
requests and are run, in any order and any number of times. Others may call the cache as long as
they bring nothing into it, and the state outside may change. -/
inductive Sharing (S : Services τ) : List Story → Cache × τ → Prop
  | opened (w : τ) : Sharing S [] ({}, w)
  | made {ts : List Story} {s : Cache × τ} (h : Sharing S ts s) (settings : JobSettings) :
      Sharing S (ts ++ [⟨settings, [], { settings }, []⟩]) s
  | queued (before after : List Story) {t : Story} {s : Cache × τ} {r : Request} {armed : Bool}
      {j : Job} (h : Sharing S (before ++ t :: after) s) (hj : t.job.add r armed = .ok j) :
      Sharing S (before ++ t.queue r armed j :: after) s
  | ran (before after : List Story) {t : Story} {s : Cache × τ}
      (h : Sharing S (before ++ t :: after) s) :
      Sharing S (before ++ t.run S s :: after) (Job.run S.withCache t.job s).2.2
  | called {ts : List Story} {c : Cache} {w : τ} (h : Sharing S ts (c, w)) (op : Cache.Op)
      (hop : op.answer? = none) : Sharing S ts (c.apply op, w)
  | waited {ts : List Story} {c : Cache} {w : τ} (h : Sharing S ts (c, w)) (w' : τ) :
      Sharing S ts (c, w')

namespace Sharing

variable {S : Services τ} {ts : List Story} {s : Cache × τ}

theorem life (h : Sharing S ts s) :
    ∀ t ∈ ts, Life S.withCache t.settings t.requests t.job t.events s := by
  induction h with
  | opened => exact fun t ht => nomatch ht
  | made _ settings ih =>
    simp only [List.forall_mem_append, List.forall_mem_singleton]
    exact ⟨ih, .made _⟩
  | queued _ _ _ hj ih =>
    simp only [List.forall_mem_append, List.forall_mem_cons] at ih ⊢
    exact ⟨ih.1, ih.2.1.queued hj, ih.2.2⟩
  | ran _ _ _ ih =>
    simp only [List.forall_mem_append, List.forall_mem_cons] at ih ⊢
    exact ⟨fun t ht => (ih.1 t ht).waited _, ih.2.1.ran, fun t ht => (ih.2.2 t ht).waited _⟩
  | called _ op _ ih => exact fun t ht => (ih t ht).waited _
  | waited _ w' ih => exact fun t ht => (ih t ht).waited _

theorem kept_tidy {ts : List Story} {s : Cache × τ} (h : Sharing S.withJson ts s) :
    s.1.Tidy ∧ ∀ t ∈ ts, t.job.Tidy t.events := by
  induction h with
  | opened => exact ⟨fun _ he => (nomatch he), fun _ ht => (nomatch ht)⟩
  | made _ settings ih =>
    obtain ⟨hcache, ih⟩ := ih
    refine ⟨hcache, ?_⟩
    simp only [List.forall_mem_append, List.forall_mem_singleton]
    exact ⟨ih, ⟨fun _ hq => (nomatch hq), fun _ he => (nomatch he)⟩⟩
  | @queued before after t s r armed j _ hj ih =>
    obtain ⟨hcache, ih⟩ := ih
    refine ⟨hcache, ?_⟩
    simp only [List.forall_mem_append, List.forall_mem_cons] at ih ⊢
    refine ⟨ih.1, ⟨fun q hq => ?_, ih.2.1.events⟩, ih.2.2⟩
    obtain ⟨-, rfl⟩ := add_eq_ok hj
    rcases List.mem_append.1 hq with hq | hq
    · exact ih.2.1.results q hq
    · rw [List.mem_singleton.1 hq]
      exact fun x hx => nomatch hx
  | @ran before after t s h ih =>
    obtain ⟨hcache, ih⟩ := ih
    have life := h.life t (by simp)
    simp only [List.forall_mem_append, List.forall_mem_cons] at ih ⊢
    obtain ⟨hcache', htidy⟩ := run_tidy life hcache ih.2.1
    exact ⟨hcache', ih.1, htidy, ih.2.2⟩
  | called _ op hop ih =>
    refine ⟨ih.1.apply fun x hx => ?_, ih.2⟩
    rw [hop] at hx
    cases hx
  | waited _ w' ih => exact ih

end Sharing

/-- Whatever happens to jobs that read JSON bodies and share a cache, which is empty at first: each
entry of the cache is tidy, and so is each result that a job has, caches, finds or hands to a
callback; no cache refuses what is cached for want of a key. -/
theorem sharing_tidy {S : Services τ} {ts : List Story} {s : Cache × τ}
    (h : Sharing S.withJson ts s) : (∀ e ∈ s.1.entries, e.2.Tidy)
      ∧ ∀ t ∈ ts, (∀ q ∈ t.job.queries, ∀ x ∈ q.results, x.Tidy)
        ∧ (∀ e ∈ t.events, ∀ x ∈ e.results, x.Tidy)
        ∧ ∀ {k x}, Event.stored k x ∈ t.events → ∀ c : Cache,
          (c.update x).entries
              = c.entries.put x.cacheKey (Cache.renewed x (c.entries.get? x.cacheKey))
            ∧ c.add x ≠ .error (.emptyKey x.host) := by
  obtain ⟨hcache, htidy⟩ := h.kept_tidy
  refine ⟨hcache, fun t ht => ⟨(htidy t ht).results, (htidy t ht).events, fun hx c => ?_⟩⟩
  have hkey := ((htidy t ht).events _ hx _ List.mem_cons_self).cacheKey_ne_empty
  refine ⟨by rw [Cache.entries_update, if_neg hkey], ?_⟩
  rw [Cache.add, if_neg hkey]
  split <;> simp

end

/-- A reply that names no host, and an address twice beside an empty one. -/
theorem sharing_tidy_untidy_reply :
    let body := "\x7b\"ips\":[\"\",\"192.0.2.1\",\"192.0.2.1\"],\"ttl\":60\x7d"
    let S := Services.steady (fun _ => none) (fun _ => .ok ⟨statusOk, body, 8⟩) fun _ => none
    let settings : JobSettings := ⟨1, "", "", 0⟩
    let t : Story := ⟨settings, [(askPlain, true)], holding settings [(askPlain, true)], []⟩
    let x : Resolution :=
      { host := "a.com", cacheKey := "a.com", ips := [⟨"192.0.2.1", none⟩], ttl := 60 }
    ∃ s, Sharing S.withJson [t.run S.withJson ({}, ())] s
      ∧ Event.stored 0 x ∈ (t.run S.withJson ({}, ())).events
      ∧ s.1.entries = [("a.com", x)] ∧ ∀ e ∈ s.1.entries, e.2.Tidy := by
  intro body S settings t x
  have hqueued : Sharing S.withJson [t] ({}, ()) :=
    .queued [] [] (.made (.opened ()) settings) (add_ok _ true (by decide))
  have hran := hqueued.ran [] []
  exact ⟨_, hran, by decide +kernel, by decide +kernel, (sharing_tidy hran).1⟩

end Job

end HttpDns
