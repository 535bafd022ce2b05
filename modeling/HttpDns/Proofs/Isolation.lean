import HttpDns.Proofs.Freshness
import HttpDns.Proofs.Halves
import HttpDns.Proofs.Lone

/-!
# Keys that share a round

The answers of a round are pooled host by host, whatever key the request of an exchange has for the
host. So each family of a result is that of the first answer of the round for its host that carries
the family; if no answer does, it is the one that look-ups found under the result's own key, and
empty without one (`run_sources`). Requests of one run for the same host under different keys are
therefore not kept apart (`stored_across_keys`), unless no round has answers under two keys for one
host.
-/

namespace HttpDns

open Resolution (firstNonEmpty firstNonEmpty_eq_find?)

/-! ## What answers carry of a family -/

namespace Family

/-- The answer has an address of the family. -/
def Carries (f : Family) (a : Answer) : Prop :=
  ∃ addr ∈ f.told a, addr ≠ ""

instance (f : Family) : DecidablePred f.Carries := fun a =>
  inferInstanceAs (Decidable (∃ addr ∈ f.told a, addr ≠ ""))

theorem distinctAddrs_told_ne_nil {f : Family} {a : Answer} :
    distinctAddrs (f.told a) ≠ [] ↔ f.Carries a := by
  constructor
  · intro hne
    obtain ⟨e, he⟩ := List.exists_mem_of_ne_nil _ hne
    obtain ⟨addr, haddr, -⟩ := List.mem_map.1 he
    obtain ⟨hmem, hgiven⟩ := List.mem_filter.1 (List.mem_eraseDups.1 haddr)
    exact ⟨addr, hmem, of_decide_eq_true hgiven⟩
  · rintro ⟨addr, hmem, hgiven⟩
    have hkept : addr ∈ (f.told a).filter (· ≠ "") :=
      List.mem_filter.2 ⟨hmem, decide_eq_true hgiven⟩
    exact List.ne_nil_of_mem (List.mem_map_of_mem (List.mem_eraseDups.2 hkept))

/-- What answers supply of a family for a host is what the first one for it that carries the family
has of it. -/
theorem firstNonEmpty_told (f : Family) (host : String) (answers : List Answer) :
    firstNonEmpty ((answers.filter (·.host = host)).map fun a => distinctAddrs (f.told a))
      = ((answers.find? fun a => a.host = host ∧ f.Carries a).map
          fun a => distinctAddrs (f.told a)).getD [] := by
  rw [firstNonEmpty_eq_find?, List.find?_map, List.find?_filter]
  simp [distinctAddrs_told_ne_nil]

theorem kept_gather (f : Family) (own : List Answer) (hit : Option Resolution) (key : String)
    (now : Nat) (host : String) : f.kept (gather own hit key now host)
      = firstNonEmpty (own.map (fun a => distinctAddrs (f.told a))
          ++ ((spare hit key).map f.kept).toList) := by
  cases f <;> rfl

end Family

theorem mem_addrs_distinctAddrs {addrs : List String} {a : String}
    (h : a ∈ (distinctAddrs addrs).addrs) : a ∈ addrs := by
  unfold distinctAddrs Endpoints.addrs at h
  rw [List.map_map] at h
  obtain ⟨b, hb, rfl⟩ := List.mem_map.1 h
  exact List.mem_of_mem_filter (List.mem_eraseDups.1 hb)

namespace Job

/-- The first of the pooled answers that fits stands in the first landing that has one, before the
others of it. -/
theorem of_find?_poolOf {fits : Answer → Bool} {ls : List Landing} {b : Answer}
    (h : (poolOf ls).find? fits = some b) :
    ∃ (i : Nat) (l : Landing) (before after : List Answer), ls[i]? = some l
      ∧ l.answers = before ++ b :: after ∧ fits b = true
      ∧ (∀ b' ∈ before, fits b' = false)
      ∧ ∀ i' < i, ∀ l' : Landing, ls[i']? = some l' → ∀ b' ∈ l'.answers, fits b' = false := by
  rw [poolOf, List.find?_flatMap, List.findSome?_eq_some_iff] at h
  obtain ⟨earlier, l, later, rfl, hl, hearlier⟩ := h
  obtain ⟨hfits, before, after, hanswers, hbefore⟩ := List.find?_eq_some_iff_append.1 hl
  refine ⟨earlier.length, l, before, after, by simp, hanswers, hfits, by simpa using hbefore,
    fun i' hi' l' hl' b' hb' => ?_⟩
  rw [List.getElem?_append_left hi'] at hl'
  exact Bool.eq_false_iff.2 (List.find?_eq_none.1 (hearlier l' (List.mem_of_getElem? hl')) b' hb')

/-! ## Where a family comes from -/

variable {τ : Type}

/-- An entry was under a key when a query of a job asked the cache: in the present run, which finds
this cache, or in an earlier one. -/
def WasCached (es : List Event) (c : Cache) (k : Nat) (key : String) (p : Resolution) : Prop :=
  p.cacheKey = key ∧ ((∃ e, c.entries.get? key = some e ∧ e.Advances p)
    ∨ ∃ type own, Event.probed k own type (some p) ∈ es)

/-- A look-up for the query at a position found this. -/
def Found (es : List Event) (k : Nat) (p : Resolution) : Prop :=
  ∃ key type, Event.probed k key type (some p) ∈ es

/-- No answer of a round for a host carries the family. -/
def Round.Lacks {σ : Type} (S : Services σ) (settings : JobSettings) (r : Round σ) (f : Family)
    (host : String) : Prop :=
  ∀ i b, r.Gives S settings i b → b.host = host → ¬ f.Carries b

/-- Where a family of a result comes from that a query gets in a round: the first answer of the
round for the result's host that carries it, in the order of the exchanges and of the answers of a
reply. If no answer does, it is what a look-up for the query found under the result's key, and empty
if none found any. -/
inductive Sourced (S : Services (Cache × τ)) (j : Job) (es : List Event) (c : Cache) (w : τ)
    (r : Round (Cache × τ)) (k : Nat) (x : Resolution) (f : Family) : Prop
  | carried (i : Nat) (before : List Answer) (b : Answer) (after : List Answer)
      (reply : r.Replies S j.settings i (before ++ b :: after)) (gives : r.Gives S j.settings i b)
      (host : b.host = x.host) (carries : f.Carries b) (whole : f.kept x = distinctAddrs (f.told b))
      (first : ∀ b', b' ∈ before ∨ (∃ i' < i, r.Gives S j.settings i' b') → b'.host = x.host →
        ¬ f.Carries b')
  | cached (lacks : r.Lacks S j.settings f x.host) (p : Resolution)
      (found : Found (es ++ (run S j (c, w)).2.1) k p) (was : WasCached es c k x.cacheKey p)
      (holds : f.kept p ≠ []) (whole : f.kept x = f.kept p)
  | lacking (lacks : r.Lacks S j.settings f x.host)
      (unfound : ∀ p, Found (es ++ (run S j (c, w)).2.1) k p → p.cacheKey = x.cacheKey →
        f.kept p = [])
      (empty : f.kept x = [])

section

variable {S : Services τ} {settings : JobSettings} {rs : List (Request × Bool)} {j : Job}
  {es : List Event} {c : Cache} {w : τ} {r : Round (Cache × τ)}

/-- What a look-up finds as a run is prepared was in the cache before the run. -/
theorem found_before (hc : c.WellKept) {seen : Option Stack} {i k : Nat} {qs : List Query}
    {key : String} {type : QueryType} {p : Resolution}
    (h : Event.probed k key type (some p) ∈ (prepare S.withCache i seen qs (c, w)).2.1) :
    p.cacheKey = key ∧ ∃ e, c.entries.get? key = some e ∧ e.Advances p := by
  have hfollows := prepare_follows S i seen qs (c, w)
  have hstores : StoresFit (·.cacheKey ≠ key) (prepare S.withCache i seen qs (c, w)).2.1 :=
    prepare_storesFit S.withCache i seen qs (c, w)
  obtain ⟨before, after, hes⟩ := List.append_of_mem h
  rw [hes] at hfollows hstores
  obtain ⟨c₁, hbefore, hafter⟩ := hfollows.split
  cases hafter with
  | cons now found =>
    have hget := (Cache.lookup_eq_some (found rfl).symm).1
    refine ⟨((hbefore.wellKept hc).of_get? hget).1, ?_⟩
    exact hbefore.advanced hc (storesFit_append.1 hstores).1 p hget

/-- What a look-up for a query has found, in a run or before it, was in the cache. -/
theorem Found.wasCached (hc : c.WellKept) {k : Nat} {p : Resolution}
    (h : Found (es ++ (run S.withCache j (c, w)).2.1) k p) : WasCached es c k p.cacheKey p := by
  obtain ⟨key, type, he⟩ := h
  rcases List.mem_append.1 he with he | he
  · exact ⟨rfl, .inr ⟨type, key, he⟩⟩
  · obtain ⟨rfl, hentry⟩ := found_before hc (mem_of_mem_about (prepared_of_probed he).1)
    exact ⟨rfl, .inl hentry⟩

theorem spare_eq_some_iff {hit : Option Resolution} {key : String} {p : Resolution} :
    spare hit key = some p ↔ hit = some p ∧ p.cacheKey = key := by
  unfold spare
  cases hit with
  | none => simp
  | some p' =>
    simp only [Option.ite_none_right_eq_some, Option.some.injEq]
    constructor
    · rintro ⟨hkey, rfl⟩
      exact ⟨rfl, hkey⟩
    · rintro ⟨rfl, hkey⟩
      exact ⟨hkey, rfl⟩

/-- What fills the gaps of the result of a pending query under a key is what was found for it. -/
theorem InRun.spare_iff (hr : InRun S.withCache j (c, w) r)
    (life : Life S.withCache settings rs j es (c, w)) {k : Nat} {q : Query}
    (hq : r.queries[k]? = some q) (hpend : q.state = .pending) {key : String} {p : Resolution} :
    spare q.partialHit key = some p
      ↔ Found (es ++ (run S.withCache j (c, w)).2.1) k p ∧ p.cacheKey = key := by
  rw [spare_eq_some_iff]
  refine and_congr_left' ⟨fun hhit => ?_, fun ⟨_, _, he⟩ => hr.carries life hq hpend he⟩
  obtain ⟨ra, -, hrooted⟩ := hr.rooted life hq hpend
  obtain ⟨type, he⟩ := hrooted.half p hhit
  refine ⟨q.ownKey, type, ?_⟩
  rcases List.mem_append.1 he with he | he
  · exact List.mem_append_left _ (mem_of_mem_about he)
  · exact List.mem_append_right _ (mem_run_of_mem_prepare (mem_of_mem_about he))

/-- Each family of a share comes from the round or from under its own key. -/
theorem Shares.sourced (life : Life S.withCache settings rs j es (c, w)) (hc : c.WellKept)
    {k : Nat} {x : Resolution} {q : Query} (h : Shares S.withCache j (c, w) k x r q) (f : Family) :
    Sourced S.withCache j es c w r k x f := by
  have hkept : f.kept x = firstNonEmpty
      (((poolOf (r.landings S.withCache j.settings)).filter (·.host = x.host)).map
          (fun a => distinctAddrs (f.told a))
        ++ ((spare q.partialHit x.cacheKey).map f.kept).toList) := by
    rw [h.cacheKey_eq, ← f.kept_gather _ _ _ (r.instant S.withCache j.settings) x.host]
    exact congrArg f.kept h.eq_portion
  rw [firstNonEmpty_append, f.firstNonEmpty_told] at hkept
  -- the first answer of the pool that fits, if there is one, is where the family comes from
  cases hfind : (poolOf (r.landings S.withCache j.settings)).find?
      fun a => a.host = x.host ∧ f.Carries a with
  | some b =>
    obtain ⟨i, l, before, after, hl, hanswers, hfits, hbefore, hearlier⟩ := of_find?_poolOf hfind
    obtain ⟨hhost, hcarries⟩ := of_decide_eq_true hfits
    have hmem : b ∈ l.answers := by simp [hanswers]
    have hwhole : distinctAddrs (f.told b) ≠ [] := Family.distinctAddrs_told_ne_nil.2 hcarries
    refine .carried i before b after ?_ ((r.mem_answers hl).1 hmem) hhost hcarries ?_ ?_
    · rw [← hanswers]
      exact r.replies_of_answers hl (List.ne_nil_of_mem hmem)
    · rw [hfind, Option.map_some, Option.getD_some] at hkept
      exact hkept.trans (if_neg (by simpa using hwhole))
    · rintro b' (hb' | ⟨i', hi', hb'⟩) hhost' hcarries'
      · exact absurd (hbefore b' hb') (by simp [hhost', hcarries'])
      · obtain ⟨l', hl', hmem'⟩ := hb'.landing
        exact absurd (hearlier i' hi' l' hl' b' hmem') (by simp [hhost', hcarries'])
  | none =>
    have hlacks : r.Lacks S.withCache j.settings f x.host := by
      intro i b hb hhost hcarries
      obtain ⟨l, hl, hmem⟩ := hb.landing
      have hpool : b ∈ poolOf (r.landings S.withCache j.settings) :=
        List.mem_flatMap.2 ⟨l, List.mem_of_getElem? hl, hmem⟩
      exact absurd (List.find?_eq_none.1 hfind b hpool) (by simp [hhost, hcarries])
    rw [hfind] at hkept
    have hspare : ∀ p, spare q.partialHit x.cacheKey = some p
        ↔ Found (es ++ (run S.withCache j (c, w)).2.1) k p ∧ p.cacheKey = x.cacheKey :=
      fun p => h.inRun.spare_iff life h.query h.pending
    cases hs : spare q.partialHit x.cacheKey with
    | none =>
      rw [hs] at hkept
      refine .lacking hlacks (fun p hp hkey => ?_) hkept
      rw [(hspare p).2 ⟨hp, hkey⟩] at hs
      cases hs
    | some p =>
      obtain ⟨hfound, hkey⟩ := (hspare p).1 hs
      rw [hs] at hkept
      by_cases hholds : f.kept p = []
      · refine .lacking hlacks (fun p' hp' hkey' => ?_) (hkept.trans hholds)
        obtain rfl := Option.some.inj (hs.symm.trans ((hspare p').2 ⟨hp', hkey'⟩))
        exact hholds
      · exact .cached hlacks p hfound (hkey ▸ hfound.wasCached hc) hholds hkept

end

/-! ## Runs -/

section

variable (S : Services (Cache × τ)) (rs : List (Request × Bool)) (j : Job) (es : List Event)
  (c : Cache) (w : τ)

/-- A run caches a result for a query, or hands it to one that was pending. -/
def Produces (k : Nat) (x : Resolution) : Prop :=
  Event.stored k x ∈ (run S j (c, w)).2.1
    ∨ ∃ q q', j.queries[k]? = some q ∧ q.state = .pending
      ∧ (run S j (c, w)).1.1.queries[k]? = some q' ∧ x ∈ q'.results

/-- Each address of a result belongs to its key: it was carried by the reply to an exchange of a
request that has this key for the answered host, or it was cached under the key before the run. -/
def Isolated (k : Nat) (x : Resolution) : Prop :=
  ∀ (f : Family), ∀ a ∈ (f.kept x).addrs,
    (∃ r i b ra, InRun S j (c, w) r ∧ rs[i]? = some ra ∧ r.Gives S j.settings i b
        ∧ a ∈ f.told b ∧ ra.1.cacheKeyFor b.host = x.cacheKey)
      ∨ ∃ p, WasCached es c k x.cacheKey p ∧ a ∈ (f.kept p).addrs

/-- No round of a run has answers for one host under two keys. -/
def KeyedAlike : Prop :=
  ∀ r, InRun S j (c, w) r → ∀ i i' b b' ra ra', r.Gives S j.settings i b →
    r.Gives S j.settings i' b' → b'.host = b.host → rs[i]? = some ra → rs[i']? = some ra' →
      ra'.1.cacheKeyFor b.host = ra.1.cacheKeyFor b.host

/-- Where a result of a request comes from: a look-up found all of it under the request's key and
nothing is answered for the request, or its families come from the round in which the request was
answered for the result's host. -/
inductive Origin (ra : Request) (k : Nat) (x : Resolution) : Prop
  | hit (p : Resolution) (key : x.cacheKey = ra.cacheKeyFor ra.host)
      (found : Found (run S j (c, w)).2.1 k p) (was : WasCached es c k x.cacheKey p)
      (same : x = { p with hitCache := true })
      (unsent : ∀ r, InRun S j (c, w) r → ∀ b, ¬ r.Gives S j.settings k b)
  | round (r : Round (Cache × τ)) (inRun : InRun S j (c, w) r)
      (key : x.cacheKey = ra.cacheKeyFor x.host)
      (own : ∃ b, r.Gives S j.settings k b ∧ b.host = x.host)
      (families : ∀ f, Sourced S j es c w r k x f)

end

section

variable {S : Services τ} {settings : JobSettings} {rs : List (Request × Bool)} {j : Job}
  {es : List Event} {c : Cache} {w : τ} {r : Round (Cache × τ)} {k : Nat} {x : Resolution}

theorem Shares.origin (life : Life S.withCache settings rs j es (c, w)) (hc : c.WellKept)
    {q : Query} (h : Shares S.withCache j (c, w) k x r q) :
    ∃ ra, rs[k]? = some ra ∧ Origin S.withCache j es c w ra.1 k x := by
  obtain ⟨ra, hra, hrooted⟩ := h.inRun.rooted life h.query h.pending
  have hkey : x.cacheKey = ra.1.cacheKeyFor x.host := by
    rw [h.cacheKey_eq, hrooted.stems.cacheKeyFor_eq]
  exact ⟨ra, hra, .round r h.inRun hkey h.given (h.sourced life hc)⟩

theorem Produces.origin (life : Life S.withCache settings rs j es (c, w)) (hc : c.WellKept)
    (h : Produces S.withCache j c w k x) :
    ∃ ra, rs[k]? = some ra ∧ Origin S.withCache j es c w ra.1 k x := by
  rcases h with h | ⟨q, q', hq, hpend, hq', hx⟩
  · obtain ⟨r, q, hshares, -⟩ := run_stored h
    exact hshares.origin life hc
  · cases run_gains life hq hpend hq' with
    | found type p state told results unsent =>
      obtain ⟨ra, hra⟩ := life.rooted.get_before hq
      obtain ⟨hkey, hentry⟩ := found_before hc told
      rw [results, List.mem_singleton] at hx
      subst hx
      refine ⟨ra, hra, .hit p ?_ ⟨_, type, mem_run_of_mem_prepare told⟩ ⟨rfl, .inl ?_⟩ rfl unsent⟩
      · exact hkey.trans (life.rooted.each hra hq).stems.ownKey_eq
      · rw [← hkey] at hentry
        exact hentry
    | nothing results =>
      rw [results] at hx
      cases hx
    | answered r q₁ state results => exact (results x hx).origin life hc

theorem Origin.isolated (life : Life S.withCache settings rs j es (c, w))
    (hkeys : KeyedAlike S.withCache rs j c w) {ra : Request × Bool} (hra : rs[k]? = some ra)
    (h : Origin S.withCache j es c w ra.1 k x) : Isolated S.withCache rs j es c w k x := by
  intro f a ha
  cases h with
  | hit p key found was same =>
    refine .inr ⟨p, was, ?_⟩
    rw [same] at ha
    cases f <;> exact ha
  | round r inRun key own families =>
    cases families f with
    | carried i before b after reply gives host carries whole =>
      obtain ⟨q, hq, hrun⟩ := gives.query
      obtain ⟨ra', hra', -⟩ := inRun.rooted life hq (Query.isRunnable_iff.1 hrun).1
      obtain ⟨b₀, hown, hhost⟩ := own
      have hsame := hkeys r inRun k i b₀ b ra ra' hown gives (host.trans hhost.symm) hra hra'
      refine .inl ⟨r, i, b, ra', inRun, hra', gives, ?_, ?_⟩
      · rw [whole] at ha
        exact mem_addrs_distinctAddrs ha
      · rw [host, ← hhost, hsame, key, hhost]
    | cached lacks p found was holds whole => exact .inr ⟨p, was, by rw [← whole]; exact ha⟩
    | lacking lacks unfound hnil =>
      rw [hnil] at ha
      cases ha

/-- Each family of what a run caches or reports under a key is, as a whole, that of the first answer
of the round for the result's host that carries it, whatever the key of its request; if there is
none, it is what was found cached under the key, or else empty. Where no round has answers for one
host under two keys, all addresses belong to their key. -/
theorem run_sources (life : Life S.withCache settings rs j es (c, w)) (hc : c.WellKept)
    (h : Produces S.withCache j c w k x) :
    (∃ ra, rs[k]? = some ra ∧ Origin S.withCache j es c w ra.1 k x)
      ∧ (KeyedAlike S.withCache rs j c w → Isolated S.withCache rs j es c w k x) := by
  obtain ⟨ra, hra, horigin⟩ := h.origin life hc
  exact ⟨⟨ra, hra, horigin⟩, fun hkeys => horigin.isolated life hkeys hra⟩

end

/-! ## Two keys for one host -/

/-- Two servers that give a host different addresses. -/
def divided : Services Unit :=
  .steady (fun _ => none) (fun e => .ok ⟨statusOk, e.server, 8⟩) fun body =>
    some { host := "a.com", ips := [if body = "203.0.113.1" then "192.0.2.1" else "192.0.2.2"],
           ttl := 60 }

def askUnder (key server : String) : Request :=
  { host := "a.com", accountId := "100000", resolver := some server, queryType := .a
    cacheKey := some key }

def twoKeys : List (Request × Bool) :=
  [(askUnder "k1" "203.0.113.1", true), (askUnder "k2" "203.0.113.2", true)]

def dividedJob : Job :=
  holding ⟨2, "", "", 0⟩ twoKeys

theorem life_dividedJob (w : Cache × Unit) :
    Life divided.withCache dividedJob.settings twoKeys dividedJob [] w :=
  .holding (by decide) w

/-- What the run reports for the second request and caches under its key. -/
def crossed : Resolution :=
  { host := "a.com", cacheKey := "k2", ips := [⟨"192.0.2.1", none⟩], ttl := 60 }

theorem wellKept_empty : ({} : Cache).WellKept := Cache.run_wellKept []

theorem produces_crossed : Produces divided.withCache dividedJob {} () 1 crossed :=
  .inl (by decide +kernel)

/-- Both requests are answered in one round, and the second one gets what the first exchange of the
round gives. -/
theorem run_sources_crossed :
    ({} : Cache).WellKept ∧ Produces divided.withCache dividedJob {} () 1 crossed
      ∧ Origin divided.withCache dividedJob [] {} () (askUnder "k2" "203.0.113.2") 1 crossed := by
  obtain ⟨⟨ra, hra, horigin⟩, -⟩ := run_sources (life_dividedJob _) wellKept_empty produces_crossed
  obtain rfl : (askUnder "k2" "203.0.113.2", true) = ra := Option.some.inj hra
  exact ⟨wellKept_empty, produces_crossed, horigin⟩

/-- The address that the first server gives for the first key is cached under the second one,
although no reply to a request of that key carries it and nothing was cached before. -/
theorem stored_across_keys :
    Life divided.withCache dividedJob.settings twoKeys dividedJob [] ({}, ())
      ∧ ({} : Cache).WellKept
      ∧ Event.stored 1 crossed ∈ (run divided.withCache dividedJob ({}, ())).2.1
      ∧ ¬ Isolated divided.withCache twoKeys dividedJob [] {} () 1 crossed := by
  refine ⟨life_dividedJob _, wellKept_empty, by decide +kernel, fun h => ?_⟩
  rcases h .ipv4 "192.0.2.1" (by decide) with ⟨r, i, b, ra, hr, hra, hb, ha, hkey⟩ | ⟨p, hp, -⟩
  · obtain rfl := hr.eq_firstRound fun hsent => hsent rfl
    obtain ⟨l, hl, hmem⟩ := hb.landing
    match i with
    | 0 =>
      obtain rfl : (askUnder "k1" "203.0.113.1", true) = ra := Option.some.inj hra
      have hkeys : "k1" = "k2" := hkey
      exact absurd hkeys (by decide)
    | 1 =>
      obtain rfl : ⟨1, _, .answered _ [{ host := "a.com", ips := ["192.0.2.2"], ttl := 60 }]⟩ = l :=
        Option.some.inj hl
      obtain rfl := List.mem_singleton.1 hmem
      exact absurd ha (by decide)
    | i + 2 => cases hra
  · rcases hp.2 with ⟨e, hget, -⟩ | ⟨type, own, he⟩
    · cases hget
    · cases he

end Job

end HttpDns
