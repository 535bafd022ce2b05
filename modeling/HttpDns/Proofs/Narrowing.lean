import HttpDns.Proofs.Confinement
import HttpDns.Proofs.Reuse
import HttpDns.Proofs.Verifying

/-!
# Half of an answer from the cache

A request for both families that finds one of them cached asks its servers for the other one only.
If it is answered under the cached key, the cached family fills the gap that the round leaves, and
the answer is cached under that key; if it is not, it has no result, also of the family that was
cached, and has done nothing to the cache. The request is then exhausted, unless the run is refused
for another one, which leaves it pending (`half_left_pending`). A later run that finds it pending
looks up the other family; unless that completes it, the request fares as in the first run, with the
half that was found then (`run_narrowed`).
-/

namespace HttpDns

open Resolution (firstNonEmpty)

/-- The query has been completed with a result from the cache. -/
def Query.FromCache (q : Query) : Prop :=
  q.state = .completed ∧ ∃ x ∈ q.results, x.hitCache = true

/-! ## What leaves the entries alone -/

namespace Cache

/-- A look-up that finds an entry leaves all entries as they are. -/
theorem entries_lookup_of_found {c : Cache} {key : String} {type : QueryType} {now : Nat}
    {p : Resolution} (h : (c.lookup key type now).1 = some p) :
    (c.lookup key type now).2.entries = c.entries := by
  obtain ⟨hget, hlive⟩ := lookup_eq_some h
  have hnot : p.isExpiredAt now = false := decide_eq_false (Nat.not_le.2 hlive)
  rw [entries_lookup, hget, Option.any_some, hnot]
  rfl

end Cache

/-- On whatever cache it is told of, the event leaves all entries as they are. -/
def Event.Spares (e : Event) : Prop :=
  ∀ (c : Cache) (now : Nat),
    (∀ {k key type x}, e = .probed k key type x → x = (c.lookup key type now).1) →
      (c.heed now e).entries = c.entries

theorem Event.spares_of_key? {e : Event} (h : e.key? = none) : e.Spares := by
  intro c now _
  cases e <;> first | rfl | cases h

theorem Event.spares_probed (k : Nat) (key : String) (type : QueryType) (p : Resolution) :
    (Event.probed k key type (some p)).Spares :=
  fun _ _ found => Cache.entries_lookup_of_found (found rfl).symm

/-- On whatever cache it is told of, the event leaves all entries as they are, or drops the one
under the key, which has expired. -/
def Event.SparesLive (key : String) (e : Event) : Prop :=
  ∀ (c : Cache) (now : Nat),
    (∀ {k key type x}, e = .probed k key type x → x = (c.lookup key type now).1) →
      (c.heed now e).entries = c.entries
        ∨ (∃ x, c.entries.get? key = some x ∧ x.isExpiredAt now = true)
          ∧ (c.heed now e).entries = c.entries.erase key

theorem Event.Spares.live {e : Event} (h : e.Spares) (key : String) : e.SparesLive key :=
  fun c now found => .inl (h c now found)

theorem Event.sparesLive_probed (k : Nat) (key : String) (type : QueryType)
    (found : Option Resolution) : (Event.probed k key type found).SparesLive key := by
  intro c now _
  have hentries : (c.heed now (.probed k key type found)).entries = _ :=
    Cache.entries_lookup c key type now
  rw [hentries]
  split
  · rename_i hany
    obtain ⟨x, hget, hexpired⟩ := (Option.any_eq_true _ _).1 hany
    exact .inr ⟨⟨x, hget, hexpired⟩, rfl⟩
  · exact .inl rfl

/-! ## What a URL asks for -/

namespace Url

/-- The URL goes to a server, and what is read from it asks for this type and no other. -/
def AsksFor (url server : String) (type : QueryType) : Prop :=
  ∃ https tail t,
    url = schemeName https ++ "://" ++ formatServer server ++ "/" ++ String.ofList tail
      ∧ readTail tail = some t
      ∧ t.params.filter (·.1 = "query") = [("query", [type.wireToken])]

theorem filter_query (sender : Sender) (r : Request) (type : QueryType) (now : Nat) :
    (heard sender r type now).params.filter (·.1 = "query") = [("query", [type.wireToken])] := by
  have hextra : (r.sdns.map fun pair => ("sdns-" ++ pair.1, [pair.2])).filter (·.1 = "query")
      = [] := by
    refine List.filter_eq_nil_iff.2 fun x hx hname => ?_
    obtain ⟨pair, -, rfl⟩ := List.mem_map.1 hx
    have hquery : "sdns-" ++ pair.1 = "query" := of_decide_eq_true hname
    refine sdns_not_mem_fixedNames pair.1 ?_
    rw [hquery]
    decide
  have htold : (told sender r type now).params.filter (·.1 = "query")
      = [("query", [type.wireToken])] := by
    unfold told
    rw [List.filter_append, List.filter_append, List.filter_append, List.filter_append, hextra]
    cases signature? sender r now <;> cases sentIp? r <;> simp
  -- what is heard differs from what is told in the hosts at most
  exact htold

theorem resolve_asksFor (sender : Sender) (r : Request) (server : String) (type : QueryType)
    (now : Nat) : AsksFor (resolve sender r server type now) server type :=
  ⟨_, _, _, rfl, readTail_eq_heard sender r type now, filter_query sender r type now⟩

end Url

namespace Job

/-! ## What goes out for a query -/

section

variable {σ : Type} {S : Services σ} {j : Job} {w : σ} {r : Round σ} {k : Nat}

/-- This goes out for the query at a position in a round. -/
def Round.GoesOut (S : Services σ) (settings : JobSettings) (r : Round σ) (k : Nat)
    (out : Outgoing) : Prop :=
  ∃ seat, (r.seats S settings)[k]? = some seat ∧ seat.out = some out

theorem goesOut_of_sent {round : Nat} {batch : List (Nat × Exchange)}
    (hsent : Event.sent round batch ∈ (run S j w).2.1) {e : Exchange} (he : (k, e) ∈ batch) :
    ∃ r out, InRun S j w r ∧ r.GoesOut S j.settings k out ∧ out.exchange = e := by
  obtain ⟨r, hr, heq⟩ := mem_batches_run.1 (List.mem_filterMap.2 ⟨_, hsent, rfl⟩)
  cases heq
  obtain ⟨seat, out, hs, ho, rfl⟩ := mem_manifest_seats.1 he
  exact ⟨r, out, hr, ⟨seat, hs, ho⟩, rfl⟩

/-- What goes out for a query is sent with the type that the query was prepared with, and its URL
asks for that. -/
theorem Round.GoesOut.of_prepared {out : Outgoing} (h : r.GoesOut S j.settings k out)
    (hr : InRun S j w r) : ∃ q, (prepare S 0 none j.queries w).1.1[k]? = some q
      ∧ q.state = .pending ∧ out.request.queryType = q.queryType
      ∧ Url.AsksFor out.exchange.url out.exchange.server q.queryType := by
  obtain ⟨seat, hs, ho⟩ := h
  obtain ⟨q₁, hq₁⟩ := (r.seats_pass S j.settings).get_before hs
  have hboard := (r.seats_pass S j.settings).each hq₁ hs
  obtain ⟨hrun, hgoes⟩ := hboard.of_out ho
  obtain ⟨server, attempts, failed, hseated⟩ := hboard.carry_eq
  have hpend := (Query.isRunnable_iff.1 hrun).1
  have ⟨_, hpass⟩ := hr.reached.passes
  obtain ⟨q, hq⟩ := hpass.get_before hq₁
  obtain ⟨server₁, attempts₁, failed₁, rfl⟩ := hr.reached.carried hq hq₁ hpend
  obtain ⟨addr, -, rfl⟩ := Option.map_eq_some_iff.1 hgoes
  have htype : seat.query.queryType = q.queryType := by
    rw [hseated]
    rfl
  exact ⟨q, hq, hpend, htype, htype ▸ Url.resolve_asksFor _ _ _ _ _⟩

end

/-! ## A query that is narrowed -/

section

variable {i : Nat} {q q' : Query} {es : List Event} {key : String} {p : Resolution} {f : Family}

/-- A half found for both families narrows the query to the other one, and nothing else is asked of
the cache for it. -/
theorem Probed.narrows (h : Probed i q q' es) (hp : p.Half f)
    (he : Event.probed i key .both (some p) ∈ es) :
    q.usesProbe = true ∧ q' = { q with queryType := f.other.asked, partialHit := some p }
      ∧ calls es = [.probed i key .both (some p)] := by
  cases h with
  | skipped => cases he
  | missed => simp at he
  | whole huses r hr =>
    rcases List.mem_append.1 he with he | he
    · obtain ⟨-, hboth, rfl⟩ : key = q.ownKey ∧ .both = q.queryType ∧ p = r := by simpa using he
      rw [← hboth, hp.missing] at hr
      cases hr
    · have hnone := key?_callback he
      cases hnone
  | half huses r type hr =>
    obtain ⟨rfl, hboth, rfl⟩ : key = q.ownKey ∧ .both = q.queryType ∧ p = r := by simpa using he
    rw [← hboth, hp.missing] at hr
    cases hr
    refine ⟨huses, rfl, ?_⟩
    rw [← hboth]
    rfl

theorem Served.calls_eq (h : Served i q q' es) : calls es = [] := by
  cases h <;> rfl

/-- A pending query has one family at hand, from the cache, and asks for the other one. -/
structure Holds (q : Query) (p : Resolution) (f : Family) : Prop where
  state : q.state = .pending
  results : q.results = []
  queryType : q.queryType = f.other.asked
  hit : q.partialHit = some p

/-- The pass that prepares the query finds one family of it under the key, which narrows it to the
other one. -/
structure Halved (i : Nat) (q q' : Query) (es : List Event) (key : String) (p : Resolution)
    (f : Family) : Prop where
  usesProbe : q.usesProbe = true
  holds : Holds q' p f
  asked : calls es = [.probed i key .both (some p)]

theorem Prepared.halved (h : Prepared i q q' es) (hp : p.Half f)
    (he : Event.probed i key .both (some p) ∈ es) (hnil : q.state = .pending → q.results = []) :
    Halved i q q' es key p f := by
  cases h with
  | passed => cases he
  | @readied hpend q₁ q₂ _ es fs served typed probed =>
    -- A drawn server is no use of the cache, so that the look-up is the one of the probe.
    have hfs : Event.probed i key .both (some p) ∈ fs := by
      rcases List.mem_append.1 he with he | he
      · have hcall : Event.probed i key .both (some p) ∈ calls es := List.mem_filter.2 ⟨he, rfl⟩
        rw [served.calls_eq] at hcall
        cases hcall
      · exact he
    have hreadies := served.readies typed
    obtain ⟨huses, rfl, hcalls⟩ := probed.narrows hp hfs
    exact {
      usesProbe := hreadies.usesProbe.symm.trans huses
      holds := {
        state := hreadies.state.trans hpend
        results := hreadies.results.trans (hnil hpend)
        queryType := rfl
        hit := rfl }
      asked := by rw [calls_append, served.calls_eq, hcalls, List.nil_append] }

/-- What a query becomes that is prepared again with half of its answer at hand: it is completed
from the cache, or it still lacks the other family, which a look-up has not found. -/
theorem Prepared.holds {fs : List Event} (h : Prepared i q q' fs) (hq : Holds q p f) (hp : p.Half f)
    (haimed : Aimed q es) (hfound : halvesFound es = [p]) (huses : q.usesProbe = true)
    (husable : ∀ {key type r}, .probed i key type (some r) ∈ fs → Cache.usable r type = true) :
    q'.FromCache ∨ Holds q' p f ∧ calls fs = [.probed i q.ownKey f.other.asked none] := by
  cases h with
  | passed hdone => exact absurd hq.state hdone
  | @readied _ q₁ q₂ _ es₁ fs served typed probed =>
    have hreadies := served.readies typed
    obtain ⟨-, htype⟩ : q₂.request.queryType = .both ∧ q₂.queryType = f.other.asked := by
      have hsent := (haimed.settled served typed).1
      have hes₁ : halvesFound es₁ = [] := by cases served <;> rfl
      rw [Aimed, halvesFound_append, hfound, hes₁] at hsent
      exact hsent.of_half hp
    have hone : f.other.asked ≠ .auto ∧ f.other.asked ≠ .both := by cases f <;> decide
    cases probed with
    | skipped hskips =>
      have hskipped := hskips.symm.trans (hreadies.usesProbe.trans huses)
      exact absurd hskipped (by decide)
    | missed =>
      refine .inr ⟨⟨hreadies.state.trans hq.state, hreadies.results.trans hq.results, htype,
        hreadies.hit.trans hq.hit⟩, ?_⟩
      rw [calls_append, served.calls_eq, htype, hreadies.ownKey]
      rfl
    | whole _ r hr =>
      exact .inl ⟨rfl, { r with hitCache := true }, by simp [Query.complete], rfl⟩
    | half _ r type hr =>
      -- one family alone is found with all that is asked for
      have hr' := husable (List.mem_append_right _ (List.mem_singleton_self _))
      rw [htype] at hr hr'
      exact absurd (Resolution.half_of_missing hone.1 hr' hr).1 hone.2

end

/-- What is asked of the cache for a request for both families of which one is found: that look-up,
or the one of a later run, which does not find the other family. -/
inductive LooksUp (k : Nat) (p : Resolution) (f : Family) : Event → Prop
  | both : LooksUp k p f (.probed k p.cacheKey .both (some p))
  | rest : LooksUp k p f (.probed k p.cacheKey f.other.asked none)

theorem LooksUp.sparesLive {k : Nat} {p : Resolution} {f : Family} {e : Event}
    (h : LooksUp k p f e) : e.SparesLive p.cacheKey := by
  cases h <;> exact Event.sparesLive_probed _ _ _ _

/-- A request goes into the rounds of a run with one family from under its key: its query asks for
the other one only. A refused run, which has no rounds, may not have come to prepare it. -/
structure Enters {σ : Type} (S : Services σ) (rs : List (Request × Bool)) (j : Job) (w : σ)
    (k : Nat) (ra : Request × Bool) (p : Resolution) (f : Family) (q : Query) : Prop where
  keyed : p.cacheKey ≠ ""
  request : rs[k]? = some ra
  single : ra.1.usingMulti = false
  caching : ra.1.usingCache = true
  stems : q.Stems ra.1
  prepared : (prepare S 0 none j.queries w).1.1[k]? = some q
  holds : Holds q p f
  asked : (∃ look, LooksUp k p f look ∧ calls (about k (prepare S 0 none j.queries w).2.1) = [look])
    ∨ (prepare S 0 none j.queries w).1.2 = false
      ∧ calls (about k (prepare S 0 none j.queries w).2.1) = []

/-- A look-up for both families, for the request at a position, finds this in a result cache: in the
present run, or in an earlier one that has left the request pending, and the present one does not
complete it from the cache. -/
inductive HalfFound {τ : Type} (S : Services (Cache × τ)) (j : Job) (es : List Event)
    (w : Cache × τ) (k : Nat) (p : Resolution) : Prop
  | now (key : String) (told : Event.probed k key .both (some p) ∈ (run S j w).2.1)
  | earlier (key : String) (told : Event.probed k key .both (some p) ∈ es)
      (c : Cache) (kept : c.WellKept) (now : Nat) (found : (c.lookup key .both now).1 = some p)
      (q : Query) (query : j.queries[k]? = some q) (pending : q.state = .pending)
      (unhit : ∀ q', (run S j w).1.1.queries[k]? = some q' → ¬ q'.FromCache)

section

variable {τ : Type} {S : Services τ} {settings : JobSettings} {rs : List (Request × Bool)} {j : Job}
  {es : List Event} {k : Nat} {key : String} {p : Resolution} {f : Family}

theorem Life.enters_now {c : Cache} {w : τ} (life : Life S.withCache settings rs j es (c, w))
    (hc : c.WellKept) (h : Event.probed k key .both (some p) ∈ (run S.withCache j (c, w)).2.1)
    (hp : p.Half f) : ∃ ra q, Enters S.withCache rs j (c, w) k ra p f q := by
  obtain ⟨hmem, q, q₁, hq, hq₁, hprepared⟩ := prepared_of_probed h
  obtain ⟨rfl, e, hget, -⟩ := found_before hc (mem_of_mem_about hmem)
  obtain ⟨ra, hra⟩ := life.rooted.get_before hq
  have hstems := (life.rooted.each hra hq).stems
  have hderived := ((prepare_derived S.withCache 0 none j.queries (c, w)).each hq hq₁).stems
  have hhalved := hprepared.halved hp hmem fun hpend => ((life.sound.each hra hq).pending hpend).1
  obtain ⟨hsingle, hcaching⟩ := hstems.of_usesProbe hhalved.usesProbe
  exact ⟨ra, q₁, {
    keyed := (hc.of_get? hget).2
    request := hra
    single := hsingle
    caching := hcaching
    stems := hstems.trans hderived
    prepared := hq₁
    holds := hhalved.holds
    asked := .inl ⟨_, .both, hhalved.asked⟩ }⟩

/-- What preparation makes of a query with half of its answer at hand. -/
theorem prepare_holds {qs : List Query} {q : Query} {w : Cache × τ} (hq : qs[k]? = some q)
    (hholds : Holds q p f) (hp : p.Half f) (haimed : Aimed q es) (hfound : halvesFound es = [p])
    (huses : q.usesProbe = true) :
    ∃ q', (prepare S.withCache 0 none qs w).1.1[k]? = some q' ∧ (q'.FromCache ∨ Holds q' p f
      ∧ (calls (about k (prepare S.withCache 0 none qs w).2.1)
          = [.probed k q.ownKey f.other.asked none]
        ∨ (prepare S.withCache 0 none qs w).1.2 = false
          ∧ calls (about k (prepare S.withCache 0 none qs w).2.1) = [])) := by
  have hpasses := prepare_passes S.withCache 0 none qs w
  have hfollows := prepare_follows S 0 none qs w
  obtain ⟨q', hq'⟩ := hpasses.get_after hq
  have hstep := hpasses.each hq hq'
  rw [Nat.zero_add] at hstep
  refine ⟨q', hq', ?_⟩
  rcases hstep with hprepared | ⟨hfailed, hunprepared⟩
  · exact (hprepared.holds hholds hp haimed hfound huses
      fun he => hfollows.usable (mem_of_mem_about he)).imp_right fun h => ⟨h.1, .inl h.2⟩
  · generalize about k (prepare S.withCache 0 none qs w).2.1 = fs at hunprepared ⊢
    cases hunprepared <;> exact .inr ⟨hholds, .inr ⟨hfailed, rfl⟩⟩

theorem Life.enters_later {w : Cache × τ} (life : Life S.withCache settings rs j es w)
    (told : Event.probed k p.cacheKey .both (some p) ∈ es) (keyed : p.cacheKey ≠ "")
    {q : Query} (hq : j.queries[k]? = some q) (hpend : q.state = .pending)
    (unhit : ∀ q', (run S.withCache j w).1.1.queries[k]? = some q' → ¬ q'.FromCache)
    (hp : p.Half f) : ∃ ra q, Enters S.withCache rs j w k ra p f q := by
  obtain ⟨ra, hra⟩ := life.rooted.get_before hq
  have hstems := (life.rooted.each hra hq).stems
  have haimed := life.aimed.each hra hq
  have hrecalls := life.recalls.each hra hq
  rw [Nat.zero_add] at haimed hrecalls
  have hmem : Event.probed k p.cacheKey .both (some p) ∈ about k es := mem_about told rfl
  obtain ⟨huses, hown⟩ := hrecalls.asked hmem
  obtain ⟨hhit, hfound⟩ := hrecalls.carries haimed hpend hmem
  have hholds : Holds q p f := by
    refine ⟨hpend, ((life.sound.each hra hq).pending hpend).1, ?_, hhit⟩
    rw [Aimed, hfound] at haimed
    exact (haimed.of_half hp).2
  obtain ⟨q', hq', hfrom | ⟨hholds', hasked⟩⟩ :=
    prepare_holds (S := S) (w := w) hq hholds hp haimed hfound huses
  · exact absurd hfrom (unhit q' (run_of_prepared hq' hfrom.1).1)
  · obtain ⟨hsingle, hcaching⟩ := hstems.of_usesProbe huses
    exact ⟨ra, q', {
      keyed := keyed
      request := hra
      single := hsingle
      caching := hcaching
      stems := hstems.trans ((prepare_derived S.withCache 0 none j.queries w).each hq hq').stems
      prepared := hq'
      holds := hholds'
      asked := hasked.imp_left fun h => ⟨_, hown ▸ .rest, h⟩ }⟩

theorem HalfFound.enters {c : Cache} {w : τ} (h : HalfFound S.withCache j es (c, w) k p)
    (life : Life S.withCache settings rs j es (c, w)) (hc : c.WellKept) (hp : p.Half f) :
    ∃ ra q, Enters S.withCache rs j (c, w) k ra p f q := by
  cases h with
  | now key told => exact life.enters_now hc told hp
  | earlier key told c₀ kept now found q query pending unhit =>
    obtain ⟨rfl, hne⟩ := kept.of_get? (Cache.lookup_eq_some found).1
    exact life.enters_later told hne query pending unhit hp

end

section

variable {σ : Type} {S : Services σ} {rs : List (Request × Bool)} {j : Job} {w : σ} {k : Nat}
  {ra : Request × Bool} {p : Resolution} {f : Family} {q : Query}

namespace Enters

/-- All its exchanges ask for the missing family only. -/
theorem asks (h : Enters S rs j w k ra p f q) {round : Nat} {batch : List (Nat × Exchange)}
    (hsent : Event.sent round batch ∈ (run S j w).2.1) {e : Exchange} (he : (k, e) ∈ batch) :
    Url.AsksFor e.url e.server f.other.asked := by
  obtain ⟨r, out, hr, hout, rfl⟩ := goesOut_of_sent hsent he
  obtain ⟨q', hq', -, -, hasks⟩ := hout.of_prepared hr
  obtain rfl := Option.some.inj (h.prepared.symm.trans hq')
  exact h.holds.queryType ▸ hasks

/-- What a run does to its cache for the query, beside looking it up: it caches its results. -/
theorem calls_run (h : Enters S rs j w k ra p f q) {q' : Query}
    (hq' : (run S j w).1.1.queries[k]? = some q') : calls (about k (run S j w).2.1)
      = calls (about k (prepare S 0 none j.queries w).2.1) ++ q'.results.map (.stored k) := by
  have hrun := executes_run S j w
  generalize run S j w = out at hrun hq' ⊢
  cases hrun with
  | refused =>
    obtain rfl := Option.some.inj (h.prepared.symm.trans hq')
    rw [h.holds.results, List.map_nil, List.append_nil]
  | settled hok hs =>
    rw [List.getElem?_map] at hq'
    obtain ⟨q₁, hq₁, rfl⟩ := Option.map_eq_some_iff.1 hq'
    rw [about_append, calls_append, Query.results_sweep]
    refine congrArg (calls (about k (prepare S 0 none j.queries w).2.1) ++ ·) ?_
    cases hs.fares h.prepared hq₁ with
    | carried server attempts failed hquery _ hsilent =>
      rw [hsilent, hquery, Query.results_carry, h.holds.results]
      rfl
    | answered _ _ server attempts failed _ hosts hanswered =>
      have hcaching : (q.carry server attempts failed).request.usingCache = true :=
        h.stems.usingCache_eq.trans h.caching
      rw [hanswered.told, if_pos hcaching, hanswered.results, Query.results_carry, h.holds.results]
      rfl

/-- Unanswered, the query has no results and is exhausted, unless the run is refused. -/
theorem unanswered (h : Enters S rs j w k ra p f q)
    (hnone : ∀ r, InRun S j w r → ∀ a, ¬ r.Gives S j.settings k a) :
    ∃ q', (run S j w).1.1.queries[k]? = some q' ∧ q'.results = []
      ∧ ((run S j w).1.2 = .ok () → q'.state = .exhausted)
      ∧ ((run S j w).1.2 = .error .noResolverAvailable → q'.state = .pending) := by
  have hrun := executes_run S j w
  generalize run S j w = out at hrun ⊢
  cases hrun with
  | refused =>
    exact ⟨q, h.prepared, h.holds.results, (nomatch ·), fun _ => h.holds.state⟩
  | settled hok hs =>
    obtain ⟨q₁, hq₁⟩ := hs.passes.get_after h.prepared
    -- A query that no round answers leaves them pending, so that the sweep exhausts it.
    cases hs.fares h.prepared hq₁ with
    | carried server attempts failed hquery =>
      have hsweep : q₁.sweep = { q₁ with state := .exhausted } :=
        if_pos (by rw [hquery]; exact h.holds.state)
      refine ⟨q₁.sweep, by rw [List.getElem?_map, hq₁]; rfl, ?_, fun _ => ?_, (nomatch ·)⟩
      · rw [Query.results_sweep, hquery]
        exact h.holds.results
      · rw [hsweep]
    | @answered r hreach hsent server attempts failed _ hosts hanswered =>
      obtain ⟨host, rfl⟩ := hanswered.single (h.stems.usingMulti_eq.trans h.single)
      obtain ⟨a, hgives, -⟩ := (hanswered.own host).1 (List.mem_singleton_self _)
      exact absurd hgives (hnone r ⟨hok, hreach, hsent⟩ a)

/-- Answered, the query is completed with its share for the host of the answer. -/
theorem answered (h : Enters S rs j w k ra p f q) {r : Round σ} (hr : InRun S j w r) {a : Answer}
    (hgives : r.Gives S j.settings k a) :
    ∃ q' q₁, (run S j w).1.1.queries[k]? = some q' ∧ q'.state = .completed
      ∧ q₁.Stems ra.1 ∧ q₁.partialHit = some p
      ∧ q'.results = [r.portion S j.settings q₁ a.host] := by
  obtain ⟨q₁, hq₁, hrunnable⟩ := hgives.query
  obtain ⟨server, attempts, failed, rfl⟩ :=
    hr.reached.carried h.prepared hq₁ (Query.isRunnable_iff.1 hrunnable).1
  obtain ⟨q', hq'⟩ := (r.passes S j.settings).get_after hq₁
  have hround := (r.passes S j.settings).each hq₁ hq'
  rw [Nat.zero_add] at hround
  cases hround.fared with
  | carried _ _ _ _ hnone => exact absurd hgives (hnone a)
  | answered hosts hanswered =>
    obtain ⟨host, rfl⟩ := hanswered.single (h.stems.usingMulti_eq.trans h.single)
    obtain rfl : a.host = host := List.mem_singleton.1 ((hanswered.own _).2 ⟨a, hgives, rfl⟩)
    refine ⟨q', _, hr.kept hq' (by rw [hanswered.state]; decide), hanswered.state,
      h.stems.trans ⟨_, _, rfl⟩, h.holds.hit, ?_⟩
    rw [hanswered.results, Query.results_carry, h.holds.results]
    rfl

end Enters

end

/-! ## What comes of the cached half -/

section

variable {σ : Type} (S : Services σ) (settings : JobSettings)

/-- The answers of a round for a host, in the order of their exchanges. -/
def Round.answersFor (r : Round σ) (host : String) : List Answer :=
  (poolOf (r.landings S settings)).filter (·.host = host)

/-- The addresses of a family that a round supplies for a host: those of the first answer that has
any. -/
def Round.supply (r : Round σ) (f : Family) (host : String) : Endpoints :=
  firstNonEmpty ((r.answersFor S settings host).map fun a => distinctAddrs (f.told a))

/-- The result for a host from a round and a cached answer that holds one family: each family is
the one that the round supplies, or else the cached one. -/
structure Completes (r : Round σ) (host : String) (p : Resolution) (f : Family) (x : Resolution) :
    Prop where
  named : x.host = host
  key : x.cacheKey = p.cacheKey
  fresh : x.hitCache = false
  ttl : x.ttl = ((r.answersFor S settings host).map (·.ttl)).foldl max 0
  originTtl : x.originTtl = ((r.answersFor S settings host).map (·.originTtl)).foldl max 0
  family : ∀ f', f'.kept x
    = if r.supply S settings f' host = [] then f'.kept p else r.supply S settings f' host
  whole : r.supply S settings f.other host ≠ [] → x.satisfies .both = true
  cached : ∀ c : Cache, ∃ e, (c.update x).entries.get? p.cacheKey = some e
    ∧ e.expiresAt = x.expiresAt
    ∧ (r.supply S settings f.other host ≠ [] → e.satisfies .both = true)

theorem completes_portion {r : Round σ} {q : Query} {p : Resolution} {f : Family} {host : String}
    (hp : p.Half f) (hhit : q.partialHit = some p) (hkey : q.request.cacheKeyFor host = p.cacheKey)
    (hne : p.cacheKey ≠ "") : Completes S settings r host p f (r.portion S settings q host) := by
  set x := r.portion S settings q host
  have hown : x.cacheKey = p.cacheKey := hkey
  have hspare : spare q.partialHit (q.request.cacheKeyFor host) = some p := by
    rw [hhit, hkey]
    exact if_pos rfl
  have hfamily : ∀ f' : Family, f'.kept x
      = if r.supply S settings f' host = [] then f'.kept p else r.supply S settings f' host := by
    intro f'
    refine (f'.kept_gather _ _ _ _ _).trans ?_
    rw [hspare, firstNonEmpty_append]
    simp only [List.isEmpty_iff]
    rfl
  have hwhole : r.supply S settings f.other host ≠ [] → x.satisfies .both = true := by
    intro hsupply
    refine (Resolution.satisfies_both_iff f).2 ⟨?_, ?_⟩
    · rw [hfamily]
      split
      · exact hp.holds
      · assumption
    · rw [hfamily, if_neg hsupply]
      exact hsupply
  refine ⟨rfl, hown, rfl, rfl, rfl, hfamily, hwhole, fun c => ?_⟩
  have hget := c.get?_update_self (r := x) (hown ▸ hne)
  have hrenews := Cache.renews_renewed x (c.entries.get? x.cacheKey)
  exact ⟨_, hown ▸ hget, hrenews.expiresAt_eq,
    fun hsupply => hrenews.satisfies .both (hwhole hsupply)⟩

end

variable {τ : Type}

/-- What a run makes of a request for both families of which one was found cached. -/
structure Narrowed (S : Services (Cache × τ)) (rs : List (Request × Bool)) (j : Job) (c : Cache)
    (w : τ) (k : Nat) (p : Resolution) (f : Family) : Prop where
  asks : ∀ {round batch e}, Event.sent round batch ∈ (run S j (c, w)).2.1 → (k, e) ∈ batch →
    Url.AsksFor e.url e.server f.other.asked
  answered : ∀ {r ra a}, InRun S j (c, w) r → rs[k]? = some ra → r.Gives S j.settings k a →
    ra.1.cacheKeyFor a.host = p.cacheKey →
      ∃ q' x look, (run S j (c, w)).1.1.queries[k]? = some q' ∧ q'.state = .completed
        ∧ q'.results = [x] ∧ Completes S j.settings r a.host p f x
        ∧ LooksUp k p f look ∧ calls (about k (run S j (c, w)).2.1) = [look, .stored k x]
  unanswered : (∀ r, InRun S j (c, w) r → ∀ a, ¬ r.Gives S j.settings k a) →
    (∃ q', (run S j (c, w)).1.1.queries[k]? = some q' ∧ q'.results = []
      ∧ ((run S j (c, w)).1.2 = .ok () → q'.state = .exhausted)
      ∧ ((run S j (c, w)).1.2 = .error .noResolverAvailable → q'.state = .pending))
      ∧ (∀ e ∈ about k (run S j (c, w)).2.1, e.SparesLive p.cacheKey)
      ∧ (Event.probed k p.cacheKey .both (some p) ∈ (run S j (c, w)).2.1 →
        ∀ e ∈ about k (run S j (c, w)).2.1, e.Spares)

section

variable {S : Services τ} {settings : JobSettings} {rs : List (Request × Bool)} {j : Job}
  {es : List Event} {c : Cache} {w : τ} {k : Nat} {ra : Request × Bool} {p : Resolution}
  {f : Family} {q : Query}

/-- Without a result to cache, a look-up is all that concerns the cache. -/
theorem Enters.spares {σ : Type} {S : Services σ} {w : σ} (h : Enters S rs j w k ra p f q)
    {q' : Query} (hq' : (run S j w).1.1.queries[k]? = some q') (hnil : q'.results = [])
    {e : Event} (he : e ∈ about k (run S j w).2.1) : e.SparesLive p.cacheKey
      ∧ (Event.probed k p.cacheKey .both (some p) ∈ (run S j w).2.1 → e.Spares) := by
  have hcalls := h.calls_run hq'
  rw [hnil, List.map_nil, List.append_nil] at hcalls
  cases hkey : e.key? with
  | none => exact ⟨(Event.spares_of_key? hkey).live _, fun _ => Event.spares_of_key? hkey⟩
  | some key =>
    have hmem : ∀ {e}, e ∈ about k (run S j w).2.1 → e.key? ≠ none →
        e ∈ calls (about k (prepare S 0 none j.queries w).2.1) := fun he hkey => by
      rw [← hcalls]
      exact List.mem_filter.2 ⟨he, Option.isSome_iff_ne_none.2 hkey⟩
    have hcall := hmem he (by simp [hkey])
    rcases h.asked with ⟨look, hlook, hasked⟩ | ⟨-, hasked⟩
    · rw [hasked] at hcall hmem
      obtain rfl := List.mem_singleton.1 hcall
      refine ⟨hlook.sparesLive, fun htold => ?_⟩
      rw [← List.mem_singleton.1 (hmem (mem_about htold rfl) (by simp [Event.key?]))]
      exact Event.spares_probed _ _ _ _
    · rw [hasked] at hcall
      cases hcall

/-- A request for both families of which one was found cached, in this run or in an earlier one
that left it pending, asks only for the other one. Answered under the cached key, it has one result,
which takes from the cached answer what the round does not supply; unanswered, it has none and is
exhausted, unless the run is refused, and has left the cache alone, but for an expired entry that
its look-up in a later run drops. -/
theorem run_narrowed (life : Life S.withCache settings rs j es (c, w)) (hc : c.WellKept)
    (h : HalfFound S.withCache j es (c, w) k p) (hp : p.Half f) :
    Narrowed S.withCache rs j c w k p f := by
  obtain ⟨ra, q, henters⟩ := h.enters life hc hp
  refine ⟨fun hsent he => henters.asks hsent he,
    fun {r ra' a} hr hra' hgives hkey => ?answered, fun hnone => ?unanswered⟩
  case answered =>
    obtain rfl := Option.some.inj (henters.request.symm.trans hra')
    obtain ⟨q', q₁, hq', hstate, hstems, hhit, hresults⟩ := henters.answered hr hgives
    -- A run with rounds has prepared all queries, this one by a look-up.
    obtain ⟨look, hlook, hasked⟩ := henters.asked.resolve_right fun hfailed =>
      absurd (hfailed.1.symm.trans hr.prepared) (by decide)
    refine ⟨q', _, look, hq', hstate, hresults,
      completes_portion S.withCache j.settings hp hhit (hstems.cacheKeyFor_eq _ ▸ hkey)
        henters.keyed, hlook, ?_⟩
    rw [henters.calls_run hq', hresults, hasked]
    rfl
  case unanswered =>
    obtain ⟨q', hq', hnil, hok, hrefused⟩ := henters.unanswered hnone
    exact ⟨⟨q', hq', hnil, hok, hrefused⟩, fun e he => (henters.spares hq' hnil he).1,
      fun htold e he => (henters.spares hq' hnil he).2 htold⟩

end

/-! ## A cached IPv4 address -/

def cachedHalf : Resolution :=
  { host := "a.com", cacheKey := "a.com", ips := [⟨"192.0.2.1", none⟩], ttl := 60 }

def halfCache : Cache :=
  Cache.run [.update cachedHalf]

/-- A server that gives an IPv6 address. -/
def completing : Services Unit :=
  .steady (fun _ => none) (fun _ => .ok ⟨statusOk, "", 8⟩) fun _ =>
    some { host := "a.com", ipsv6 := ["2001:db8::1"], ttl := 30 }

def askBoth : Request :=
  { host := "a.com", accountId := "100000", resolver := some "203.0.113.1", queryType := .both }

/-- The cached address with the one that is given for the other family. -/
def completedHalf : Resolution :=
  { host := "a.com", cacheKey := "a.com", ips := [⟨"192.0.2.1", none⟩]
    ipsv6 := [⟨"2001:db8::1", none⟩], ttl := 30 }

/-- The request for the other host names no server. -/
def bothAndOther : List (Request × Bool) :=
  [(askBoth, true), ({ host := "b.com", accountId := "100000", queryType := .a }, true)]

/-- The server that the request for both families names gives an IPv6 address of its host, any other
one an IPv4 address of the other host. -/
def supplying : Services (Pool × Unit) :=
  (Services.steady (fun _ => none) (fun e => .ok ⟨statusOk, e.server, 8⟩) fun body =>
    some (if body = "203.0.113.1" then { host := "a.com", ipsv6 := ["2001:db8::1"], ttl := 30 }
      else { host := "b.com", ips := ["192.0.2.2"], ttl := 60 })).withPool

/-- The IPv6 address is added to the cached IPv4 one: in the run that finds this, and in a later one
that has a server for the other host too, where the first run was refused without it. -/
theorem run_narrowed_completed :
    (let w : Cache × Unit := (halfCache, ())
      let j := holding ⟨1, "", "", 0⟩ [(askBoth, true)]
      (Life completing.withCache j.settings [(askBoth, true)] j [] w ∧ halfCache.WellKept
          ∧ HalfFound completing.withCache j [] w 0 cachedHalf ∧ cachedHalf.Half .ipv4)
        ∧ Narrowed completing.withCache [(askBoth, true)] j halfCache () 0 cachedHalf .ipv4
        ∧ (run completing.withCache j w).1.1.queries.map (·.results) = [[completedHalf]])
      ∧ let refused := run supplying.withCache (holding ⟨1, "", "", 0⟩ bothAndOther)
          (halfCache, {}, ())
        let pool : Pool := { ipv4 := [⟨"203.0.113.2", none⟩] }
        let j := refused.1.1
        let w := (halfCache, pool, ())
        (Life supplying.withCache j.settings bothAndOther j refused.2.1 w
            ∧ HalfFound supplying.withCache j refused.2.1 w 0 cachedHalf)
          ∧ refused.1.2 = .error .noResolverAvailable
          ∧ Narrowed supplying.withCache bothAndOther j halfCache (pool, ()) 0 cachedHalf .ipv4
          ∧ (run supplying.withCache j w).1.1.queries.map (·.results) = [[completedHalf],
            [{ host := "b.com", cacheKey := "b.com", ips := [⟨"192.0.2.2", none⟩],
               ttl := 60 }]] := by
  have hhalf : cachedHalf.Half .ipv4 := ⟨by decide, by decide⟩
  have hc : halfCache.WellKept := Cache.run_wellKept _
  refine ⟨?now, ?later⟩
  case now =>
    intro w j
    have life : Life completing.withCache j.settings [(askBoth, true)] j [] w :=
      .holding (by decide) w
    have hfound : HalfFound completing.withCache j [] w 0 cachedHalf :=
      .now "a.com" (by decide +kernel)
    exact ⟨⟨life, hc, hfound, hhalf⟩, run_narrowed life hc hfound hhalf, by decide +kernel⟩
  case later =>
    intro refused pool j w
    have life : Life supplying.withCache j.settings bothAndOther j refused.2.1 w :=
      ((Life.holding (by decide) (halfCache, {}, ())).ran).waited w
    have hfound : HalfFound supplying.withCache j refused.2.1 w 0 cachedHalf := by
      refine .earlier "a.com" (by decide +kernel) halfCache hc 0 (by decide +kernel) _ rfl
        (by decide +kernel) fun q' hq' => ?_
      rintro ⟨-, x, hx, hhit⟩
      have hresults : (run supplying.withCache j w).1.1.queries[0]?.map (·.results)
          = some [completedHalf] := by decide +kernel
      rw [hq'] at hresults
      have hq'' : q'.results = [completedHalf] := Option.some.inj hresults
      obtain rfl := List.mem_singleton.1 (hq'' ▸ hx)
      cases hhit
    exact ⟨⟨life, hfound⟩, by decide +kernel, run_narrowed life hc hfound hhalf,
      by decide +kernel⟩

/-- The second request has no server, which refuses the run: the first one, narrowed by then, is
left pending. -/
theorem half_left_pending :
    let w : Cache × Unit := (halfCache, ())
    let rs := [(askBoth, true), ({ host := "b.com", accountId := "100000" }, true)]
    let j := holding ⟨1, "", "", 0⟩ rs
    Life completing.withCache j.settings rs j [] w ∧ halfCache.WellKept
      ∧ Event.probed 0 "a.com" .both (some cachedHalf) ∈ (run completing.withCache j w).2.1
      ∧ cachedHalf.Half .ipv4
      ∧ (∀ r, InRun completing.withCache j w r → ∀ a, ¬ r.Gives completing.withCache j.settings 0 a)
      ∧ (run completing.withCache j w).1.1.queries.map (·.state) = [.pending, .pending] := by
  intro w rs j
  have hrefused : (prepare completing.withCache 0 none j.queries w).1.2 = false := by
    decide +kernel
  refine ⟨.holding (by decide) w, Cache.run_wellKept _, by decide +kernel,
    ⟨by decide, by decide⟩, fun r hr => ?_, by decide +kernel⟩
  exact absurd (hrefused.symm.trans hr.prepared) (by decide)

end Job

end HttpDns
