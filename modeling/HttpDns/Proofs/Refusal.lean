import HttpDns.Proofs.Settling
import HttpDns.Services.Layer

/-!
# Refused runs

A run fails when no server can be drawn for a query. Nothing has been sent by then, but the queries
before that one have already asked the cache: each that found all it asked for is completed, and its
callback called. A refused run therefore leaves the results of a job alone if and only if none of
its look-ups in the cache was a whole hit (`refused_untouched_iff`).
-/

namespace HttpDns

/-- The cache was asked and had all the families asked for. -/
def Event.isWhole : Event → Bool
  | .probed _ _ type (some hit) => hit.satisfies type
  | _ => false

theorem Event.query?_of_isWhole {e : Event} (h : e.isWhole = true) : ∃ k, e.query? = some k := by
  cases e with
  | probed k => exact ⟨k, rfl⟩
  | detected | drew | rotated | switched | sent | sampled | stored | fired | asked => cases h

namespace Job

variable {σ : Type} (S : Services σ)

/-- Nothing was sent, no callback was called, and no query has been completed or given results. -/
structure Untouched (j j' : Job) (es : List Event) : Prop where
  unsent : ∀ round batch, Event.sent round batch ∉ es
  unfired : firings es = []
  kept : ∀ {k : Nat} {q q' : Query}, j.queries[k]? = some q → j'.queries[k]? = some q' →
    (q'.state = .completed → q.state = .completed) ∧ q'.results = q.results

/-- What it comes to for a query that the cache was asked: a whole hit completes it, or it keeps its
state and its results, silently. -/
inductive Asked (q q' : Query) (es : List Event) : Prop
  | whole {e : Event} (he : e ∈ es) (hw : e.isWhole = true) (was : q.state = .pending)
      (now : q'.state = .completed) (results : q'.results ≠ q.results)
  | quiet (hw : ∀ e ∈ es, e.isWhole = false) (state : q'.state = q.state)
      (results : q'.results = q.results) (unfired : firings es = [])

theorem Probed.asked {i : Nat} {q q' : Query} {es : List Event} (h : Probed i q q' es)
    (hq : q.state = .pending) : Asked q q' es := by
  cases h with
  | skipped => exact .quiet (by simp) rfl rfl rfl
  | missed => exact .quiet (by simp [Event.isWhole]) rfl rfl rfl
  | whole _ r hr =>
    have hmem : Event.probed i q.ownKey q.queryType (some r)
        ∈ [Event.probed i q.ownKey q.queryType (some r), .rotated i q.ownKey]
          ++ callback i q (q.results ++ [{ r with hitCache := true }]) := by simp
    exact .whole hmem (Resolution.missing_eq_none_iff.1 hr) hq rfl (by simp [Query.complete])
  | half _ r type hr =>
    have hnot : r.satisfies q.queryType = false := by
      rw [Bool.eq_false_iff, Ne, ← Resolution.missing_eq_none_iff, hr]
      simp
    exact .quiet (by simp [Event.isWhole, hnot]) rfl rfl rfl

theorem Served.not_whole {i : Nat} {q q' : Query} {es : List Event} (h : Served i q q' es) :
    ∀ e ∈ es, e.isWhole = false := by
  cases h with
  | named => simp
  | drawn => simp [Event.isWhole]

theorem Prepared.asked {i : Nat} {q q' : Query} {es : List Event} (h : Prepared i q q' es) :
    Asked q q' es := by
  cases h with
  | passed => exact .quiet (by simp) rfl rfl rfl
  | @readied hq q₁ q₂ _ es fs hs ht hp =>
    obtain ⟨hstate, hresults, -, -, -⟩ := hs.readies ht
    cases hp.asked (hstate.trans hq) with
    | whole he hw was now results =>
      exact .whole (List.mem_append_right _ he) hw hq now (hresults ▸ results)
    | quiet hw state results unfired =>
      refine .quiet (fun e he => ?_) (state.trans hstate) (results.trans hresults) ?_
      · rcases List.mem_append.1 he with he | he
        · exact hs.not_whole e he
        · exact hw e he
      · rw [firings_append, hs.firings_eq, unfired]
        rfl

theorem Unprepared.asked {i : Nat} {q q' : Query} {es : List Event} (h : Unprepared i q q' es) :
    Asked q q' es := by
  cases h with
  | unreached => exact .quiet (by simp) rfl rfl rfl
  | refused => exact .quiet (by simp [Event.isWhole]) rfl rfl rfl

theorem prepare_asked (i : Nat) (seen : Option Stack) (qs : List Query) (w : σ) :
    Passes (fun _ => Asked) i qs (prepare S i seen qs w).1.1 (prepare S i seen qs w).2.1 :=
  (prepare_passes S i seen qs w).mono fun _ _ _ _ h => by
    rcases h with h | ⟨-, h⟩
    · exact h.asked
    · exact h.asked

theorem prepare_unsent : ∀ (i : Nat) (seen : Option Stack) (qs : List Query) (w : σ),
    ∀ e ∈ (prepare S i seen qs w).2.1, (∃ k, e.query? = some k) ∨ ∃ stack, e = .detected stack
  | _, _, [], _, e, he => by simp [prepare] at he
  | i, seen, q :: rest, w, e, he => by
    rcases prepare_cons S i seen q rest w with ⟨-, w', h⟩ | ⟨q', es, seen', w', -, hown, h⟩
    · rw [h] at he
      rw [List.mem_singleton.1 he]
      exact .inl ⟨i, rfl⟩
    · rw [h] at he
      rcases List.mem_append.1 he with he | he
      · exact (hown e he).imp (fun h => ⟨i, h⟩) id
      · exact prepare_unsent (i + 1) seen' rest w' e he

section

variable {settings : JobSettings} {qs qs' : List Query} {es : List Event}

theorem Untouched.not_whole (hun : Untouched ⟨settings, qs⟩ ⟨settings, qs'⟩ es)
    (h : Passes (fun _ => Asked) 0 qs qs' es) : ∀ e ∈ es, e.isWhole = false := by
  intro e he
  rw [Bool.eq_false_iff]
  intro hw
  obtain ⟨k, hk⟩ := Event.query?_of_isWhole hw
  have hmem := mem_about he hk
  rcases h.about_cases k with hnil | ⟨n, q, q', hq, hq', hasked⟩
  · rw [hnil] at hmem
    cases hmem
  · cases hasked with
    | whole _ _ was now =>
      have hdone := (hun.kept hq hq').1 now
      rw [was] at hdone
      cases hdone
    | quiet hnot =>
      rw [hnot e hmem] at hw
      cases hw

theorem Asked.quiet_of_not_whole {q q' : Query} {k : Nat} (h : Asked q q' (about k es))
    (hnot : ∀ e ∈ es, e.isWhole = false) :
    q'.state = q.state ∧ q'.results = q.results ∧ firings (about k es) = [] := by
  cases h with
  | whole he hw =>
    rw [hnot _ (mem_of_mem_about he)] at hw
    cases hw
  | quiet _ state results unfired => exact ⟨state, results, unfired⟩

/-- Queries that were all asked about are untouched if and only if there was no whole hit. -/
theorem untouched_iff (h : Passes (fun _ => Asked) 0 qs qs' es)
    (hunsent : ∀ round batch, Event.sent round batch ∉ es) :
    Untouched ⟨settings, qs⟩ ⟨settings, qs'⟩ es ↔ ∀ e ∈ es, e.isWhole = false := by
  refine ⟨fun hun => hun.not_whole h, fun hnot => ⟨hunsent, firings_eq_nil fun k => ?_, ?_⟩⟩
  · rcases h.about_cases k with hnil | ⟨n, q, q', -, -, hasked⟩
    · rw [hnil]
      rfl
    · exact (hasked.quiet_of_not_whole hnot).2.2
  · intro k q q' hq hq'
    obtain ⟨hs, hr, -⟩ := (h.each hq hq').quiet_of_not_whole hnot
    exact ⟨fun hc => hs ▸ hc, hr⟩

end

/-- A refused run is untouched if and only if no look-up in the cache was a whole hit; in no case
has it sent anything. -/
theorem refused_untouched_iff {j : Job} {w : σ} {e : Error} (h : (run S j w).1.2 = .error e) :
    e = .noResolverAvailable
      ∧ (∀ round batch, Event.sent round batch ∉ (run S j w).2.1)
      ∧ (Untouched j (run S j w).1.1 (run S j w).2.1
        ↔ ∀ ev ∈ (run S j w).2.1, ev.isWhole = false) := by
  have hrun := executes_run S j w
  have hunsent : ∀ round batch, Event.sent round batch ∉ (prepare S 0 none j.queries w).2.1 := by
    intro round batch he
    rcases prepare_unsent S 0 none j.queries w _ he with ⟨k, hk⟩ | ⟨stack, hs⟩
    · cases hk
    · cases hs
  generalize run S j w = out at hrun h ⊢
  cases hrun with
  | settled => cases h
  | refused =>
    cases h
    exact ⟨rfl, hunsent, untouched_iff (prepare_asked S 0 none j.queries w) hunsent⟩

/-- A run is refused untouched when the lookup before the refused one is not in the cache. -/
theorem refused_untouched_cold :
    let S := (Services.unheard fun _ => none).withPool.withCache
    let ask (host : String) (resolver : Option String) : Request :=
      { host, accountId := "100000", resolver, queryType := .a }
    let settings : JobSettings := ⟨2, "", "", 0⟩
    let j : Job := ⟨settings, [.ofRequest (ask "a.com" (some "203.0.113.7")) true settings.attempts,
      .ofRequest (ask "b.com" none) true settings.attempts]⟩
    let w : Cache × Pool × Unit := ({}, {}, ())
    (run S j w).1.2 = .error .noResolverAvailable
      ∧ Untouched j (run S j w).1.1 (run S j w).2.1 := by
  intro S ask settings j w
  have h : (run S j w).1.2 = .error .noResolverAvailable := by rfl
  have hes : (run S j w).2.1 = [.probed 0 "a.com" .a none, .drew 1 none] := by rfl
  refine ⟨h, (refused_untouched_iff S h).2.2.2 ?_⟩
  rw [hes]
  decide

/-- A lookup found in the cache is completed, and its callback called, by a run that is then refused
for the next one. -/
theorem refused_after_hit :
    let S := (Services.unheard fun _ => none).withPool.withCache
    let ask (host : String) (resolver : Option String) : Request :=
      { host, accountId := "100000", resolver, queryType := .a }
    let settings : JobSettings := ⟨2, "", "", 0⟩
    let query (host : String) (resolver : Option String) : Query :=
      .ofRequest (ask host resolver) true settings.attempts
    let j : Job := ⟨settings, [query "a.com" (some "203.0.113.7"), query "b.com" none]⟩
    let hit : Resolution :=
      { host := "a.com", cacheKey := "a.com", ips := [⟨"192.0.2.1", none⟩], ttl := 60 }
    let w : Cache × Pool × Unit := ({ entries := [("a.com", hit)] }, {}, ())
    Life S settings [(ask "a.com" (some "203.0.113.7"), true), (ask "b.com" none, true)] j [] w
      ∧ (run S j w).1.2 = .error .noResolverAvailable
      ∧ firings (run S j w).2.1 = [[{ hit with hitCache := true }]]
      ∧ ¬ Untouched j (run S j w).1.1 (run S j w).2.1 := by
  intro S ask settings query j hit w
  have one : Life S settings [(ask "a.com" (some "203.0.113.7"), true)]
      ⟨settings, [query "a.com" (some "203.0.113.7")]⟩ [] w :=
    (Life.made w).queued (add_ok _ true (by decide))
  have fired : firings (run S j w).2.1 = [[{ hit with hitCache := true }]] := by rfl
  refine ⟨one.queued (add_ok _ true (by decide)), by rfl, fired, fun hun => ?_⟩
  rw [hun.unfired] at fired
  cases fired

end Job

end HttpDns
