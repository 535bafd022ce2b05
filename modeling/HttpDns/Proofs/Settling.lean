import HttpDns.Proofs.Life

/-!
# What a run comes to

Every run of a job ends, and where it does not fail none of the job's queries is left pending: one
is completed if and only if it has results, its callback has then been called once with all of them,
and the callback of an exhausted one has never been called. Nothing is left for a further run to do
(`run_settles`).
-/

namespace HttpDns

/-- Services without a state that draw no server: the cache, the servers and the reader of single
bodies each answer the same at every call. -/
def Services.steady (found : String → Option Resolution) (answer : Exchange → Reply)
    (read : String → Option Answer) : Services Unit where
  stack w := (.ipv4Only, w)
  pick w := (none, w)
  pickOther _ w := (none, w)
  sample _ _ w := w
  lookup key _ w := (found key, w)
  rotate _ w := w
  store _ w := w
  send e w := (answer e, w)
  sendAll := sendEach fun e w => (answer e, w)
  readSchedule _ w := ({}, w)
  readSingle body w := (read body, w)
  readMulti _ w := ([], w)
  signer _ _ _ _ := ⟨"", 0⟩
  seconds _ := 0
  instant _ := 0
  chance _ w := (0, w)
  nonce w := ("", w)
  systemLookup _ w := ([], w)

/-- Services that find something in the cache but never get a reply. -/
def Services.unheard (found : String → Option Resolution) : Services Unit :=
  steady found (fun e => .error (.timeout e.timeoutMs.toNat)) fun _ => none

namespace Job

variable {σ : Type}

/-- A job whose queries are settled, with the requests it has queued and all its events. -/
structure Settled (rs : List (Request × Bool)) (j : Job) (es : List Event) : Prop where
  length_eq : j.queries.length = rs.length
  ended : ∀ q ∈ j.queries, q.state = .completed ∨ q.state = .exhausted
  completed_iff : ∀ q ∈ j.queries, q.state = .completed ↔ q.results ≠ []
  fired : ∀ {k : Nat} {q : Query} {r : Request}, j.queries[k]? = some q →
    rs[k]? = some (r, true) → q.state = .completed → firings (about k es) = [q.results]
  unfired : ∀ {k : Nat} {q : Query} {r : Request} {armed : Bool}, j.queries[k]? = some q →
    rs[k]? = some (r, armed) → q.state = .exhausted ∨ armed = false → firings (about k es) = []

theorem state_sweep_ne (q : Query) : q.sweep.state ≠ .pending := by
  unfold Query.sweep
  split
  · exact fun h => by cases h
  · assumption

theorem Settled.of_sound {rs : List (Request × Bool)} {j : Job} {es : List Event}
    (h : Passes (fun _ r q gs => Sound r.2 q gs) 0 rs j.queries es)
    (hend : ∀ q ∈ j.queries, q.state ≠ .pending) : Settled rs j es where
  length_eq := h.length_eq
  ended q hq := by
    have := hend q hq
    cases hs : q.state with
    | pending => exact absurd hs this
    | completed => exact .inl rfl
    | exhausted => exact .inr rfl
  completed_iff q hq := by
    obtain ⟨k, hk⟩ := List.getElem?_of_mem hq
    obtain ⟨r, hr⟩ := h.get_before hk
    have hsound := h.each hr hk
    refine ⟨fun hc => (hsound.completed hc).1, fun hne => ?_⟩
    cases hs : q.state with
    | pending => exact absurd hs (hend q hq)
    | completed => rfl
    | exhausted => exact absurd (hsound.exhausted hs).1 hne
  fired {k q r} hk hr hc := by
    have hsound := h.each hr hk
    rw [Nat.zero_add] at hsound
    exact (hsound.completed hc).2
  unfired {k q r armed} hk hr hq := by
    have hsound := h.each hr hk
    rw [Nat.zero_add] at hsound
    cases hs : q.state with
    | pending => exact absurd hs (hend q (List.mem_of_getElem? hk))
    | completed =>
      rcases hq with hq | rfl
      · exact absurd (hs.symm.trans hq) (by decide)
      · exact (hsound.completed hs).2
    | exhausted => exact (hsound.exhausted hs).2

/-- Whatever its services answer and whatever has happened to the job before, a run ends; where it
does not fail, every query is settled and a further run does nothing. -/
theorem run_settles {S : Services σ} {settings : JobSettings} {rs : List (Request × Bool)}
    {j : Job} {es : List Event} {w : σ} (life : Life S settings rs j es w) :
    Executes S j w (run S j w)
      ∧ ((run S j w).1.2 = .ok () →
        Settled rs (run S j w).1.1 (es ++ (run S j w).2.1)
          ∧ ∀ {τ : Type} (T : Services τ) (w' : τ),
            run T (run S j w).1.1 w' = (((run S j w).1.1, .ok ()), [], w')) := by
  refine ⟨executes_run S j w, fun hok => ?_⟩
  have hend : ∀ q ∈ (run S j w).1.1.queries, q.state ≠ .pending := by
    obtain ⟨qs, -, -, ⟨-, hqs⟩ | ⟨herr, -⟩⟩ := run_passes S j w
    · intro q hq
      rw [hqs] at hq
      obtain ⟨q', -, rfl⟩ := List.mem_map.1 hq
      exact state_sweep_ne q'
    · rw [hok] at herr
      cases herr
  exact ⟨.of_sound (Life.ran life).sound hend, fun T w' => run_of_settled T _ w' hend⟩

/-- A lookup found in the cache is completed, one that is never answered is exhausted. -/
theorem run_settles_pair :
    let S := Services.unheard fun key =>
      if key = "a" then some { host := "a", cacheKey := "a", ips := [⟨"192.0.2.1", none⟩] }
      else none
    let settings : JobSettings := ⟨2, "", "", 0⟩
    let ask (host : String) : Request :=
      { host, accountId := "1", resolver := some "203.0.113.7", queryType := .a }
    let query (host : String) : Query := .ofRequest (ask host) true settings.attempts
    let j : Job := ⟨settings, [query "a", query "b"]⟩
    Life S settings [(ask "a", true), (ask "b", true)] j [] ()
      ∧ (run S j ()).1.2 = .ok ()
      ∧ (run S j ()).1.1.queries.map (·.state) = [.completed, .exhausted]
      ∧ Settled [(ask "a", true), (ask "b", true)] (run S j ()).1.1 (run S j ()).2.1 := by
  intro S settings ask query j
  have one : Life S settings [(ask "a", true)] ⟨settings, [query "a"]⟩ [] () :=
    (Life.made ()).queued (add_ok _ true (by decide))
  have life : Life S settings [(ask "a", true), (ask "b", true)] j [] () :=
    one.queued (add_ok _ true (by decide))
  exact ⟨life, rfl, rfl, ((run_settles life).2 rfl).1⟩

end Job

end HttpDns
