import HttpDns.Proofs.Attempts
import HttpDns.Services.Layer

/-!
# The exchanges of a query in a run

Preparation exchanges nothing and leaves every query that is still pending all its attempts, so over
a run a query is exchanged in every round from the first one on, as often as the settings allow at
most (`run_exchanges`).
-/

namespace HttpDns.Job

variable {σ : Type} {S : Services σ} {settings : JobSettings}

/-! ## Before the rounds -/

/-- What preparation makes of a query, with the servers it asked for. -/
structure Poised (q q' : Query) (drawn : List (Option Endpoint)) : Prop where
  attempts : q'.attemptsLeft = q.attemptsLeft
  pending : q'.state = .pending → q.state = .pending
  others : q.state ≠ .pending → q' = q
  undrawn : drawn = []

theorem Prepared.poised {i : Nat} {q q' : Query} {es : List Event} (h : Prepared i q q' es) :
    Poised q q' (switches es) ∧ (q'.state = .pending → q'.request.resolver.isSome = true) := by
  cases h with
  | passed hq => exact ⟨⟨rfl, id, fun _ => rfl, rfl⟩, fun hpend => absurd hpend hq⟩
  | @readied hq q₁ q₂ _ es₁ es₂ hserved htyped hprobed =>
    have hserver : q₁.request.resolver.isSome = true ∧ q₁.attemptsLeft = q.attemptsLeft
        ∧ switches es₁ = [] := by
      cases hserved with
      | named h => exact ⟨h, rfl, rfl⟩
      | drawn => exact ⟨rfl, rfl, rfl⟩
    have htype : q₂.request.resolver = q₁.request.resolver
        ∧ q₂.attemptsLeft = q₁.attemptsLeft := by
      cases htyped <;> exact ⟨rfl, rfl⟩
    have hprobe : q'.request.resolver = q₂.request.resolver
        ∧ q'.attemptsLeft = q₂.attemptsLeft ∧ switches es₂ = [] := by
      cases hprobed with
      | skipped | missed | half => exact ⟨rfl, rfl, rfl⟩
      | whole =>
        refine ⟨rfl, rfl, ?_⟩
        unfold callback
        split <;> rfl
    refine ⟨⟨?_, fun _ => hq, fun hne => absurd hq hne, ?_⟩, fun _ => ?_⟩
    · rw [hprobe.2.1, htype.2, hserver.2.1]
    · rw [switches_append, hserver.2.2, hprobe.2.2]
      rfl
    · rw [hprobe.1, htype.1]
      exact hserver.1

theorem Unprepared.poised {i : Nat} {q q' : Query} {es : List Event} (h : Unprepared i q q' es) :
    Poised q q' (switches es) := by
  cases h <;> exact ⟨rfl, id, fun _ => rfl, rfl⟩

theorem prepare_poised (S : Services σ) (qs : List Query) (w : σ) :
    Passes (fun _ q q' es => Poised q q' (switches es)) 0 qs (prepare S 0 none qs w).1.1
      (prepare S 0 none qs w).2.1 :=
  (prepare_passes S 0 none qs w).mono fun _ _ _ _ h => by
    rcases h with h | ⟨-, h⟩
    · exact h.poised.1
    · exact h.poised

theorem batches_prepare (S : Services σ) (qs : List Query) (w : σ) :
    batches (prepare S 0 none qs w).2.1 = [] := by
  refine batches_of_unsent fun round batch he => ?_
  rcases prepare_unsent S 0 none qs w _ he with ⟨k, hk⟩ | ⟨stack, hstack⟩
  · cases hk
  · cases hstack

/-- A job that could be prepared goes into its first round with a server for each query. -/
theorem equipped_firstRound {j : Job} {w : σ} (h : (prepare S 0 none j.queries w).1.2 = true) :
    (firstRound S j w).Equipped := by
  intro q' hmem
  obtain ⟨k, hq'⟩ := List.getElem?_of_mem hmem
  obtain ⟨q, hq⟩ := (prepare_passes S 0 none j.queries w).get_before hq'
  rcases (prepare_passes S 0 none j.queries w).each hq hq' with hprepared | ⟨hrefused, -⟩
  · exact hprepared.poised.2
  · rw [h] at hrefused
    cases hrefused

/-- A query that is still pending has all its attempts left and has not been exchanged. -/
structure Untried (j : Job) (es : List Event) : Prop where
  full : ∀ {k q}, j.queries[k]? = some q → q.state = .pending →
    q.attemptsLeft = j.settings.attempts ∧ roundsOf k es = []
  beyond : ∀ {k}, j.queries.length ≤ k → roundsOf k es = []

theorem Settles.beyond {r : Round σ} {qs : List Query} {es : List Event} {w : σ}
    (h : Settles S settings r qs es w) {k : Nat} (hk : r.queries.length ≤ k) :
    roundsOf k es = [] := by
  induction h with
  | ended => exact roundsOf_of_batches (Round.batches_launched S settings _)
  | @again r qs es w _ _ ih =>
    have hunsent : k ∉ r.sent S settings := fun hsent => by
      obtain ⟨seat, hs, -⟩ := (r.mem_sent S settings).1 hsent
      have hlt := (List.getElem?_eq_some_iff.1 hs).1
      have hlen := (r.seats_pass S settings).length_eq
      omega
    rw [roundsOf_append, r.roundsOf_events, if_neg hunsent, ih, List.append_nil]
    exact (r.passes S settings).length_eq ▸ hk

theorem Life.untried {rs : List (Request × Bool)} {j : Job} {es : List Event} {w : σ}
    (life : Life S settings rs j es w) : Untried j es := by
  induction life with
  | made => exact ⟨fun h => by simp at h, fun _ => rfl⟩
  | @queued rs j j' es w r armed _ h ih =>
    obtain ⟨-, rfl⟩ := add_eq_ok h
    refine ⟨fun {k q} hq hpend => ?_, fun {k} hk => ih.beyond ?_⟩
    · by_cases hk : k < j.queries.length
      · rw [List.getElem?_append_left hk] at hq
        exact ih.full hq hpend
      · rw [List.getElem?_append_right (Nat.le_of_not_lt hk)] at hq
        obtain rfl := List.mem_singleton.1 (List.mem_of_getElem? hq)
        exact ⟨rfl, ih.beyond (Nat.le_of_not_lt hk)⟩
    · rw [List.length_append, List.length_singleton] at hk
      omega
  | @ran rs j es w _ ih =>
    have hp := prepare_poised S j.queries w
    have hnone := batches_prepare S j.queries w
    have hrun := executes_run S j w
    generalize run S j w = out at hrun ⊢
    cases hrun with
    | refused =>
      refine ⟨fun {k q'} hq' hpend => ?_, fun {k} hk => ?_⟩
      · obtain ⟨q, hq⟩ := hp.get_before hq'
        have hpoised := hp.each hq hq'
        obtain ⟨hleft, hrounds⟩ := ih.full hq (hpoised.pending hpend)
        rw [roundsOf_append, roundsOf_of_batches hnone, hrounds]
        exact ⟨hpoised.attempts.trans hleft, rfl⟩
      · rw [roundsOf_append, roundsOf_of_batches hnone, ih.beyond (hp.length_eq ▸ hk)]
        rfl
    | @settled _ qs es' w' hs =>
      refine ⟨fun {k q'} hq' hpend => ?_, fun {k} hk => ?_⟩
      · obtain ⟨q, -, rfl⟩ := List.mem_map.1 (List.mem_of_getElem? hq')
        exact absurd hpend (state_sweep_ne q)
      · have hlen : j.queries.length ≤ k := by
          have hqs : qs.length = (prepare S 0 none j.queries w).1.1.length := hs.passes.length_eq
          rw [← hp.length_eq, ← hqs]
          simpa using hk
        have hlen' : (firstRound S j w).queries.length ≤ k := by
          have hfirst : (firstRound S j w).queries.length = j.queries.length := hp.length_eq
          omega
        rw [roundsOf_append, roundsOf_append, ih.beyond hlen, roundsOf_of_batches hnone,
          hs.beyond hlen']
        rfl
  | waited _ _ ih => exact ih

/-! ## Runs -/

/-- What holds of a round that is sent: its number and the next one fit 32 bits; it holds exactly
the pending queries with attempts left that are not refused a server, in their order; each of them
spends one attempt, and completes if and only if its exchange gives a usable answer. -/
structure Regular (S : Services σ) (settings : JobSettings) (r : Round σ) : Prop where
  counted : r.number + 1 < UInt32.size
  ascending : (r.sent S settings).Pairwise (· < ·)
  sent_iff : ∀ k, k ∈ r.sent S settings ↔ ∃ q, r.queries[k]? = some q ∧ q.state = .pending
    ∧ 0 < q.attemptsLeft ∧ ¬ r.Refuses S settings k
  spends : ∀ {k q q'}, k ∈ r.sent S settings → r.queries[k]? = some q →
    (r.after S settings)[k]? = some q' →
      q'.attemptsLeft + 1 = q.attemptsLeft ∧ q.attemptsLeft ≤ settings.attempts
  state_eq : ∀ {k q'}, k ∈ r.sent S settings → (r.after S settings)[k]? = some q' →
    (r.Answers S settings k → q'.state = .completed)
      ∧ (¬ r.Answers S settings k → q'.state = .pending)

/-- How often a query was exchanged in a run that found it pending. -/
structure Tallied (settings : JobSettings) (q : Query) (rounds : List Nat)
    (drawn : List (Option Endpoint)) : Prop where
  consecutive : rounds = List.range rounds.length
  within : rounds.length ≤ settings.attempts
  exhausted : q.state = .exhausted →
    rounds.length = settings.attempts ∨ drawn.getLast? = some none

theorem Turn.of_sent {r : Round σ} {k : Nat} {q q' : Query} {drawn : List (Option Endpoint)}
    (h : Turn S settings r k q q' drawn) (hk : k ∈ r.sent S settings) :
    q.isRunnable = true ∧ q'.attemptsLeft + 1 = q.attemptsLeft
      ∧ (r.Answers S settings k → q'.state = .completed)
      ∧ (¬ r.Answers S settings k → q'.state = .pending) := by
  cases h with
  | rests _ hunsent | refused _ hunsent => exact absurd hk hunsent
  | failed hrun _ hans hstate hspent =>
    exact ⟨hrun, hspent, fun hyes => absurd hyes hans, fun _ => hstate⟩
  | answered hrun _ hans hstate hspent =>
    exact ⟨hrun, hspent, fun _ => hstate, fun hno => absurd hans hno⟩

theorem attempts_lt (settings : JobSettings) : settings.attempts < UInt32.size := by
  have hle : settings.attempts ≤ UInt32.size - 1 := Nat.min_le_right _ _
  have hpos : 0 < UInt32.size := by decide
  omega

theorem Round.regular {r : Round σ} (heq : r.Equipped) (hb : Bounded settings.attempts r)
    (hsent : r.isSent S settings) : Regular S settings r where
  counted := by
    have hnext : r.number + 1 ≤ settings.attempts := (hb.next heq hsent).number_le
    have hlt := attempts_lt settings
    omega
  ascending := r.sent_ascending S settings
  sent_iff _ := r.mem_sent_iff heq
  spends hk hq hq' := by
    obtain ⟨hrun, hspent, -⟩ := (Round.turn heq hq hq').of_sent hk
    have hle := hb.left _ (List.mem_of_getElem? hq) hrun
    exact ⟨hspent, by omega⟩
  state_eq hk hq' := by
    obtain ⟨q, hq⟩ := (r.passes S settings).get_before hq'
    exact ((Round.turn heq hq hq').of_sent hk).2.2

theorem Untried.bounded_firstRound {j : Job} {es : List Event} (h : Untried j es) (w : σ) :
    Bounded j.settings.attempts (firstRound S j w) where
  number_le := Nat.zero_le _
  left q' hmem hrun := by
    obtain ⟨k, hq'⟩ := List.getElem?_of_mem hmem
    obtain ⟨q, hq⟩ := (prepare_poised S j.queries w).get_before hq'
    have hpoised := (prepare_poised S j.queries w).each hq hq'
    have hfull := (h.full hq (hpoised.pending (Query.isRunnable_iff.1 hrun).1)).1
    show 0 + q'.attemptsLeft ≤ j.settings.attempts
    have hleft := hpoised.attempts
    omega

/-- A query that is answered in a round was exchanged in that one last. -/
theorem Settles.roundsOf_answered {r r' : Round σ} {qs : List Query} {es : List Event} {w : σ}
    (h : Settles S settings r qs es w) (heq : r.Equipped) (hreach : Reaches S settings r r')
    {k : Nat} (hk : k ∈ r'.sent S settings) (hans : r'.Answers S settings k) :
    ∃ before, roundsOf k es = before ++ [r'.number] := by
  obtain ⟨es₁, es₂, rfl, h₂⟩ := h.split hreach
  have heq' := hreach.equipped heq
  obtain ⟨q, hq, -⟩ := (Round.mem_sent_iff heq').1 hk
  cases h₂ with
  | ended hend => exact absurd ((r'.isSent_iff S settings).2 ⟨k, hk⟩) hend
  | @again _ qs es₃ w _ rest =>
    obtain ⟨q₁, hq₁⟩ := (r'.passes S settings).get_after hq
    obtain ⟨q₂, hq₂⟩ := rest.passes.get_after hq₁
    have hdone := ((Round.turn heq' hq hq₁).of_sent hk).2.2.1 hans
    have hsilent := ((rest.spends heq'.next hq₁ hq₂).resting
      (by simp [Query.isRunnable, hdone])).2.1
    refine ⟨roundsOf k es₁, ?_⟩
    rw [roundsOf_append, roundsOf_append, r'.roundsOf_events, if_pos hk, hsilent, List.append_nil]

theorem eq_range_of_snoc {ns before : List Nat} {m : Nat} (h : ns = before ++ [m])
    (hrange : ns = List.range ns.length) : ns = List.range (m + 1) := by
  have hlen : ns.length = before.length + 1 := by simp [h]
  rw [hlen, List.range_succ] at hrange
  have hlast : [m] = [before.length] := (List.append_inj' (h.symm.trans hrange) rfl).2
  rw [hrange, List.singleton_inj.1 hlast, List.range_succ]

/-- A query that is answered in a round was exchanged in every round up to that one, and in none
after it. -/
theorem Settles.answered_range {j : Job} {w w' : σ} {qs : List Query} {fs : List Event}
    (hs : Settles S j.settings (firstRound S j w) qs fs w') (heq : (firstRound S j w).Equipped)
    {r : Round σ} (hreach : Reaches S j.settings (firstRound S j w) r) {k : Nat}
    (hk : k ∈ r.sent S j.settings) (hans : r.Answers S j.settings k) :
    roundsOf k fs = List.range (r.number + 1) := by
  obtain ⟨before, hlast⟩ := hs.roundsOf_answered heq hreach hk hans
  have hlt : k < (firstRound S j w).queries.length := by
    by_contra hge
    rw [hs.beyond (Nat.le_of_not_lt hge)] at hlast
    exact List.append_ne_nil_of_right_ne_nil _ (List.cons_ne_nil _ _) hlast.symm
  obtain ⟨q', hq'⟩ := hs.passes.get_after (List.getElem?_eq_getElem hlt)
  refine eq_range_of_snoc hlast ?_
  rw [List.range_eq_range']
  exact (hs.spends heq (List.getElem?_eq_getElem hlt) hq').consecutive

/-- A query that was pending before a run is pending or completed before the sweep at its end. -/
theorem Settles.state_eq {j : Job} {w w' : σ} {qs : List Query} {fs : List Event}
    (hs : Settles S j.settings (firstRound S j w) qs fs w') {k : Nat} {q q' : Query}
    (hq : j.queries[k]? = some q) (hq' : qs[k]? = some q') (hpend : q.state = .pending) :
    q'.state = .pending ∨ q'.state = .completed := by
  have hpass := ((prepare_progress S 0 none j.queries w).comp hs.passes).mono
    (P := fun _ => Progress) fun _ _ _ _ ⟨_, _, _, h₁, h₂, h⟩ => h ▸ h₁.trans h₂
  cases hpass.each hq hq' with
  | still hstate => exact .inl (hstate.trans hpend)
  | done _ hdone => exact .inr hdone

theorem Settles.tallied {j : Job} {es : List Event} (h : Untried j es) {w w' : σ}
    {qs : List Query} {fs : List Event} (hs : Settles S j.settings (firstRound S j w) qs fs w')
    (heq : (firstRound S j w).Equipped) {k : Nat} {q q' : Query} (hq : j.queries[k]? = some q)
    (hq' : qs[k]? = some q') (hpend : q.state = .pending) :
    Tallied j.settings q'.sweep (roundsOf k fs) (switches (about k fs)) := by
  obtain ⟨q₁, hq₁⟩ := (prepare_poised S j.queries w).get_after hq
  have hspends := hs.spends heq hq₁ hq'
  have hpoised := (prepare_poised S j.queries w).each hq hq₁
  have hfull : q₁.attemptsLeft = j.settings.attempts :=
    hpoised.attempts.trans (h.full hq hpend).1
  refine ⟨?_, hfull ▸ hspends.within, fun hout => ?_⟩
  · rw [List.range_eq_range']
    exact hspends.consecutive
  · rcases hs.state_eq hq hq' hpend with hstill | hdone
    · have hstill₁ : q₁.state = .pending := by
        by_contra hne
        rw [(hspends.resting (by simp [Query.isRunnable, hne])).1] at hstill
        exact hne hstill
      exact hfull ▸ hspends.spent hstill₁ hstill
    · have hsweep : q'.sweep = q' := if_neg (by rw [hdone]; decide)
      rw [hsweep, hdone] at hout
      cases hout

/-- A query that is not pending is left alone by a run. -/
theorem Settles.left_alone {j : Job} {w w' : σ} {qs : List Query} {fs : List Event}
    (hs : Settles S j.settings (firstRound S j w) qs fs w')
    (heq : (firstRound S j w).Equipped) {k : Nat} {q q' : Query} (hq : j.queries[k]? = some q)
    (hq' : qs[k]? = some q') (hne : q.state ≠ .pending) : q'.sweep = q ∧ roundsOf k fs = [] := by
  obtain ⟨q₁, hq₁⟩ := (prepare_poised S j.queries w).get_after hq
  obtain rfl := ((prepare_poised S j.queries w).each hq hq₁).others hne
  obtain ⟨rfl, hrounds, -⟩ :=
    (hs.spends heq hq₁ hq').resting (by simp [Query.isRunnable, hne])
  exact ⟨if_neg hne, hrounds⟩

/-- A query that gets a usable answer in a round of a run is completed when the run ends. -/
theorem InRun.completed {j : Job} {w : σ} {r : Round σ} (hr : InRun S j w r) {k : Nat}
    (hk : k ∈ r.sent S j.settings) (hans : r.Answers S j.settings k) :
    ∃ q, (run S j w).1.1.queries[k]? = some q ∧ q.state = .completed := by
  have heq := hr.reached.equipped (equipped_firstRound hr.prepared)
  obtain ⟨q, hq, -⟩ := (Round.mem_sent_iff heq).1 hk
  obtain ⟨q', hq'⟩ := (r.passes S j.settings).get_after hq
  have hdone := ((Round.turn heq hq hq').of_sent hk).2.2.1 hans
  exact ⟨q', hr.kept hq' (by rw [hdone]; decide), hdone⟩

/-- Preparation leaves no query exhausted that was pending. -/
theorem not_exhausted_of_prepare {S : Services σ} {qs : List Query} {w : σ} {k : Nat}
    {q q' : Query} (hq : qs[k]? = some q) (hq' : (prepare S 0 none qs w).1.1[k]? = some q')
    (hpend : q.state = .pending) : q'.state ≠ .exhausted := by
  cases (prepare_progress S 0 none qs w).each hq hq' with
  | still hstate =>
    rw [hstate, hpend]
    decide
  | done _ hdone =>
    rw [hdone]
    decide

/-- What a run sends are the exchanges of its rounds. -/
theorem mem_batches_run {j : Job} {w : σ} {b : Nat × List (Nat × Exchange)} :
    b ∈ batches (run S j w).2.1
      ↔ ∃ r, InRun S j w r ∧ b = (r.number, manifest (r.seats S j.settings)) := by
  have hnone := batches_prepare S j.queries w
  have hrun := executes_run S j w
  generalize run S j w = out at hrun ⊢
  cases hrun with
  | refused hf =>
    rw [hnone]
    exact ⟨fun hb => (nomatch hb), fun ⟨r, hr, _⟩ => absurd (hf.symm.trans hr.prepared) (by decide)⟩
  | settled ht hs =>
    rw [batches_append, hnone, List.nil_append, hs.mem_batches]
    exact ⟨fun ⟨r, hreach, hsent, hb⟩ => ⟨r, ⟨ht, hreach, hsent⟩, hb⟩,
      fun ⟨r, hr, hb⟩ => ⟨r, hr.reached, hr.sent, hb⟩⟩

/-- In every run each round is one batch, and regular. A query that the run finds pending has never
been exchanged before; it is exchanged in the first round and in each one after it, until it is
answered, and if it is exhausted it was exchanged as often as it may, or no server was found for it
at last. Any other query is left alone. -/
theorem run_exchanges {rs : List (Request × Bool)} {j : Job} {es : List Event} {w : σ}
    (life : Life S settings rs j es w) :
    (∀ b, b ∈ batches (run S j w).2.1
        ↔ ∃ r, InRun S j w r ∧ b = (r.number, manifest (r.seats S j.settings)))
      ∧ (batches (run S j w).2.1).map (·.1) = List.range (batches (run S j w).2.1).length
      ∧ (∀ r, InRun S j w r → Regular S j.settings r
        ∧ ∀ k ∈ r.sent S j.settings, r.Answers S j.settings k →
          roundsOf k (run S j w).2.1 = List.range (r.number + 1)
            ∧ ∃ q, (run S j w).1.1.queries[k]? = some q ∧ q.state = .completed)
      ∧ ∀ {k q q'}, j.queries[k]? = some q → (run S j w).1.1.queries[k]? = some q' →
        (q.state ≠ .pending → q' = q ∧ roundsOf k (run S j w).2.1 = [])
          ∧ (q.state = .pending → roundsOf k es = []
            ∧ Tallied j.settings q' (roundsOf k (run S j w).2.1)
              (switches (about k (run S j w).2.1))) := by
  have huntried := life.untried
  have hnone := batches_prepare S j.queries w
  have hcompleted := fun {r : Round σ} (hr : InRun S j w r) {k : Nat} => hr.completed (k := k)
  refine ⟨fun _ => mem_batches_run, ?_⟩
  have hrun := executes_run S j w
  generalize run S j w = out at hrun hcompleted ⊢
  cases hrun with
  | refused hf =>
    have hno : ∀ r, ¬ InRun S j w r := fun r hr => absurd (hf.symm.trans hr.prepared) (by decide)
    refine ⟨?_, fun r hr => absurd hr (hno r), fun {k q q'} hq hq' => ?_⟩
    · rw [hnone]
      rfl
    · rw [roundsOf_of_batches hnone]
      refine ⟨fun hne => ⟨((prepare_poised S j.queries w).each hq hq').others hne, rfl⟩,
        fun hpend => ⟨(huntried.full hq hpend).2, rfl, Nat.zero_le _, fun hexh => ?_⟩⟩
      exact absurd hexh (not_exhausted_of_prepare hq hq' hpend)
  | @settled ht qs fs w' hs =>
    have heq := equipped_firstRound ht
    rw [batches_append, hnone, List.nil_append]
    refine ⟨?_, fun r hr => ⟨?_, fun k hk hans => ⟨?_, hcompleted hr hk hans⟩⟩,
      fun {k q q'} hq hq' => ?_⟩
    · rw [hs.numbers, List.range_eq_range']
      rfl
    · exact Round.regular (hr.reached.equipped heq)
        (hr.reached.bounded (huntried.bounded_firstRound w) heq) hr.sent
    · rw [roundsOf_append, roundsOf_of_batches hnone, List.nil_append]
      exact hs.answered_range heq hr.reached hk hans
    · rw [List.getElem?_map] at hq'
      obtain ⟨q'', hq'', rfl⟩ := Option.map_eq_some_iff.1 hq'
      obtain ⟨q₁, hq₁⟩ := (prepare_poised S j.queries w).get_after hq
      rw [roundsOf_append, roundsOf_of_batches hnone, List.nil_append, about_append,
        switches_append]
      refine ⟨hs.left_alone heq hq hq'', fun hpend => ⟨(huntried.full hq hpend).2, ?_⟩⟩
      have hundrawn := ((prepare_poised S j.queries w).each hq hq₁).undrawn
      rw [Nat.zero_add] at hundrawn
      rw [hundrawn]
      exact hs.tallied huntried heq hq hq'' hpend

/-- A lookup that is answered by its second server is exchanged twice, a batched one that is never
answered three times. -/
theorem run_exchanges_pair :
    let S := (Services.steady (fun _ => none)
      (fun e => if e.server = "192.0.2.2" then .ok ⟨statusOk, "", 10⟩ else .error (.timeout 9))
      fun _ => some { host := "a.com", ips := ["203.0.113.1"] }).withPool
    let ask (host : String) (multi : Bool) : Request :=
      { host, accountId := "100000", resolver := some "192.0.2.1", queryType := .a
        usingMulti := multi }
    let settings : JobSettings := ⟨2, "", "", 0⟩
    let query (host : String) (multi : Bool) : Query :=
      .ofRequest (ask host multi) true settings.attempts
    let j : Job := ⟨settings, [query "a.com" false, query "b.com,c.com" true]⟩
    let w : Pool × Unit := ({ ipv4 := [⟨"192.0.2.1", none⟩, ⟨"192.0.2.2", none⟩] }, ())
    Life S settings [(ask "a.com" false, true), (ask "b.com,c.com" true, true)] j [] w
      ∧ (run S j w).1.1.queries.map (·.state) = [.completed, .exhausted]
      ∧ roundsOf 0 (run S j w).2.1 = [0, 1]
      ∧ roundsOf 1 (run S j w).2.1 = [0, 1, 2]
      ∧ ∃ r, InRun S j w r ∧ r.number = 2 ∧ Regular S settings r := by
  intro S ask settings query j w
  have one : Life S settings [(ask "a.com" false, true)] ⟨settings, [query "a.com" false]⟩ [] w :=
    (Life.made w).queued (add_ok _ true (by decide))
  have life : Life S settings [(ask "a.com" false, true), (ask "b.com,c.com" true, true)] j [] w :=
    one.queued (add_ok _ true (by decide))
  obtain ⟨hbatch, -, hround, -⟩ := run_exchanges life
  refine ⟨life, by decide +kernel, by decide +kernel, by decide +kernel, ?_⟩
  have hmem : 2 ∈ (batches (run S j w).2.1).map (·.1) := by decide +kernel
  obtain ⟨b, hb, hnumber⟩ := List.mem_map.1 hmem
  obtain ⟨r, hr, rfl⟩ := (hbatch b).1 hb
  exact ⟨r, hr, hnumber, (hround r hr).1⟩

end HttpDns.Job
