import HttpDns.Proofs.Merge
import HttpDns.Proofs.Rounds

/-!
# The life of a job

A job is made, queues requests and is run, in any order and any number of times, while the state of
its services may change between two calls. Each of its steps either leaves a query where it stands,
silently, or completes a pending one with at least one answer and calls its callback (`Progress`).
What each run keeps is kept over a whole life (`Life.carries`). In every life a query is therefore
completed with all its results by one call of its callback, or has no results and its callback has
not been called (`Sound`, `Life.sound`).
-/

namespace HttpDns.Job

variable {σ : Type}

/-- What a step makes of a query. -/
inductive Progress (q q' : Query) (es : List Event) : Prop
  | still (state : q'.state = q.state) (results : q'.results = q.results)
      (armed : q'.armed = q.armed) (quiet : firings es = [])
  | done (was : q.state = .pending) (now : q'.state = .completed) {answers : List Resolution}
      (hne : answers ≠ []) (results : q'.results = q.results ++ answers)
      (fired : firings es = if q.armed then [q'.results] else [])

namespace Progress

theorem refl (q : Query) : Progress q q [] := .still rfl rfl rfl rfl

theorem trans {q₁ q₂ q₃ : Query} {es fs : List Event} (h : Progress q₁ q₂ es)
    (h' : Progress q₂ q₃ fs) : Progress q₁ q₃ (es ++ fs) := by
  cases h with
  | still hs hr ha hq =>
    cases h' with
    | still hs' hr' ha' hq' =>
      exact .still (hs'.trans hs) (hr'.trans hr) (ha'.trans ha)
        (by rw [firings_append, hq, hq']; rfl)
    | done hw hn hne hr' hf =>
      refine .done (hs ▸ hw) hn hne (by rw [hr', hr]) ?_
      rw [firings_append, hq, hf, ha, List.nil_append]
  | done hw hn hne hr hf =>
    cases h' with
    | still hs' hr' ha' hq' =>
      refine .done hw (hs'.trans hn) hne (hr'.trans hr) ?_
      rw [firings_append, hf, hq', hr', List.append_nil]
    | done hw' => exact absurd (hn.symm.trans hw') (by decide)

theorem composes : Composes fun _ => Progress := fun _ _ _ _ _ _ => trans

theorem of_complete {i : Nat} {q : Query} {answers : List Resolution} {es : List Event}
    (hq : q.state = .pending) (hne : answers ≠ []) (hes : firings es = []) :
    Progress q (q.complete answers) (es ++ callback i q (q.results ++ answers)) := by
  refine .done hq rfl hne rfl ?_
  rw [firings_append, hes, firings_callback]
  rfl

theorem of_carry {q : Query} {server : Option String} {attempts : Nat} {failed : Option String}
    {es : List Event} (hes : firings es = []) : Progress q (q.carry server attempts failed) es :=
  .still rfl rfl rfl hes

end Progress

/-! ## Preparation -/

/-- What a query keeps as it gets a server and a settled type. -/
structure Readies (q q' : Query) : Prop where
  state : q'.state = q.state
  results : q'.results = q.results
  hit : q'.partialHit = q.partialHit
  usesProbe : q'.usesProbe = q.usesProbe
  ownKey : q'.ownKey = q.ownKey

theorem Served.readies {i : Nat} {q q₁ q₂ : Query} {es : List Event} (served : Served i q q₁ es)
    (typed : Typed q₁ q₂) : Readies q q₂ := by
  cases served <;> cases typed <;> exact ⟨rfl, rfl, rfl, rfl, rfl⟩

theorem Served.results_eq {i : Nat} {q q' : Query} {es : List Event} (h : Served i q q' es) :
    q'.results = q.results := by
  cases h <;> rfl

theorem Served.firings_eq {i : Nat} {q q' : Query} {es : List Event} (h : Served i q q' es) :
    firings es = [] := by
  cases h <;> rfl

theorem Served.progress {i : Nat} {q q' : Query} {es : List Event} (h : Served i q q' es) :
    Progress q q' es := by
  cases h <;> exact .still rfl rfl rfl rfl

theorem Typed.progress {q q' : Query} (h : Typed q q') : Progress q q' [] := by
  cases h <;> exact .still rfl rfl rfl rfl

theorem Probed.progress {i : Nat} {q q' : Query} {es : List Event} (h : Probed i q q' es)
    (hq : q.state = .pending) : Progress q q' es := by
  cases h with
  | whole _ r => exact .of_complete hq (List.cons_ne_nil _ _) rfl
  | skipped | missed | half => exact .still rfl rfl rfl rfl

theorem Prepared.progress {i : Nat} {q q' : Query} {es : List Event} (h : Prepared i q q' es) :
    Progress q q' es := by
  cases h with
  | passed => exact .refl q
  | readied hq hs ht hp =>
    have h := (hs.progress.trans ht.progress).trans
      (hp.progress ((hs.readies ht).state.trans hq))
    rwa [List.append_nil] at h

theorem Unprepared.progress {i : Nat} {q q' : Query} {es : List Event}
    (h : Unprepared i q q' es) : Progress q q' es := by
  cases h <;> exact .still rfl rfl rfl rfl

theorem prepare_progress (S : Services σ) (i : Nat) (seen : Option Stack) (qs : List Query)
    (w : σ) :
    Passes (fun _ => Progress) i qs (prepare S i seen qs w).1.1 (prepare S i seen qs w).2.1 :=
  (prepare_passes S i seen qs w).mono fun _ _ _ _ h => by
    rcases h with h | ⟨-, h⟩
    · exact h.progress
    · exact h.progress

/-! ## Rounds -/

section Rounds

variable {S : Services σ} {settings : JobSettings} {r : Round σ}

theorem exists_mem_round {now : Nat} {ls : List Landing} {l : Landing} (hl : l ∈ ls)
    {out : Outgoing} {answers : List Answer} (ho : l.outcome = .answered out answers) {a : Answer}
    (ha : a ∈ answers) : ∃ m ∈ roundResolutions now ls, m.host = a.host := by
  have hres : Resolution.ofAnswer a (out.request.cacheKeyFor a.host) now
      ∈ ls.flatMap (Landing.resolutions now) := by
    refine List.mem_flatMap.2 ⟨l, hl, ?_⟩
    unfold Landing.resolutions
    rw [ho]
    exact List.mem_map_of_mem ha
  exact Resolution.exists_mem_merge hres

theorem share_ne_nil {now : Nat} {ls : List Landing} {l : Landing} (hl : l ∈ ls)
    {out : Outgoing} {answers : List Answer} (ho : l.outcome = .answered out answers)
    (hne : answers ≠ []) (q : Query) : share (roundResolutions now ls) q answers ≠ [] := by
  obtain ⟨a, ha⟩ := List.exists_mem_of_ne_nil answers hne
  obtain ⟨m, hm, hhost⟩ := (exists_mem_round hl ho ha : ∃ m ∈ roundResolutions now ls, _)
  have hkeep : m ∈ (roundResolutions now ls).filter fun r => answers.any (·.host = r.host) :=
    List.mem_filter.2 ⟨hm, List.any_eq_true.2 ⟨a, ha, decide_eq_true hhost.symm⟩⟩
  unfold share
  rw [Ne, List.map_eq_nil_iff]
  exact List.ne_nil_of_mem hkeep

theorem Boarded.progress {now round i : Nat} {q : Query} {seat : Seat} {es : List Event}
    (h : Boarded S settings now round i q seat es) : Progress q seat.query es := by
  obtain ⟨server, attempts, failed, hc⟩ := h.carry_eq
  rw [hc]
  exact .of_carry h.firings_eq

theorem Returned.progress {traffic : Traffic} {i : Nat} {seat : Seat} {l : Landing}
    {es : List Event} (h : Returned S traffic i seat l es) : Progress seat.query l.query es := by
  obtain ⟨failed, hc⟩ := h.carry_eq
  rw [hc]
  exact .of_carry h.firings_eq

/-- An answered query was sent, so it is pending, and its answers are those with an address in the
reply to its own exchange. -/
theorem answered_cases {traffic : Traffic} {now round i : Nat} {q : Query} {seat : Seat}
    {l : Landing} {es fs : List Event} (hb : Boarded S settings now round i q seat es)
    (hl : Returned S traffic i seat l fs) {out : Outgoing} {answers : List Answer}
    (ho : l.outcome = .answered out answers) :
    q.isRunnable = true ∧ l.query = seat.query ∧ outgoing S settings now seat.query = some out
      ∧ answers ≠ []
      ∧ ∃ response w, ((i, out.exchange), .ok response) ∈ traffic ∧ response.isOk = true
        ∧ answers = (readBody S out.request response.body w).1.filter (!·.isEmpty) := by
  cases hl with
  | idle => cases ho
  | landed hout hr hl =>
    cases hl with
    | failed => cases ho
    | @answered response hreply hok w hne =>
      cases ho
      obtain ⟨hrun, hsent⟩ := hb.of_out hout
      exact ⟨hrun, rfl, hsent, hne, response, w, hreply ▸ hr, hok, rfl⟩

theorem firings_stored (i : Nat) (rs : List Resolution) : firings (rs.map (.stored i)) = [] := by
  unfold firings
  rw [List.filterMap_map]
  exact List.filterMap_eq_nil_iff.2 fun _ _ => rfl

theorem Landing.progress {merged : List Resolution} {l : Landing}
    (h : ∀ out answers, l.outcome = .answered out answers →
      l.query.state = .pending ∧ share merged l.query answers ≠ []) :
    Progress l.query (l.after merged) (l.told merged) := by
  unfold after told
  cases ho : l.outcome with
  | idle | failed => exact .refl _
  | answered out answers =>
    obtain ⟨hq, hne⟩ := h out answers ho
    refine .done hq rfl hne rfl ?_
    rw [firings_append, firings_callback]
    split <;> simp [firings_stored, Query.complete]

theorem Rounded.progress {i : Nat} {q q' : Query} {es : List Event}
    (h : Rounded S settings r i q q' es) : Progress q q' es := by
  obtain ⟨seat, l, es₁, es₂, hb, hl, hk, rfl, rfl⟩ := h
  refine hb.progress.trans (hl.progress.trans (Landing.progress fun out answers ho => ?_))
  obtain ⟨hrun, hquery, -, hne, -⟩ := answered_cases hb hl ho
  obtain ⟨server, attempts, failed, hc⟩ := hb.carry_eq
  refine ⟨?_, share_ne_nil (List.mem_of_getElem? hk) ho hne l.query⟩
  rw [hquery, hc]
  exact (Query.isRunnable_iff.1 hrun).1

theorem Settles.passes {qs : List Query} {es : List Event} {w : σ}
    (h : Settles S settings r qs es w) : Passes (fun _ => Progress) 0 r.queries qs es := by
  exact h.carries Progress.composes (·.progress) (·.progress)

theorem Reaches.passes {r' : Round σ} (h : Reaches S settings r r') :
    ∃ es, Passes (fun _ => Progress) 0 r.queries r'.queries es := by
  induction h with
  | refl r => exact ⟨[], Passes.of_refl (fun _ => Progress.refl) 0 r.queries⟩
  | @step r r' hsent _ ih =>
    obtain ⟨es, ih⟩ := ih
    refine ⟨r.events S settings ++ es, Passes.trans Progress.composes ?_ ih⟩
    exact (r.passes S settings).mono fun _ _ _ _ hr => hr.progress

end Rounds

/-! ## Runs and lives -/

/-- A run makes progress on every query; where it does not fail, what is still pending then is
exhausted. -/
theorem run_passes (S : Services σ) (j : Job) (w : σ) :
    ∃ qs, Passes (fun _ => Progress) 0 j.queries qs (run S j w).2.1
      ∧ (run S j w).1.1.settings = j.settings
      ∧ ((run S j w).1.2 = .ok () ∧ (run S j w).1.1.queries = qs.map Query.sweep
        ∨ (run S j w).1.2 = .error .noResolverAvailable ∧ (run S j w).1.1.queries = qs) := by
  have hp := prepare_progress S 0 none j.queries w
  have hrun := executes_run S j w
  generalize run S j w = out at hrun ⊢
  cases hrun with
  | refused => exact ⟨_, hp, rfl, .inr ⟨rfl, rfl⟩⟩
  | settled h hs =>
    exact ⟨_, hp.trans Progress.composes hs.passes, rfl, .inl ⟨rfl, rfl⟩⟩

/-- How a query stands after some events about it. -/
structure Sound (armed : Bool) (q : Query) (es : List Event) : Prop where
  pending : q.state = .pending → q.results = [] ∧ q.armed = armed ∧ firings es = []
  completed : q.state = .completed →
    q.results ≠ [] ∧ firings es = if armed then [q.results] else []
  exhausted : q.state = .exhausted → q.results = [] ∧ firings es = []

namespace Sound

variable {armed : Bool} {q q' : Query} {es fs : List Event}

theorem ofRequest (r : Request) (attempts : Nat) :
    Sound armed (.ofRequest r armed attempts) [] where
  pending _ := ⟨rfl, rfl, rfl⟩
  completed h := by cases h
  exhausted h := by cases h

theorem progress (h : Sound armed q es) (hp : Progress q q' fs) : Sound armed q' (es ++ fs) := by
  cases hp with
  | still hs hr ha hq =>
    constructor
    · intro hq'
      rw [firings_append, hq, hr, ha, List.append_nil]
      exact h.pending (hs ▸ hq')
    · intro hq'
      rw [firings_append, hq, hr, List.append_nil]
      exact h.completed (hs ▸ hq')
    · intro hq'
      rw [firings_append, hq, hr, List.append_nil]
      exact h.exhausted (hs ▸ hq')
  | done hw hn hne hr hf =>
    obtain ⟨hres, harm, hes⟩ := h.pending hw
    constructor
    · intro hq'
      rw [hn] at hq'
      cases hq'
    · intro _
      rw [firings_append, hes, hf, harm, hr, hres]
      exact ⟨hne, rfl⟩
    · intro hq'
      rw [hn] at hq'
      cases hq'

theorem sweep (h : Sound armed q es) : Sound armed q.sweep es := by
  unfold Query.sweep
  split
  · rename_i hq
    obtain ⟨hres, -, hes⟩ := h.pending hq
    constructor
    · intro hq'
      cases hq'
    · intro hq'
      cases hq'
    · intro _
      exact ⟨hres, hes⟩
  · exact h

end Sound

theorem run_sound (S : Services σ) (j : Job) (w : σ) :
    Passes (fun _ q q' fs => ∀ {armed es}, Sound armed q es → Sound armed q' (es ++ fs)) 0 j.queries
      (run S j w).1.1.queries (run S j w).2.1 := by
  obtain ⟨qs, hp, -, hq⟩ := run_passes S j w
  rcases hq with ⟨-, hq⟩ | ⟨-, hq⟩
  · rw [hq]
    exact hp.map Query.sweep fun _ _ _ _ hp _ _ hs => (hs.progress hp).sweep
  · rw [hq]
    exact hp.mono fun _ _ _ _ hp _ _ hs => hs.progress hp

/-- What can happen to a job, with the requests it has queued, each with or without a callback, and
the events of its runs. -/
inductive Life (S : Services σ) (settings : JobSettings) :
    List (Request × Bool) → Job → List Event → σ → Prop
  | made (w : σ) : Life S settings [] { settings } [] w
  | queued {rs : List (Request × Bool)} {j j' : Job} {es : List Event} {w : σ} {r : Request}
      {armed : Bool} (life : Life S settings rs j es w) (h : j.add r armed = .ok j') :
      Life S settings (rs ++ [(r, armed)]) j' es w
  | ran {rs : List (Request × Bool)} {j : Job} {es : List Event} {w : σ}
      (life : Life S settings rs j es w) :
      Life S settings rs (run S j w).1.1 (es ++ (run S j w).2.1) (run S j w).2.2
  | waited {rs : List (Request × Bool)} {j : Job} {es : List Event} {w : σ}
      (life : Life S settings rs j es w) (w' : σ) : Life S settings rs j es w'

theorem add_ok (j : Job) {r : Request} (armed : Bool) (h : r.fault? = none) : j.add r armed
    = .ok { j with queries := j.queries ++ [.ofRequest r armed j.settings.attempts] } := by
  rw [Job.add, h]

theorem add_error (j : Job) {r : Request} (armed : Bool) {f : RequestFault}
    (h : r.fault? = some f) : j.add r armed = .error f := by
  rw [Job.add, h]

theorem add_eq_ok {j j' : Job} {r : Request} {armed : Bool} (h : j.add r armed = .ok j') :
    r.fault? = none
      ∧ j' = { j with queries := j.queries ++ [.ofRequest r armed j.settings.attempts] } := by
  unfold Job.add at h
  split at h
  · cases h
  · rename_i hf
    cases h
    exact ⟨hf, rfl⟩

namespace Life

variable {S : Services σ} {settings : JobSettings} {rs : List (Request × Bool)} {j : Job}
  {es : List Event} {w : σ}

/-- What is so of a query as its request is queued, and stays so by what each run does to it, is so
over a whole life. -/
theorem carries {R : Nat → Query → Query → List Event → Prop}
    {P : Nat → Request × Bool → Query → List Event → Prop}
    (hqueued : ∀ i r armed attempts, P i (r, armed) (.ofRequest r armed attempts) [])
    (hran : ∀ j w, Passes R 0 j.queries (run S j w).1.1.queries (run S j w).2.1)
    (hkept : ∀ {i ra q q' es fs}, P i ra q es → R i q q' fs → P i ra q' (es ++ fs))
    (life : Life S settings rs j es w) : Passes P 0 rs j.queries es := by
  induction life with
  | made => exact .nil
  | queued _ h ih =>
    obtain ⟨-, rfl⟩ := add_eq_ok h
    exact ih.snoc (hqueued ..)
  | @ran rs j es w _ ih =>
    refine (ih.comp (hran j w)).mono ?_
    rintro i ra q gs ⟨q', es₁, es₂, h, hr, rfl⟩
    exact hkept h hr
  | waited _ _ ih => exact ih

/-- Whatever has happened to a job, each of its queries stands as its requests' callbacks tell. -/
theorem sound (life : Life S settings rs j es w) :
    Passes (fun _ r q gs => Sound r.2 q gs) 0 rs j.queries es :=
  life.carries (fun _ r _ attempts => .ofRequest r attempts) (run_sound S) fun h hr => hr h

end Life

end HttpDns.Job
