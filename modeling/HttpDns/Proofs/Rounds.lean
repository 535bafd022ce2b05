import HttpDns.Proofs.Steps

/-!
# The rounds of a run

`Settles` goes on from round to round until nothing goes out, with no bound on their number, and
`Executes` is a run over it. Each round costs a query that may be sent an attempt
(`Round.attemptsLeft_lt`), so the bound of `rounds` never cuts a run short (`settles_rounds`) and
every run is one of `Executes` (`executes_run`).

A round leaves a query as it is unless that may be sent (`Rounded.of_not_runnable`). What the
steps of a run do to each query, the run does to it, if steps that come one after the other make one
(`run_carries`).
-/

namespace HttpDns.Job

variable {σ : Type} (S : Services σ) (settings : JobSettings)

/-- A round to come: its number, the queries before it and the services' state then. -/
structure Round (σ : Type) where
  number : Nat
  queries : List Query
  world : σ

namespace Round

variable (r : Round σ)

def launched : List Seat × List Event × σ :=
  launch S settings r.number r.queries r.world

def seats : List Seat :=
  (r.launched S settings).1

def exchanged : List Reply × List Event × σ :=
  exchange S r.number (r.seats S settings) (r.launched S settings).2.2

def replies : List Reply :=
  (r.exchanged S settings).1

/-- What goes out in the round with the replies to it. -/
def traffic : Traffic :=
  (manifest (r.seats S settings)).zip (r.replies S settings)

/-- The instant the answers of the round are learned at. -/
def instant : Nat :=
  S.instant (r.exchanged S settings).2.2

def landings : List Landing :=
  (landAll S (r.seats S settings) (r.replies S settings) (r.exchanged S settings).2.2).1

def merged : List Resolution :=
  roundResolutions (r.instant S settings) (r.landings S settings)

def received : List Query × List Event × σ :=
  receive S (r.seats S settings) (r.replies S settings) (r.exchanged S settings).2.2

def after : List Query :=
  (r.received S settings).1

def next : Round σ :=
  ⟨r.number + 1, r.after S settings, (r.received S settings).2.2⟩

def events : List Event :=
  (r.launched S settings).2.1 ++ ((r.exchanged S settings).2.1 ++ (r.received S settings).2.1)

/-- Something goes out. -/
def isSent : Prop :=
  manifest (r.seats S settings) ≠ []

end Round

/-- Rounds from one on until nothing goes out, with the queries, the events and the services' state
they end with. -/
inductive Settles : Round σ → List Query → List Event → σ → Prop
  | ended {r : Round σ} (h : ¬ r.isSent S settings) :
      Settles r ((r.seats S settings).map (·.query)) (r.launched S settings).2.1
        (r.launched S settings).2.2
  | again {r : Round σ} {qs : List Query} {es : List Event} {w : σ} (h : r.isSent S settings)
      (rest : Settles (r.next S settings) qs es w) : Settles r qs (r.events S settings ++ es) w

/-- The first round of a job that has been prepared. -/
def firstRound (j : Job) (w : σ) : Round σ :=
  ⟨0, (prepare S 0 none j.queries w).1.1, (prepare S 0 none j.queries w).2.2⟩

/-- A job is prepared and then goes through its rounds, or fails as it is prepared. -/
inductive Executes (j : Job) (w : σ) : (Job × Except Error Unit) × List Event × σ → Prop
  | refused (h : (prepare S 0 none j.queries w).1.2 = false) :
      Executes j w
        (({ j with queries := (prepare S 0 none j.queries w).1.1 }, .error .noResolverAvailable),
          (prepare S 0 none j.queries w).2.1, (prepare S 0 none j.queries w).2.2)
  | settled (h : (prepare S 0 none j.queries w).1.2 = true) {qs : List Query} {es : List Event}
      {w' : σ} (hs : Settles S j.settings (firstRound S j w) qs es w') :
      Executes j w (({ j with queries := qs.map Query.sweep }, .ok ()),
        (prepare S 0 none j.queries w).2.1 ++ es, w')

/-- Rounds that come one after the other, each sent but perhaps the last one. -/
inductive Reaches : Round σ → Round σ → Prop
  | refl (r : Round σ) : Reaches r r
  | step {r r' : Round σ} (h : r.isSent S settings) (rest : Reaches (r.next S settings) r') :
      Reaches r r'

/-- A round of a run in which something goes out. -/
structure InRun (j : Job) (w : σ) (r : Round σ) : Prop where
  prepared : (prepare S 0 none j.queries w).1.2 = true
  reached : Reaches S j.settings (firstRound S j w) r
  sent : r.isSent S j.settings

/-! ## A round, query by query -/

/-- What a round does to a query: it takes its seat, its reply lands and it is handed its share. -/
def Rounded (r : Round σ) (i : Nat) (q q' : Query) (es : List Event) : Prop :=
  ∃ seat l es₁ es₂, Boarded S settings (S.seconds r.world) r.number i q seat es₁
    ∧ Returned S (r.traffic S settings) i seat l es₂ ∧ (r.landings S settings)[i]? = some l
    ∧ q' = l.after (r.merged S settings) ∧ es = es₁ ++ (es₂ ++ l.told (r.merged S settings))

namespace Round

variable (r : Round σ)

theorem seats_pass : Passes (Boarded S settings (S.seconds r.world) r.number) 0 r.queries
    (r.seats S settings) (r.launched S settings).2.1 := by
  simpa [seats, launched, launch]
    using boardAll_passes S settings (S.seconds r.world) r.number 0 r.queries r.world

theorem index_seat {k : Nat} {seat : Seat} (h : (r.seats S settings)[k]? = some seat) :
    seat.index = k := by
  obtain ⟨q, hq⟩ := (r.seats_pass S settings).get_before h
  simpa using ((r.seats_pass S settings).each hq h).index_eq

theorem exchanged_events : (r.exchanged S settings).2.1
    = [.sent r.number (manifest (r.seats S settings))] := by
  simp [exchanged, exchange]

theorem length_replies :
    (r.replies S settings).length = (manifest (r.seats S settings)).length := by
  have h := (S.sendAll (batchOf (r.seats S settings)) (r.launched S settings).2.2).1.2
  exact h.trans (List.length_map _)

theorem landings_pass : Passes (Returned S (r.traffic S settings)) 0 (r.seats S settings)
    (r.landings S settings)
    (landAll S (r.seats S settings) (r.replies S settings) (r.exchanged S settings).2.2).2.1 :=
  landAll_passes S 0 _ _ _ (fun h => by rw [r.index_seat S settings h, Nat.zero_add])
    (Nat.le_of_eq (r.length_replies S settings).symm)

theorem index_landing {k : Nat} {l : Landing} (h : (r.landings S settings)[k]? = some l) :
    l.index = k := by
  obtain ⟨seat, hs⟩ := (r.landings_pass S settings).get_before h
  simpa using ((r.landings_pass S settings).each hs h).index_eq

theorem after_eq :
    r.after S settings = (r.landings S settings).map (Landing.after (r.merged S settings)) := by
  unfold after received receive
  simp only [Action.bind_apply, Action.read_apply]
  exact (deliverAll_apply S _ _ _).1

theorem passes : Passes (Rounded S settings r) 0 r.queries (r.after S settings)
    (r.events S settings) := by
  have hd := deliverAll_passes S (r.merged S settings) 0 (r.landings S settings)
    (landAll S (r.seats S settings) (r.replies S settings) (r.exchanged S settings).2.2).2.2
    (fun h => by rw [r.index_landing S settings h, Nat.zero_add])
  have hsilent : ∀ k, about k (r.exchanged S settings).2.1 = [] := fun k => by
    rw [r.exchanged_events S settings]
    rfl
  have h := (((r.seats_pass S settings).append_silent hsilent).comp
    ((r.landings_pass S settings).located.comp hd)).mono (P := Rounded S settings r) ?_
  · rw [List.append_assoc] at h
    simpa [events, received, receive, after, landings, merged, instant] using h
  · rintro i q q' gs ⟨seat, es₁, es₂, hb, ⟨l, es₃, es₄, ⟨hl, hk⟩, ⟨rfl, rfl⟩, rfl⟩, rfl⟩
    exact ⟨seat, l, es₁, es₃, hb, hl, hk, rfl, rfl⟩

end Round

variable {S settings}

theorem seat_of_not_runnable {now round i : Nat} {q : Query} {seat : Seat} {es : List Event}
    (h : Boarded S settings now round i q seat es) (hq : q.isRunnable = false) :
    seat = { index := i, query := q } ∧ es = [] := by
  cases h with
  | passed => exact ⟨rfl, rfl⟩
  | kept hr | stranded hr | moved hr =>
    rw [hq] at hr
    cases hr

namespace Rounded

variable {r : Round σ} {i : Nat} {q q' : Query} {es : List Event}

theorem of_not_runnable (h : Rounded S settings r i q q' es) (hq : q.isRunnable = false) :
    q' = q ∧ es = [] := by
  obtain ⟨seat, l, es₁, es₂, hb, hl, -, rfl, rfl⟩ := h
  obtain ⟨rfl, rfl⟩ := seat_of_not_runnable hb hq
  cases hl with
  | idle => exact ⟨rfl, rfl⟩
  | landed ho => cases ho

theorem attemptsLeft_lt (h : Rounded S settings r i q q' es) (hq : q'.isRunnable = true) :
    q.isRunnable = true ∧ q'.attemptsLeft < q.attemptsLeft := by
  obtain ⟨seat, l, es₁, es₂, hb, hl, -, rfl, rfl⟩ := h
  obtain ⟨failed, hc⟩ := hl.carry_eq
  have hafter : l.after (r.merged S settings) = l.query := by
    unfold Landing.after at hq ⊢
    split at hq
    · rfl
    · rfl
    · simp [Query.complete] at hq
  rw [hafter, hc] at hq ⊢
  have hs : seat.query.isRunnable = true := by simpa using hq
  simpa using hb.attemptsLeft_lt hs

end Rounded

/-! ## The bound on the rounds -/

variable (S settings)

theorem boardAll_of_not_runnable (now round : Nat) : ∀ (i : Nat) (qs : List Query) (w : σ),
    (∀ q ∈ qs, q.isRunnable = false) →
      ∃ seats, boardAll S settings now round i qs w = (seats, [], w)
        ∧ seats.map (·.query) = qs ∧ manifest seats = []
  | _, [], w, _ => ⟨[], rfl, rfl, rfl⟩
  | i, q :: rest, w, h => by
    have hq : q.isRunnable = false := h q List.mem_cons_self
    obtain ⟨seats, hb, hm, hs⟩ := boardAll_of_not_runnable now round (i + 1) rest w
      fun q' hq' => h q' (List.mem_cons_of_mem _ hq')
    refine ⟨{ index := i, query := q } :: seats, ?_, ?_, ?_⟩
    · simp [boardAll, board, hq, hb]
    · rw [List.map_cons, hm]
    · rw [manifest_cons_none _ rfl, hs]

theorem Round.launched_of_not_runnable {r : Round σ} (h : ∀ q ∈ r.queries, q.isRunnable = false) :
    ∃ seats, r.launched S settings = (seats, [], r.world) ∧ seats.map (·.query) = r.queries
      ∧ ¬ r.isSent S settings := by
  obtain ⟨seats, hb, hm, hs⟩ :=
    boardAll_of_not_runnable S settings (S.seconds r.world) r.number 0 r.queries r.world h
  have hl : r.launched S settings = (seats, [], r.world) := by
    simp [launched, launch, hb]
  refine ⟨seats, hl, hm, ?_⟩
  unfold isSent Round.seats
  rw [hl]
  exact not_not_intro hs

theorem Settles.of_not_runnable (r : Round σ) (h : ∀ q ∈ r.queries, q.isRunnable = false) :
    Settles S settings r r.queries [] r.world := by
  obtain ⟨seats, hl, hm, hend⟩ := Round.launched_of_not_runnable S settings h
  have h := Settles.ended hend
  rw [Round.seats, hl] at h
  rwa [hm] at h

theorem rounds_succ (most : Nat) (r : Round σ) :
    rounds S settings (most + 1) r.number r.queries r.world =
      if manifest (r.seats S settings) = [] then
        ((r.seats S settings).map (·.query), (r.launched S settings).2)
      else
        let n := r.next S settings
        let out := rounds S settings most n.number n.queries n.world
        (out.1, r.events S settings ++ out.2.1, out.2.2) := by
  rw [rounds]
  simp only [Action.bind_apply]
  by_cases h : manifest (r.seats S settings) = []
  · have h' := h
    unfold Round.seats Round.launched at h'
    rw [if_pos h, if_pos h']
    simp only [Action.pure_apply, List.append_nil]
    rfl
  · have h' := h
    unfold Round.seats Round.launched at h'
    rw [if_neg h, if_neg h']
    simp only [Action.bind_apply, Round.events, List.append_assoc]
    rfl

/-- A round costs every query that may be sent an attempt, so the bound on the number of rounds
does not cut them short. -/
theorem settles_rounds : ∀ (most : Nat) (r : Round σ),
    (∀ q ∈ r.queries, q.isRunnable = true → q.attemptsLeft ≤ most) →
      Settles S settings r (rounds S settings most r.number r.queries r.world).1
        (rounds S settings most r.number r.queries r.world).2.1
        (rounds S settings most r.number r.queries r.world).2.2
  | 0, r, h => by
    refine Settles.of_not_runnable S settings r fun q hq => Bool.eq_false_iff.2 fun hrun => ?_
    have hpos := (Query.isRunnable_iff.1 hrun).2
    have hle := h q hq hrun
    omega
  | most + 1, r, h => by
    rw [rounds_succ]
    split
    · rename_i hend
      exact .ended (not_not_intro hend)
    · rename_i hsent
      refine .again hsent (settles_rounds most (r.next S settings) fun q' hq' hrun => ?_)
      obtain ⟨k, hk⟩ := List.getElem?_of_mem hq'
      obtain ⟨q, hq⟩ := (r.passes S settings).get_before hk
      obtain ⟨hrun', hlt⟩ := ((r.passes S settings).each hq hk).attemptsLeft_lt hrun
      have hle := h q (List.mem_of_getElem? hq) hrun'
      omega

theorem le_mostAttempts {q : Query} : ∀ {qs : List Query}, q ∈ qs →
    q.attemptsLeft ≤ mostAttempts qs
  | [], h => by cases h
  | q' :: rest, h => by
    have hcons : mostAttempts (q' :: rest) = max q'.attemptsLeft (mostAttempts rest) := rfl
    rw [hcons]
    rcases List.mem_cons.1 h with rfl | h
    · exact Nat.le_max_left _ _
    · exact Nat.le_trans (le_mostAttempts h) (Nat.le_max_right _ _)

/-- A run is prepared and goes on from round to round until nothing goes out. -/
theorem executes_run (j : Job) (w : σ) : Executes S j w (run S j w) := by
  unfold run
  simp only [Action.bind_apply]
  cases h : (prepare S 0 none j.queries w).1.2 with
  | false =>
    simp only [Bool.false_eq_true, if_false, Action.pure_apply, List.append_nil]
    exact .refused h
  | true =>
    simp only [if_true, Action.bind_apply, Action.pure_apply, List.append_nil]
    exact .settled h (settles_rounds S j.settings _ (firstRound S j w) fun _ hq _ =>
      le_mostAttempts hq)

theorem Settles.unique {r : Round σ} {qs qs' : List Query} {es es' : List Event} {w w' : σ}
    (h : Settles S settings r qs es w) (h' : Settles S settings r qs' es' w') :
    qs' = qs ∧ es' = es ∧ w' = w := by
  induction h generalizing qs' es' w' with
  | ended hend =>
    cases h' with
    | ended => exact ⟨rfl, rfl, rfl⟩
    | again hsent => exact absurd hsent hend
  | again hsent _ ih =>
    cases h' with
    | ended hend => exact absurd hsent hend
    | again _ rest =>
      obtain ⟨rfl, rfl, rfl⟩ := ih rest
      exact ⟨rfl, rfl, rfl⟩

theorem Executes.eq_run {j : Job} {w : σ} {out : (Job × Except Error Unit) × List Event × σ}
    (h : Executes S j w out) : out = run S j w := by
  have hrun := executes_run S j w
  generalize run S j w = out' at hrun ⊢
  cases h with
  | refused hf =>
    cases hrun with
    | refused => rfl
    | settled ht => exact absurd (hf.symm.trans ht) (by decide)
  | settled ht hs =>
    cases hrun with
    | refused hf => exact absurd (hf.symm.trans ht) (by decide)
    | settled _ hs' =>
      obtain ⟨rfl, rfl, rfl⟩ := Settles.unique S j.settings hs hs'
      rfl

theorem prepare_of_settled : ∀ (i : Nat) (seen : Option Stack) (qs : List Query) (w : σ),
    (∀ q ∈ qs, q.state ≠ .pending) → prepare S i seen qs w = ((qs, true), [], w)
  | _, _, [], _, _ => rfl
  | i, seen, q :: rest, w, h => by
    have hq : q.state ≠ .pending := h q List.mem_cons_self
    have hrest := prepare_of_settled (i + 1) seen rest w
      fun q' hq' => h q' (List.mem_cons_of_mem _ hq')
    simp [prepare, hq, hrest]

theorem map_sweep_of_settled {qs : List Query} (h : ∀ q ∈ qs, q.state ≠ .pending) :
    qs.map Query.sweep = qs := by
  have hsweep : ∀ q ∈ qs, q.sweep = id q := fun q hq => if_neg (h q hq)
  rw [List.map_congr_left hsweep, List.map_id]

/-- A job without a pending query does nothing at all. -/
theorem run_of_settled (j : Job) (w : σ) (h : ∀ q ∈ j.queries, q.state ≠ .pending) :
    run S j w = ((j, .ok ()), [], w) := by
  have hp := prepare_of_settled S 0 none j.queries w h
  have hfirst : firstRound S j w = ⟨0, j.queries, w⟩ := by
    unfold firstRound
    rw [hp]
  have hidle := Settles.of_not_runnable S j.settings (firstRound S j w) fun q hq => by
    rw [hfirst] at hq
    simp [Query.isRunnable, h q hq]
  have hrun := (Executes.settled (by rw [hp]) hidle).eq_run
  rw [← hrun, hp, hfirst, map_sweep_of_settled h]
  rfl

/-! ## The rounds within a run -/

variable {S settings}

theorem Settles.of_reaches {r r' : Round σ} {qs : List Query} {es : List Event} {w : σ}
    (hr : Reaches S settings r r') (h : Settles S settings r qs es w) :
    ∃ es', Settles S settings r' qs es' w := by
  induction hr generalizing es with
  | refl => exact ⟨es, h⟩
  | step hsent _ ih =>
    cases h with
    | ended hend => exact absurd hsent hend
    | again _ rest => exact ih rest

/-- The rounds of a run come in one line. -/
theorem Reaches.total {r r₁ r₂ : Round σ} (h₁ : Reaches S settings r r₁)
    (h₂ : Reaches S settings r r₂) : Reaches S settings r₁ r₂ ∨ Reaches S settings r₂ r₁ := by
  induction h₁ with
  | refl => exact .inl h₂
  | step hsent rest ih =>
    cases h₂ with
    | refl => exact .inr (.step hsent rest)
    | step _ rest₂ => exact ih rest₂

/-- A query that may not be sent stays as it is from round to round. -/
theorem Reaches.kept {r r' : Round σ} (h : Reaches S settings r r') {k : Nat} {q : Query}
    (hq : r.queries[k]? = some q) (hrun : q.isRunnable = false) : r'.queries[k]? = some q := by
  induction h with
  | refl => exact hq
  | @step r r' _ _ ih =>
    obtain ⟨q', hq'⟩ := (r.passes S settings).get_after hq
    obtain ⟨rfl, -⟩ := ((r.passes S settings).each hq hq').of_not_runnable hrun
    exact ih hq'

/-- A query that may not be sent stays as it is to the end of the rounds. -/
theorem Settles.kept {r : Round σ} {qs : List Query} {es : List Event} {w : σ}
    (h : Settles S settings r qs es w) {k : Nat} {q : Query} (hq : r.queries[k]? = some q)
    (hrun : q.isRunnable = false) : qs[k]? = some q := by
  induction h with
  | @ended r hend =>
    obtain ⟨seat, hs⟩ := (r.seats_pass S settings).get_after hq
    obtain ⟨rfl, -⟩ := seat_of_not_runnable ((r.seats_pass S settings).each hq hs) hrun
    rw [List.getElem?_map, hs]
    rfl
  | @again r _ _ _ hsent rest ih =>
    obtain ⟨q', hq'⟩ := (r.passes S settings).get_after hq
    obtain ⟨rfl, -⟩ := ((r.passes S settings).each hq hq').of_not_runnable hrun
    exact ih hq'

/-! ## What steps keep -/

section

variable {R : Nat → Query → Query → List Event → Prop}

/-- What boarding and whole rounds do to queries, rounds do to them that come one after the other
until nothing goes out. -/
theorem Settles.carries (hR : Composes R)
    (hboarded : ∀ {now round i q seat es}, Boarded S settings now round i q seat es →
      R i q seat.query es)
    (hrounded : ∀ {r i q q' es}, Rounded S settings r i q q' es → R i q q' es)
    {r : Round σ} {qs : List Query} {es : List Event} {w : σ}
    (h : Settles S settings r qs es w) : Passes R 0 r.queries qs es := by
  induction h with
  | @ended r _ => exact (r.seats_pass S settings).map _ fun _ _ _ _ hb => hboarded hb
  | @again r _ _ _ _ _ ih =>
    exact ((r.passes S settings).mono fun _ _ _ _ hr => hrounded hr).trans hR ih

/-- What preparation, rounds and the sweep do to queries, a run does to them. -/
theorem run_carries (hR : Composes R) {j : Job} {w : σ}
    (hprepared : Passes R 0 j.queries (prepare S 0 none j.queries w).1.1
      (prepare S 0 none j.queries w).2.1)
    (hsettled : ∀ {r qs es w}, Settles S j.settings r qs es w → Passes R 0 r.queries qs es)
    (hswept : ∀ i q, R i q q.sweep []) :
    Passes R 0 j.queries (run S j w).1.1.queries (run S j w).2.1 := by
  have hrun := executes_run S j w
  generalize run S j w = out at hrun ⊢
  cases hrun with
  | refused => exact hprepared
  | settled _ hs =>
    refine (hprepared.trans hR (hsettled hs)).map Query.sweep fun i q q' es h => ?_
    rw [← List.append_nil es]
    exact hR h (hswept i q')

end

/-- What a query has become in a round of a run it stays, unless it may still be sent. -/
theorem InRun.kept {j : Job} {w : σ} {r : Round σ} (hr : InRun S j w r) {k : Nat} {q : Query}
    (hq : (r.after S j.settings)[k]? = some q) (hstate : q.state ≠ .pending) :
    (run S j w).1.1.queries[k]? = some q := by
  have hrun := executes_run S j w
  generalize run S j w = out at hrun ⊢
  cases hrun with
  | refused hf => exact absurd (hf.symm.trans hr.prepared) (by decide)
  | settled _ hs =>
    obtain ⟨es, hs'⟩ := hs.of_reaches hr.reached
    cases hs' with
    | ended hend => exact absurd hr.sent hend
    | again _ rest =>
      have hkept := rest.kept hq (by simp [Query.isRunnable, hstate])
      rw [List.getElem?_map, hkept, Option.map_some, Query.sweep, if_neg hstate]

/-- A query that is answered in a round of a run ends as its answers complete it. -/
theorem InRun.completes {j : Job} {w : σ} {r : Round σ} (hr : InRun S j w r) {k : Nat} {l : Landing}
    (hl : (r.landings S j.settings)[k]? = some l) {out : Outgoing} {answers : List Answer}
    (ho : l.outcome = .answered out answers) : (run S j w).1.1.queries[k]?
      = some ({ l.query with partialHit := none }.complete
        (share (r.merged S j.settings) l.query answers)) := by
  have hafter : (r.after S j.settings)[k]? = some (l.after (r.merged S j.settings)) := by
    rw [r.after_eq S j.settings, List.getElem?_map, hl]
    rfl
  rw [Landing.after_of_answered ho] at hafter
  exact hr.kept hafter (by simp [Query.complete])

end HttpDns.Job
