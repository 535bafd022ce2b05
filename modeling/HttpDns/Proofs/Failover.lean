import HttpDns.Proofs.Avoidance
import HttpDns.Proofs.Retries

/-!
# The server after a failed one

A query remembers the server of its failed exchange until the next round, which draws another one
for it. If the draws are those of a pool, that is the first of the fastest servers on the stack but
for the failed one, as the pool stands when the query takes its seat (`run_fails_over`). So the same
server is asked twice in a row only if no other one is listed.
-/

namespace HttpDns

/-! ## The first of the fastest endpoints -/

namespace Endpoints

variable {l : Endpoints} {x : Endpoint}

/-- An endpoint of the list that is faster than all before it, and that none behind it is faster
than. One that is not measured counts as faster than all that are. -/
def Foremost (l : Endpoints) (x : Endpoint) : Prop :=
  ∃ front back, l = front ++ x :: back ∧ (∀ y ∈ front, x.rank < y.rank)
    ∧ ∀ y ∈ back, x.rank ≤ y.rank

theorem Foremost.mem (h : l.Foremost x) : x ∈ l := by
  obtain ⟨front, back, rfl, -⟩ := h
  simp

theorem foremost_of_fastest : ∀ {l : Endpoints} {x : Endpoint}, fastest l = some x → l.Foremost x
  | [], _, h => nomatch h
  | y :: rest, x, h => by
    rw [fastest] at h
    cases hrest : fastest rest with
    | none =>
      obtain rfl : rest = [] := Pool.fastest_eq_none.1 hrest
      rw [hrest] at h
      obtain rfl := Option.some.inj h
      exact ⟨[], [], rfl, by simp, by simp⟩
    | some z =>
      simp only [hrest] at h
      split at h
      · rename_i hz
        obtain rfl := Option.some.inj h
        obtain ⟨front, back, rfl, hfront, hback⟩ := foremost_of_fastest hrest
        refine ⟨y :: front, back, rfl, fun e he => ?_, hback⟩
        rcases List.mem_cons.1 he with rfl | he
        · exact Endpoint.before_iff.1 hz
        · exact hfront e he
      · rename_i hz
        obtain rfl := Option.some.inj h
        rw [Endpoint.before_iff] at hz
        refine ⟨[], rest, rfl, by simp, fun e he => ?_⟩
        have hleast := (fastest_spec hrest).2 e he
        omega

end Endpoints

/-- The servers are drawn from a pool, for the stack that the detector tells. -/
def Services.DrawsFrom {σ : Type} (S : Services σ) (pool : σ → Pool) : Prop :=
  ∀ addr w, (S.pickOther addr w).1 = (pool w).pickOther (S.stack w).1 addr

theorem Services.withPool_drawsFrom {τ : Type} (S : Services τ) : S.withPool.DrawsFrom Prod.fst :=
  fun _ _ => rfl

/-- A server takes over from a failed one: it is the first of the fastest but for that one, or of
all if no other address is listed. -/
def Endpoints.TakesOver (l : Endpoints) (failed server : String) : Prop :=
  ∃ x : Endpoint, x.addr = server ∧ (Endpoints.Foremost (l.filter (·.addr ≠ failed)) x
    ∨ (∀ y ∈ l, y.addr = failed) ∧ l.Foremost x)

theorem Pool.takesOver_of_pickOther {p : Pool} {stack : Stack} {failed : String} {x : Endpoint}
    (h : p.pickOther stack failed = some x) : (p.servers stack).TakesOver failed x.addr := by
  refine ⟨x, rfl, ?_⟩
  unfold pickOther at h
  split at h
  · rename_i e he
    cases h
    exact .inl (Endpoints.foremost_of_fastest he)
  · rename_i hnone
    refine .inr ⟨fun y hy => ?_, Endpoints.foremost_of_fastest h⟩
    have hempty := List.filter_eq_nil_iff.1 (Pool.fastest_eq_none.1 hnone) y hy
    simpa using hempty

theorem Endpoints.TakesOver.ne {l : Endpoints} {failed server : String}
    (h : l.TakesOver failed server) {y : Endpoint} (hy : y ∈ l) (hne : y.addr ≠ failed) :
    server ≠ failed := by
  obtain ⟨x, rfl, hx | ⟨hall, -⟩⟩ := h
  · simpa using (List.mem_filter.1 hx.mem).2
  · exact absurd (hall y hy) hne

namespace Job

variable {σ : Type} {S : Services σ} {settings : JobSettings} {r r' : Round σ} {k : Nat}

/-! ## One round after another -/

/-- A round that is reached is the first one or comes right after one that is sent. -/
theorem Reaches.eq_or_next (h : Reaches S settings r r') : r' = r
    ∨ ∃ r₁, Reaches S settings r r₁ ∧ r₁.isSent S settings ∧ r' = r₁.next S settings := by
  induction h with
  | refl => exact .inl rfl
  | @step r r' hsent _ ih =>
    rcases ih with rfl | ⟨r₁, hreach, hsent₁, hnext⟩
    · exact .inr ⟨r, .refl r, hsent, rfl⟩
    · exact .inr ⟨r₁, .step hsent hreach, hsent₁, hnext⟩

variable (S settings)

/-- The services' state when the query at a position takes its seat. -/
def Round.drawnIn (r : Round σ) (k : Nat) : σ :=
  (boardAll S settings (S.seconds r.world) r.number 0 (r.queries.take k) r.world).2.2

theorem boardAll_get (now round : Nat) : ∀ (i : Nat) (qs : List Query) (w : σ) {k : Nat}
    {q : Query}, qs[k]? = some q → (boardAll S settings now round i qs w).1[k]? = some
      (board S settings now round (i + k) q (boardAll S settings now round i (qs.take k) w).2.2).1
  | _, [], _, _, _, h => by simp at h
  | i, first :: rest, w, 0, q, h => by
    obtain rfl : first = q := by simpa using h
    simp [boardAll]
  | i, first :: rest, w, k + 1, q, h => by
    have hrest := boardAll_get now round (i + 1) rest
      (board S settings now round i first w).2.2 (k := k) (by simpa using h)
    rw [show i + 1 + k = i + (k + 1) by omega] at hrest
    simpa [boardAll] using hrest

theorem Round.seat_get (r : Round σ) {k : Nat} {q : Query} (hq : r.queries[k]? = some q) :
    (r.seats S settings)[k]? = some
      (board S settings (S.seconds r.world) r.number k q (r.drawnIn S settings k)).1 := by
  have h := boardAll_get S settings (S.seconds r.world) r.number 0 r.queries r.world hq
  rw [Nat.zero_add] at h
  simpa [seats, launched, launch, drawnIn] using h

variable {S settings}

/-- A query that failed goes, if it goes at all, to the server that is drawn in place of the failed
one. -/
theorem board_of_failed {now round : Nat} {q : Query} {failed : String} {w : σ} {out : Outgoing}
    (hq : q.isRunnable = true) (hfailed : failedBefore round q = some failed)
    (hout : (board S settings now round k q w).1.out = some out) :
    ∃ x, (S.pickOther failed w).1 = some x ∧ out.exchange.server = x.addr := by
  unfold board switchServer at hout
  rw [hfailed] at hout
  simp only [hq, if_true, Action.bind_apply, Action.call_apply, Action.tell_apply,
    Action.pure_apply] at hout
  cases hdrawn : (S.pickOther failed w).1 with
  | none =>
    rw [hdrawn] at hout
    cases hout
  | some x =>
    rw [hdrawn] at hout
    cases hout
    exact ⟨x, rfl, rfl⟩

/-- A query that goes out again failed in the round before, and its server is drawn in place of the
one that failed there. -/
theorem Round.switched (heq : r.Equipped) {e' : Exchange}
    (he' : (k, e') ∈ manifest ((r.next S settings).seats S settings)) :
    ∃ e x, (k, e) ∈ manifest (r.seats S settings) ∧ ¬ r.Answers S settings k
      ∧ (S.pickOther e.server ((r.next S settings).drawnIn S settings k)).1 = some x
      ∧ e'.server = x.addr := by
  obtain ⟨seat', out', hs', ho', rfl⟩ := mem_manifest_seats.1 he'
  obtain ⟨q', hq'⟩ := ((r.next S settings).seats_pass S settings).get_before hs'
  have hrun' : q'.isRunnable = true :=
    (((r.next S settings).seats_pass S settings).each hq' hs').of_out ho' |>.1
  have hafter : (r.after S settings)[k]? = some q' := hq'
  obtain ⟨q, hq⟩ := (r.passes S settings).get_before hafter
  obtain ⟨hk, hunanswered⟩ : k ∈ r.sent S settings ∧ ¬ r.Answers S settings k := by
    cases Round.turn heq hq hafter with
    | rests hrun _ hsame =>
      rw [hsame, hrun] at hrun'
      cases hrun'
    | refused _ _ _ hspent => simp [Query.isRunnable, hspent] at hrun'
    | failed _ hsent hunanswered => exact ⟨hsent, hunanswered⟩
    | answered _ _ _ hdone => simp [Query.isRunnable, hdone] at hrun'
  obtain ⟨seat, hs, hsome⟩ := (r.mem_sent S settings).1 hk
  obtain ⟨out, ho⟩ := Option.isSome_iff_exists.1 hsome
  have hl := ((Round.outcome hs ho).resolve_left fun h => hunanswered h.1).2
  have hq'_eq : q' = { seat.query with lastFailed := some out.exchange.server } := by
    rw [r.after_eq, List.getElem?_map, hl] at hafter
    exact (Option.some.inj hafter).symm
  have hfailed : failedBefore (r.next S settings).number q' = some out.exchange.server := by
    rw [hq'_eq]
    exact if_pos (Nat.succ_pos _)
  rw [Round.seat_get S settings _ hq'] at hs'
  obtain rfl := Option.some.inj hs'
  obtain ⟨x, hdrawn, hserver⟩ := board_of_failed hrun' hfailed ho'
  exact ⟨out.exchange, x, mem_manifest_seats.2 ⟨seat, out, hs, ho, rfl⟩, hunanswered, hdrawn,
    hserver⟩

/-! ## Over a run -/

/-- How an exchange of a query in a run of a job comes about: it is the first one of the query in
all the job's life, or the one before it failed in the round before, and the server that takes over
is the first of the fastest but for the failed one. -/
inductive FailsOver (S : Services σ) (pool : σ → Pool) (j : Job) (es : List Event) (w : σ)
    (r' : Round σ) (k : Nat) (e' : Exchange) : Prop
  | first (number : r'.number = 0) (before : roundsOf k es = [])
  | again (r : Round σ) (e : Exchange) (inRun : InRun S j w r) (next : r' = r.next S j.settings)
      (sent : (k, e) ∈ manifest (r.seats S j.settings)) (failed : ¬ r.Answers S j.settings k)
      (server : ((pool (r'.drawnIn S j.settings k)).servers
        (S.stack (r'.drawnIn S j.settings k)).1).TakesOver e.server e'.server)
      (other : ∀ y ∈ (pool (r'.drawnIn S j.settings k)).servers
        (S.stack (r'.drawnIn S j.settings k)).1, y.addr ≠ e.server → e'.server ≠ e.server)

/-- Whatever the replies and the stacks are and whatever the pool learns meanwhile, a query that is
exchanged again after a failure goes to the first of the fastest servers listed for the stack, but
for the one that failed; so it goes to another one if any other address is listed. -/
theorem run_fails_over {pool : σ → Pool} (hpool : S.DrawsFrom pool)
    {rs : List (Request × Bool)} {j : Job} {es : List Event} {w : σ}
    (life : Life S settings rs j es w) (hr : InRun S j w r') {e' : Exchange}
    (he' : (k, e') ∈ manifest (r'.seats S j.settings)) : FailsOver S pool j es w r' k e' := by
  rcases hr.reached.eq_or_next with rfl | ⟨r, hreach, hsent, rfl⟩
  · have hsent : k ∈ (firstRound S j w).sent S j.settings := List.mem_map_of_mem he'
    obtain ⟨q', hq', hpend, -⟩ := (Round.mem_sent_iff (equipped_firstRound hr.prepared)).1 hsent
    obtain ⟨q, hq⟩ := (prepare_poised S j.queries w).get_before hq'
    have hpoised := (prepare_poised S j.queries w).each hq hq'
    exact .first rfl (life.untried.full hq (hpoised.pending hpend)).2
  · have heq := hreach.equipped (equipped_firstRound hr.prepared)
    obtain ⟨e, x, he, hunanswered, hdrawn, hserver⟩ := Round.switched heq he'
    rw [hpool] at hdrawn
    have htakes := Pool.takesOver_of_pickOther hdrawn
    rw [← hserver] at htakes
    exact .again r e ⟨hr.prepared, hreach, hsent⟩ rfl he hunanswered htakes
      fun y hy hne => htakes.ne hy hne

/-- A server that timed out is left for the first one of the others, though it is still the
fastest: the timeout is an outlier beside its estimate. -/
theorem run_fails_over_once :
    let S := (Services.unheard fun _ => none).withPool
    let ask : Request :=
      { host := "a.com", accountId := "100000", resolver := some "192.0.2.1", queryType := .a }
    let settings : JobSettings := ⟨1, "", "", 0⟩
    let j : Job := ⟨settings, [.ofRequest ask false settings.attempts]⟩
    let w : Pool × Unit := ({ ipv4 :=
      [⟨"192.0.2.1", some 20⟩, ⟨"192.0.2.2", some 40⟩, ⟨"192.0.2.3", some 40⟩] }, ())
    S.DrawsFrom Prod.fst ∧ Life S settings [(ask, false)] j [] w
      ∧ ∃ r e', InRun S j w r ∧ (0, e') ∈ manifest (r.seats S settings)
        ∧ e'.server = "192.0.2.2" ∧ r.number = 1 ∧ FailsOver S Prod.fst j [] w r 0 e' := by
  intro S ask settings j w
  have life : Life S settings [(ask, false)] j [] w :=
    (Life.made w).queued (add_ok _ false (by decide))
  have hfirst : (firstRound S j w).isSent S settings := by
    show manifest ((firstRound S j w).seats S settings) ≠ []
    decide +kernel
  have hservers : (manifest (((firstRound S j w).next S settings).seats S settings)).map
      (fun b => (b.1, b.2.server)) = [(0, "192.0.2.2")] := by
    decide +kernel
  obtain ⟨⟨_, e'⟩, he', heq⟩ := List.mem_map.1 (hservers ▸ List.mem_singleton_self _)
  obtain ⟨rfl, hserver⟩ := Prod.mk.inj heq
  have hr : InRun S j w ((firstRound S j w).next S settings) :=
    ⟨by decide +kernel, .step hfirst (.refl _), List.ne_nil_of_mem he'⟩
  have hdraws : S.DrawsFrom Prod.fst := Services.withPool_drawsFrom _
  exact ⟨hdraws, life, _, e', hr, he', hserver, rfl, run_fails_over hdraws life hr he'⟩

end Job

end HttpDns
