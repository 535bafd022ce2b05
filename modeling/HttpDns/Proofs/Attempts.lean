import HttpDns.Proofs.Batches

/-!
# The exchanges of a query over the rounds

A round leaves a query alone, refuses it a server, or exchanges it once (`Round.turn`). From one
round on a query is so exchanged in each of the next ones, until it is answered, no server is found
for it or its attempts are spent (`Settles.spends`).
-/

namespace HttpDns.Job

variable {σ : Type} {S : Services σ} {settings : JobSettings}

/-! ## A round, query by query -/

/-- What a round makes of a query, with the servers it asked for. -/
inductive Turn (S : Services σ) (settings : JobSettings) (r : Round σ) (k : Nat) (q q' : Query)
    (drawn : List (Option Endpoint)) : Prop
  | rests (h : q.isRunnable = false) (unsent : k ∉ r.sent S settings) (same : q' = q)
      (silent : drawn = [])
  | refused (h : q.isRunnable = true) (unsent : k ∉ r.sent S settings) (state : q'.state = .pending)
      (spent : q'.attemptsLeft = 0) (server : q'.request.resolver.isSome = true)
      (asked : drawn = [none])
  | failed (h : q.isRunnable = true) (sent : k ∈ r.sent S settings)
      (unanswered : ¬ r.Answers S settings k) (state : q'.state = .pending)
      (spent : q'.attemptsLeft + 1 = q.attemptsLeft) (server : q'.request.resolver.isSome = true)
  | answered (h : q.isRunnable = true) (sent : k ∈ r.sent S settings)
      (answered : r.Answers S settings k) (state : q'.state = .completed)
      (spent : q'.attemptsLeft + 1 = q.attemptsLeft)

theorem switches_returned {traffic : Traffic} {i : Nat} {seat : Seat} {l : Landing}
    {es : List Event} (h : Returned S traffic i seat l es) : switches es = [] := by
  cases h with
  | idle => rfl
  | landed _ _ hl => cases hl <;> rfl

theorem switches_told (merged : List Resolution) (l : Landing) :
    switches (l.told merged) = [] := by
  unfold switches
  rw [List.filterMap_eq_nil_iff]
  intro e he
  unfold Landing.told callback at he
  split at he
  · cases he
  · cases he
  · rcases List.mem_append.1 he with he | he
    · split at he
      · obtain ⟨r, -, rfl⟩ := List.mem_map.1 he
        rfl
      · cases he
    · split at he
      · rw [List.mem_singleton.1 he]
      · cases he

theorem mem_switches_of_about {k : Nat} {es : List Event} {server : Option Endpoint}
    (h : server ∈ switches (about k es)) : server ∈ switches es := by
  obtain ⟨e, he, hserver⟩ := List.mem_filterMap.1 h
  exact List.mem_filterMap.2 ⟨e, mem_of_mem_about he, hserver⟩

/-- A query asks for another server only as it takes its seat. -/
theorem Round.switches_events (r : Round σ) {k : Nat} {l : Landing}
    (hk : (r.landings S settings)[k]? = some l) :
    switches (about k (r.events S settings)) = switches (about k (r.launched S settings).2.1) := by
  obtain ⟨seat, hs⟩ := (r.landings_pass S settings).get_before hk
  have hret := (r.landings_pass S settings).each hs hk
  rw [Nat.zero_add] at hret
  have htold : switches (about k
      ((r.landings S settings).flatMap (Landing.told (r.merged S settings)))) = [] := by
    refine List.eq_nil_iff_forall_not_mem.2 fun server h => ?_
    obtain ⟨e, he, hserver⟩ := List.mem_filterMap.1 (mem_switches_of_about h)
    obtain ⟨l', -, he⟩ := List.mem_flatMap.1 he
    have hnil := switches_told (r.merged S settings) l'
    rw [switches, List.filterMap_eq_nil_iff] at hnil
    rw [hnil e he] at hserver
    cases hserver
  have hreceived : switches (about k (r.received S settings).2.1) = [] := by
    simp only [received, receive, Action.bind_apply, Action.read_apply, List.nil_append,
      (deliverAll_apply S _ _ _).2, about_append, switches_append, switches_returned hret]
    exact htold
  rw [events, about_append, about_append, switches_append, switches_append, hreceived,
    r.exchanged_events]
  exact List.append_nil _

theorem Round.turn {r : Round σ} (heq : r.Equipped) {k : Nat} {q q' : Query}
    (hq : r.queries[k]? = some q) (hq' : (r.after S settings)[k]? = some q') :
    Turn S settings r k q q' (switches (about k (r.events S settings))) := by
  rw [r.after_eq, List.getElem?_map] at hq'
  obtain ⟨l, hl, rfl⟩ := Option.map_eq_some_iff.1 hq'
  obtain ⟨seat, hs⟩ := (r.landings_pass S settings).get_before hl
  have hret := (r.landings_pass S settings).each hs hl
  rw [r.switches_events hl]
  have hunsent : seat.out = none → k ∉ r.sent S settings ∧ l.after (r.merged S settings)
      = seat.query := by
    intro hnone
    refine ⟨fun hsent => ?_, ?_⟩
    · obtain ⟨seat', hs', hsome⟩ := (r.mem_sent S settings).1 hsent
      obtain rfl : seat = seat' := Option.some.inj (hs.symm.trans hs')
      rw [hnone] at hsome
      cases hsome
    · generalize about (0 + k) _ = es at hret
      cases hret with
      | idle => rfl
      | landed ho =>
        rw [hnone] at ho
        cases ho
  cases r.seated heq hq hs with
  | rests hrun hnone hquery hsilent =>
    obtain ⟨hsent, hafter⟩ := hunsent hnone
    exact .rests hrun hsent (hafter.trans hquery) hsilent
  | refused hrun hnone hquery hasked =>
    obtain ⟨hsent, hafter⟩ := hunsent hnone
    rw [hquery] at hafter
    have hpend := (Query.isRunnable_iff.1 hrun).1
    have hserver := heq q (List.mem_of_getElem? hq) hpend
    exact .refused hrun hsent (hafter ▸ hpend) (hafter ▸ rfl) (hafter ▸ hserver) hasked
  | goes hrun hsome server failed hquery hserved =>
    have hsent : k ∈ r.sent S settings := (r.mem_sent S settings).2 ⟨seat, hs, hsome⟩
    obtain ⟨hpend, hleft⟩ := Query.isRunnable_iff.1 hrun
    have hspent : seat.query.attemptsLeft + 1 = q.attemptsLeft := by
      rw [hquery, Query.attemptsLeft_carry]
      omega
    obtain ⟨out, ho⟩ := Option.isSome_iff_exists.1 hsome
    rcases Round.outcome hs ho with ⟨hans, answers, hl'⟩ | ⟨hans, hl'⟩
    · obtain rfl := Option.some.inj (hl.symm.trans hl')
      exact .answered hrun hsent hans rfl hspent
    · obtain rfl := Option.some.inj (hl.symm.trans hl')
      refine .failed hrun hsent hans ?_ hspent ?_
      · show seat.query.state = .pending
        rw [hquery]
        exact hpend
      · show seat.query.request.resolver.isSome = true
        rw [hquery]
        rfl

theorem Round.Equipped.next {r : Round σ} (heq : r.Equipped) :
    (r.next S settings).Equipped := by
  intro q' hmem hpend
  obtain ⟨k, hq'⟩ := List.getElem?_of_mem hmem
  obtain ⟨q, hq⟩ := (r.passes S settings).get_before hq'
  cases Round.turn heq hq hq' with
  | rests _ _ same => exact same ▸ heq q (List.mem_of_getElem? hq) (same ▸ hpend)
  | refused _ _ _ _ hserver => exact hserver
  | failed _ _ _ _ _ hserver => exact hserver
  | answered _ _ _ hdone =>
    rw [hdone] at hpend
    cases hpend

theorem Reaches.equipped {r r' : Round σ} (h : Reaches S settings r r') (heq : r.Equipped) :
    r'.Equipped := by
  induction h with
  | refl => exact heq
  | step _ _ ih => exact ih heq.next

/-! ## A query over the rounds -/

/-- What the rounds from one on make of a query: it is exchanged in each of the next ones, within
its attempts, and if it is still pending these are spent, or it was refused a server at last. -/
structure Spends (round : Nat) (q q' : Query) (rounds : List Nat)
    (drawn : List (Option Endpoint)) : Prop where
  consecutive : rounds = List.range' round rounds.length
  within : rounds.length ≤ q.attemptsLeft
  resting : q.isRunnable = false → q' = q ∧ rounds = [] ∧ drawn = []
  spent : q.state = .pending → q'.state = .pending →
    rounds.length = q.attemptsLeft ∨ drawn.getLast? = some none

theorem attemptsLeft_of_not_runnable {q : Query} (h : q.isRunnable = false)
    (hpend : q.state = .pending) : q.attemptsLeft = 0 := by
  by_contra hne
  rw [Query.isRunnable_iff.2 ⟨hpend, Nat.pos_of_ne_zero hne⟩] at h
  cases h

theorem Spends.rest {q : Query} (round : Nat) (h : q.isRunnable = false) :
    Spends round q q [] [] where
  consecutive := rfl
  within := Nat.zero_le _
  resting _ := ⟨rfl, rfl, rfl⟩
  spent hpend _ := .inl (attemptsLeft_of_not_runnable h hpend).symm

/-- A round, and then what follows it. -/
theorem Turn.spends {r : Round σ} {k : Nat} {q q' q'' : Query} {rounds : List Nat}
    {drawn drawn' : List (Option Endpoint)} (h : Turn S settings r k q q' drawn)
    (rest : Spends (r.number + 1) q' q'' rounds drawn') :
    Spends r.number q q'' ((if k ∈ r.sent S settings then [r.number] else []) ++ rounds)
      (drawn ++ drawn') := by
  cases h with
  | rests hrun hsent hsame hsilent =>
    subst hsame
    obtain ⟨rfl, rfl, rfl⟩ := rest.resting hrun
    rw [if_neg hsent, hsilent]
    exact .rest r.number hrun
  | refused hrun hsent hstate hzero _ hasked =>
    obtain ⟨rfl, rfl, rfl⟩ := rest.resting (by simp [Query.isRunnable, hzero])
    rw [if_neg hsent, hasked]
    refine ⟨rfl, Nat.zero_le _, fun hnot => ?_, fun _ _ => .inr rfl⟩
    rw [hrun] at hnot
    cases hnot
  | failed hrun hsent _ hstate hspent =>
    rw [if_pos hsent, List.singleton_append]
    have hlen : (r.number :: rounds).length = rounds.length + 1 := rfl
    refine ⟨?_, ?_, fun hnot => ?_, fun _ hpend => ?_⟩
    · rw [hlen, List.range'_succ, ← rest.consecutive]
    · have hwithin := rest.within
      omega
    · rw [hrun] at hnot
      cases hnot
    · rcases rest.spent hstate hpend with hall | hlast
      · exact .inl (by omega)
      · exact .inr (by rw [List.getLast?_append, hlast]; rfl)
  | answered hrun hsent _ hstate hspent =>
    obtain ⟨rfl, rfl, rfl⟩ := rest.resting (by simp [Query.isRunnable, hstate])
    rw [if_pos hsent]
    refine ⟨rfl, ?_, fun hnot => ?_, fun _ hpend => ?_⟩
    · rw [List.append_nil, List.length_singleton]
      omega
    · rw [hrun] at hnot
      cases hnot
    · rw [hstate] at hpend
      cases hpend

/-- In the round in which nothing goes out a query rests or is refused a server. -/
theorem Round.turn_of_not_sent {r : Round σ} (heq : r.Equipped) (hend : ¬ r.isSent S settings)
    {k : Nat} {q : Query} {seat : Seat} (hq : r.queries[k]? = some q)
    (hs : (r.seats S settings)[k]? = some seat) : seat.query.isRunnable = false
      ∧ Turn S settings r k q seat.query (switches (about k (r.launched S settings).2.1)) := by
  have hunsent : k ∉ r.sent S settings := fun hk => hend ((r.isSent_iff S settings).2 ⟨k, hk⟩)
  cases r.seated heq hq hs with
  | rests hrun _ hquery hsilent =>
    rw [hquery]
    exact ⟨hrun, .rests hrun hunsent rfl hsilent⟩
  | refused hrun _ hquery hasked =>
    have hpend := (Query.isRunnable_iff.1 hrun).1
    rw [hquery]
    exact ⟨by simp [Query.isRunnable],
      .refused hrun hunsent hpend rfl (heq q (List.mem_of_getElem? hq) hpend) hasked⟩
  | goes _ hsome =>
    exact absurd ((r.mem_sent S settings).2 ⟨seat, hs, hsome⟩) hunsent

theorem Settles.spends {r : Round σ} {qs : List Query} {es : List Event} {w : σ}
    (h : Settles S settings r qs es w) (heq : r.Equipped) {k : Nat} {q q' : Query}
    (hq : r.queries[k]? = some q) (hq' : qs[k]? = some q') :
    Spends r.number q q' (roundsOf k es) (switches (about k es)) := by
  induction h generalizing q with
  | @ended r hend =>
    rw [List.getElem?_map] at hq'
    obtain ⟨seat, hs, rfl⟩ := Option.map_eq_some_iff.1 hq'
    obtain ⟨hrest, hturn⟩ := Round.turn_of_not_sent heq hend hq hs
    have hspends := hturn.spends (.rest (r.number + 1) hrest)
    have hunsent : k ∉ r.sent S settings := fun hk => hend ((r.isSent_iff S settings).2 ⟨k, hk⟩)
    rwa [if_neg hunsent, List.append_nil, List.append_nil,
      ← roundsOf_of_batches (k := k) (r.batches_launched S settings)] at hspends
  | @again r qs es w hsent rest ih =>
    obtain ⟨q₁, hq₁⟩ := (r.passes S settings).get_after hq
    have hspends := (Round.turn heq hq hq₁).spends (ih heq.next hq₁ hq')
    rwa [← r.roundsOf_events S settings, ← roundsOf_append, ← switches_append,
      ← about_append] at hspends

/-! ## The rounds of a run -/

/-- The rounds of a run are numbered one after the other, each with one batch. -/
theorem Settles.numbers {r : Round σ} {qs : List Query} {es : List Event} {w : σ}
    (h : Settles S settings r qs es w) :
    (batches es).map (·.1) = List.range' r.number (batches es).length := by
  induction h with
  | @ended r hend =>
    rw [r.batches_launched]
    rfl
  | @again r qs es w hsent rest ih =>
    rw [batches_append, r.batches_events, List.singleton_append, List.map_cons, ih,
      List.length_cons, List.range'_succ]
    rfl

theorem Settles.mem_batches {r : Round σ} {qs : List Query} {es : List Event} {w : σ}
    (h : Settles S settings r qs es w) {b : Nat × List (Nat × Exchange)} :
    b ∈ batches es ↔ ∃ r', Reaches S settings r r' ∧ r'.isSent S settings
      ∧ b = (r'.number, manifest (r'.seats S settings)) := by
  induction h with
  | @ended r hend =>
    rw [r.batches_launched]
    refine ⟨fun hb => (nomatch hb), ?_⟩
    rintro ⟨r', hreach, hsent, -⟩
    cases hreach with
    | refl => exact absurd hsent hend
    | step hsent => exact absurd hsent hend
  | @again r qs es w hsent rest ih =>
    rw [batches_append, r.batches_events, List.singleton_append, List.mem_cons, ih]
    constructor
    · rintro (rfl | ⟨r', hreach, hsent', rfl⟩)
      · exact ⟨r, .refl r, hsent, rfl⟩
      · exact ⟨r', .step hsent hreach, hsent', rfl⟩
    · rintro ⟨r', hreach, hsent', rfl⟩
      cases hreach with
      | refl => exact .inl rfl
      | step _ hreach => exact .inr ⟨r', hreach, hsent', rfl⟩

/-- The events of the rounds from a later one on come after those of the rounds before it. -/
theorem Settles.split {r r' : Round σ} (hr : Reaches S settings r r') {qs : List Query}
    {es : List Event} {w : σ} (h : Settles S settings r qs es w) :
    ∃ es₁ es₂, es = es₁ ++ es₂ ∧ Settles S settings r' qs es₂ w := by
  induction hr generalizing es with
  | refl => exact ⟨[], es, rfl, h⟩
  | @step r r' hsent _ ih =>
    cases h with
    | ended hend => exact absurd hsent hend
    | @again _ _ es _ _ rest =>
      obtain ⟨es₁, es₂, rfl, h₂⟩ := ih rest
      exact ⟨r.events S settings ++ es₁, es₂, (List.append_assoc ..).symm, h₂⟩

/-- The number of a round and the attempts that a query has left there stay within a bound. -/
structure Bounded (most : Nat) (r : Round σ) : Prop where
  number_le : r.number ≤ most
  left : ∀ q ∈ r.queries, q.isRunnable = true → r.number + q.attemptsLeft ≤ most

theorem Bounded.next {most : Nat} {r : Round σ} (h : Bounded most r) (heq : r.Equipped)
    (hsent : r.isSent S settings) : Bounded most (r.next S settings) where
  number_le := by
    obtain ⟨k, hk⟩ := (r.isSent_iff S settings).1 hsent
    obtain ⟨q, hq, hpend, hleft, -⟩ := (Round.mem_sent_iff heq).1 hk
    have hle := h.left q (List.mem_of_getElem? hq) (Query.isRunnable_iff.2 ⟨hpend, hleft⟩)
    show r.number + 1 ≤ most
    omega
  left q' hmem hrun := by
    obtain ⟨k, hq'⟩ := List.getElem?_of_mem hmem
    obtain ⟨q, hq⟩ := (r.passes S settings).get_before hq'
    obtain ⟨hrun', hlt⟩ := ((r.passes S settings).each hq hq').attemptsLeft_lt hrun
    have hle := h.left q (List.mem_of_getElem? hq) hrun'
    show r.number + 1 + q'.attemptsLeft ≤ most
    omega

theorem Reaches.bounded {most : Nat} {r r' : Round σ} (h : Reaches S settings r r')
    (hb : Bounded most r) (heq : r.Equipped) : Bounded most r' := by
  induction h with
  | refl => exact hb
  | step hsent _ ih => exact ih (hb.next heq hsent) heq.next

end HttpDns.Job
