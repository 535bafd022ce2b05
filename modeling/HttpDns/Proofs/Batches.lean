import HttpDns.Proofs.Refusal
import Mathlib.Data.List.Nodup

/-!
# What is sent in a round

Each round is one batch. Exactly those queries are exchanged in it, each once and in their order,
that are pending with attempts left and are not refused a server (`Round.mem_sent_iff`), and each of
them is answered exactly when its own exchange gives a usable answer (`Round.outcome`).
-/

namespace HttpDns

/-- The rounds that were sent, each with its number and its exchanges. -/
def batches (es : List Event) : List (Nat × List (Nat × Exchange)) :=
  es.filterMap fun
    | .sent round batch => some (round, batch)
    | _ => none

/-- The rounds in which a query was exchanged, one for each exchange. -/
def roundsOf (k : Nat) (es : List Event) : List Nat :=
  (batches es).flatMap fun b => (b.2.filter (·.1 = k)).map fun _ => b.1

/-- The servers that were found after failed exchanges; none where there was none. -/
def switches (es : List Event) : List (Option Endpoint) :=
  es.filterMap fun
    | .switched _ _ server => some server
    | _ => none

@[simp] theorem batches_nil : batches [] = [] := rfl

@[simp] theorem batches_append (es fs : List Event) :
    batches (es ++ fs) = batches es ++ batches fs :=
  List.filterMap_append

@[simp] theorem roundsOf_append (k : Nat) (es fs : List Event) :
    roundsOf k (es ++ fs) = roundsOf k es ++ roundsOf k fs := by
  simp [roundsOf]

@[simp] theorem switches_nil : switches [] = [] := rfl

@[simp] theorem switches_append (es fs : List Event) :
    switches (es ++ fs) = switches es ++ switches fs :=
  List.filterMap_append

theorem batches_of_unsent {es : List Event} (h : ∀ round batch, Event.sent round batch ∉ es) :
    batches es = [] := by
  unfold batches
  rw [List.filterMap_eq_nil_iff]
  intro e he
  cases e with
  | sent round batch => exact absurd he (h round batch)
  | detected | drew | probed | rotated | switched | sampled | stored | fired | asked => rfl

theorem batches_of_query? {es : List Event} (h : ∀ e ∈ es, ∃ k, e.query? = some k) :
    batches es = [] := by
  refine batches_of_unsent fun round batch he => ?_
  obtain ⟨k, hk⟩ := h _ he
  cases hk

theorem roundsOf_of_batches {k : Nat} {es : List Event} (h : batches es = []) :
    roundsOf k es = [] := by
  rw [roundsOf, h]
  rfl

namespace Job

variable {σ : Type} (S : Services σ) (settings : JobSettings)

/-! ## What is sent in a round -/

theorem boardAll_query? (now round : Nat) : ∀ (i : Nat) (qs : List Query) (w : σ),
    ∀ e ∈ (boardAll S settings now round i qs w).2.1, ∃ k, e.query? = some k
  | _, [], _, e, he => by simp [boardAll] at he
  | i, q :: rest, w, e, he => by
    simp only [boardAll, Action.bind_apply, Action.pure_apply, List.append_nil,
      List.mem_append] at he
    rcases he with he | he
    · exact ⟨i, (board_boarded S settings now round i q w).query?_eq e he⟩
    · exact boardAll_query? now round (i + 1) rest _ e he

theorem landAll_query? : ∀ (seats : List Seat) (replies : List Reply) (w : σ),
    ∀ e ∈ (landAll S seats replies w).2.1, ∃ k, e.query? = some k
  | [], _, _, e, he => by simp [landAll] at he
  | seat :: seats, replies, w, e, he => by
    cases ho : seat.out with
    | none =>
      simp only [landAll, ho, Action.bind_apply, Action.pure_apply, List.append_nil] at he
      exact landAll_query? seats replies w e he
    | some out =>
      cases replies with
      | nil =>
        simp only [landAll, ho, Action.bind_apply, Action.pure_apply, List.append_nil] at he
        exact landAll_query? seats [] w e he
      | cons reply replies =>
        simp only [landAll, ho, Action.bind_apply, Action.pure_apply, List.append_nil,
          List.mem_append] at he
        rcases he with he | he
        · exact ⟨_, (land_landed S seat.index seat.query out reply w).query?_eq e he⟩
        · exact landAll_query? seats replies _ e he

/-- The queries that are exchanged in a round, by position. -/
def Round.sent (r : Round σ) : List Nat :=
  (manifest (r.seats S settings)).map (·.1)

theorem map_manifest (seats : List Seat) :
    (manifest seats).map (·.1) = (seats.filter (·.out.isSome)).map (·.index) := by
  induction seats with
  | nil => rfl
  | cons seat seats ih =>
    cases ho : seat.out with
    | none => rw [manifest_cons_none seats ho, ih, List.filter_cons_of_neg (by simp [ho])]
    | some out =>
      rw [manifest_cons_some seats ho, List.map_cons, ih, List.filter_cons_of_pos (by simp [ho])]
      rfl

namespace Round

variable (r : Round σ)

theorem mem_sent {k : Nat} : k ∈ r.sent S settings
    ↔ ∃ seat, (r.seats S settings)[k]? = some seat ∧ seat.out.isSome = true := by
  rw [sent, map_manifest, List.mem_map]
  constructor
  · rintro ⟨seat, hseat, rfl⟩
    obtain ⟨hmem, hout⟩ := List.mem_filter.1 hseat
    obtain ⟨k, hk⟩ := List.getElem?_of_mem hmem
    exact ⟨seat, by rw [r.index_seat S settings hk, hk], hout⟩
  · rintro ⟨seat, hk, hout⟩
    exact ⟨seat, List.mem_filter.2 ⟨List.mem_of_getElem? hk, hout⟩, r.index_seat S settings hk⟩

/-- What goes out in a round goes out in the order of the queries, once for each. -/
theorem sent_ascending : (r.sent S settings).Pairwise (· < ·) := by
  rw [sent, map_manifest]
  refine List.Pairwise.sublist (List.filter_sublist.map _) ?_
  rw [List.pairwise_map, List.pairwise_iff_getElem]
  intro i k hi hk hlt
  rw [r.index_seat S settings (List.getElem?_eq_getElem hi),
    r.index_seat S settings (List.getElem?_eq_getElem hk)]
  exact hlt

theorem isSent_iff : r.isSent S settings ↔ ∃ k, k ∈ r.sent S settings := by
  rw [isSent, Ne, ← List.map_eq_nil_iff, ← sent]
  exact ⟨List.exists_mem_of_ne_nil _, fun ⟨_, hk⟩ => List.ne_nil_of_mem hk⟩

theorem launched_query? : ∀ e ∈ (r.launched S settings).2.1, ∃ k, e.query? = some k := by
  intro e he
  simp only [launched, launch, Action.bind_apply, Action.read_apply, List.nil_append] at he
  exact boardAll_query? S settings _ _ _ _ _ e he

theorem received_query? : ∀ e ∈ (r.received S settings).2.1, ∃ k, e.query? = some k := by
  intro e he
  simp only [received, receive, Action.bind_apply, Action.read_apply, List.nil_append,
    List.mem_append, (deliverAll_apply S _ _ _).2] at he
  rcases he with he | he
  · exact landAll_query? S _ _ _ e he
  · obtain ⟨l, -, he⟩ := List.mem_flatMap.1 he
    exact ⟨_, Landing.query?_told e he⟩

theorem batches_launched : batches (r.launched S settings).2.1 = [] :=
  batches_of_query? (r.launched_query? S settings)

/-- A round is one batch. -/
theorem batches_events :
    batches (r.events S settings) = [(r.number, manifest (r.seats S settings))] := by
  rw [events, batches_append, batches_append, r.batches_launched, r.exchanged_events,
    batches_of_query? (r.received_query? S settings)]
  rfl

theorem roundsOf_events (k : Nat) : roundsOf k (r.events S settings)
    = if k ∈ r.sent S settings then [r.number] else [] := by
  have hcount : ((manifest (r.seats S settings)).filter (·.1 = k)).length
      = (r.sent S settings).count k := by
    rw [sent, List.count, List.countP_map, List.countP_eq_length_filter]
    rfl
  have hnodup : (r.sent S settings).Nodup :=
    (r.sent_ascending S settings).imp Nat.ne_of_lt
  rw [roundsOf, r.batches_events, List.flatMap_singleton, List.map_const', hcount]
  split
  · rename_i hk
    rw [List.count_eq_one_of_mem hnodup hk, List.replicate_one]
  · rename_i hk
    rw [List.count_eq_zero_of_not_mem hk, List.replicate_zero]

end Round

/-! ## Which queries are sent -/

/-- A query with attempts left is refused a server if it asks for another one and there is none. -/
def Round.Refuses (r : Round σ) (k : Nat) : Prop :=
  none ∈ switches (about k (r.launched S settings).2.1)

/-- Every query that may be sent has a server. -/
def Round.Equipped (r : Round σ) : Prop :=
  ∀ q ∈ r.queries, q.state = .pending → q.request.resolver.isSome = true

/-- What a round comes to for a query before the replies: it rests, it is refused a server, or it is
sent. -/
inductive Seated (q : Query) (seat : Seat) (es : List Event) : Prop
  | rests (h : q.isRunnable = false) (out : seat.out = none) (query : seat.query = q)
      (silent : switches es = [])
  | refused (h : q.isRunnable = true) (out : seat.out = none)
      (query : seat.query = q.carry q.request.resolver 0 none) (asked : switches es = [none])
  | goes (h : q.isRunnable = true) (out : seat.out.isSome = true) (server : String)
      (failed : Option String)
      (query : seat.query = q.carry (some server) (q.attemptsLeft - 1) failed)
      (served : none ∉ switches es)

variable {S settings}

theorem mem_manifest_seats {r : Round σ} {k : Nat} {e : Exchange} :
    (k, e) ∈ manifest (r.seats S settings) ↔ ∃ seat out,
      (r.seats S settings)[k]? = some seat ∧ seat.out = some out ∧ out.exchange = e := by
  unfold manifest
  rw [List.mem_filterMap]
  constructor
  · rintro ⟨seat, hseat, hout⟩
    obtain ⟨out, ho, heq⟩ := Option.map_eq_some_iff.1 hout
    obtain ⟨n, hn⟩ := List.getElem?_of_mem hseat
    obtain ⟨rfl, rfl⟩ := Prod.mk.inj heq
    exact ⟨seat, out, by rw [r.index_seat S settings hn, hn], ho, rfl⟩
  · rintro ⟨seat, out, hs, ho, rfl⟩
    exact ⟨seat, List.mem_of_getElem? hs, by rw [ho, ← r.index_seat S settings hs]; rfl⟩

theorem isSome_outgoing (now : Nat) (q : Query) :
    (outgoing S settings now q).isSome = q.request.resolver.isSome :=
  Option.isSome_map

theorem Boarded.seated {now round i : Nat} {q : Query} {seat : Seat} {es : List Event}
    (h : Boarded S settings now round i q seat es)
    (hserver : q.state = .pending → q.request.resolver.isSome = true) : Seated q seat es := by
  cases h with
  | passed hq => exact .rests hq rfl rfl rfl
  | kept hq hf =>
    have hsome := hserver (Query.isRunnable_iff.1 hq).1
    obtain ⟨server, hres⟩ := Option.isSome_iff_exists.1 hsome
    refine .goes hq ?_ server q.lastFailed (by rw [hres]) (by simp)
    rw [isSome_outgoing]
    exact hsome
  | stranded hq hf => exact .refused hq rfl rfl rfl
  | moved hq hf e =>
    refine .goes hq ?_ e.addr none rfl (by simp [switches])
    rw [isSome_outgoing]
    rfl

theorem Round.seated {r : Round σ} (heq : r.Equipped) {k : Nat} {q : Query} {seat : Seat}
    (hq : r.queries[k]? = some q) (hs : (r.seats S settings)[k]? = some seat) :
    Seated q seat (about k (r.launched S settings).2.1) := by
  have hb := (r.seats_pass S settings).each hq hs
  rw [Nat.zero_add] at hb
  exact hb.seated (heq q (List.mem_of_getElem? hq))

/-- Exactly the pending queries with attempts left that are not refused a server are sent. -/
theorem Round.mem_sent_iff {r : Round σ} (heq : r.Equipped) {k : Nat} :
    k ∈ r.sent S settings ↔ ∃ q, r.queries[k]? = some q ∧ q.state = .pending
      ∧ 0 < q.attemptsLeft ∧ ¬ r.Refuses S settings k := by
  rw [r.mem_sent]
  constructor
  · rintro ⟨seat, hs, hout⟩
    obtain ⟨q, hq⟩ := (r.seats_pass S settings).get_before hs
    cases r.seated heq hq hs with
    | rests _ hnone | refused _ hnone =>
      rw [hnone] at hout
      cases hout
    | goes hrun _ _ _ _ hserved =>
      obtain ⟨hpend, hleft⟩ := Query.isRunnable_iff.1 hrun
      exact ⟨q, hq, hpend, hleft, hserved⟩
  · rintro ⟨q, hq, hpend, hleft, hserved⟩
    obtain ⟨seat, hs⟩ := (r.seats_pass S settings).get_after hq
    have hrun := Query.isRunnable_iff.2 ⟨hpend, hleft⟩
    cases r.seated heq hq hs with
    | rests hnot =>
      rw [hrun] at hnot
      cases hnot
    | refused _ _ _ hasked =>
      refine absurd ?_ hserved
      rw [Refuses, hasked]
      exact List.mem_singleton_self _
    | goes _ hout => exact ⟨seat, hs, hout⟩

/-! ## Usable answers -/

variable (S settings)

/-- The services' state when the reply to the query at a position is read. -/
def Round.readIn (r : Round σ) (k : Nat) : σ :=
  (landAll S ((r.seats S settings).take k) (r.replies S settings) (r.exchanged S settings).2.2).2.2

/-- The exchange of the query at a position gives a usable answer: its own reply is a good one, and
an address is among what its body is read as. -/
def Round.Answers (r : Round σ) (k : Nat) : Prop :=
  ∃ seat out response, (r.seats S settings)[k]? = some seat ∧ seat.out = some out
    ∧ ((k, out.exchange), .ok response) ∈ r.traffic S settings ∧ response.isOk = true
    ∧ ∃ a ∈ (readBody S out.request response.body (r.readIn S settings k)).1, a.isEmpty = false

/-- A reply that is good and holds an address answers the query, any other one has failed. -/
theorem outcome_land (i : Nat) (q : Query) (out : Outgoing) (reply : Reply) (w : σ) :
    (∃ answers, (land S i q out reply w).1 = ⟨i, q, .answered out answers⟩
        ∧ ∃ response, reply = .ok response ∧ response.isOk = true
          ∧ ∃ a ∈ (readBody S out.request response.body w).1, a.isEmpty = false)
      ∨ (land S i q out reply w).1
          = ⟨i, { q with lastFailed := some out.exchange.server }, .failed out⟩
        ∧ ∀ response, reply = .ok response → response.isOk = true →
          ∀ a ∈ (readBody S out.request response.body w).1, a.isEmpty = true := by
  unfold land usable report
  cases reply with
  | error fault => exact .inr ⟨rfl, by simp⟩
  | ok response =>
    cases hok : response.isOk with
    | false =>
      refine .inr ⟨by simp [hok], fun response' hr hok' => ?_⟩
      cases hr
      rw [hok] at hok'
      cases hok'
    | true =>
      cases ha : (readBody S out.request response.body w).1.filter (!·.isEmpty) with
      | nil =>
        refine .inr ⟨by simp [hok, ha], fun response' hr _ a hmem => ?_⟩
        cases hr
        simpa using List.filter_eq_nil_iff.1 ha a hmem
      | cons a rest =>
        have hmem : a ∈ (readBody S out.request response.body w).1.filter (!·.isEmpty) := by
          rw [ha]
          exact List.mem_cons_self
        obtain ⟨hmem, hne⟩ := List.mem_filter.1 hmem
        exact .inl ⟨a :: rest, by simp [hok, ha], response, rfl, hok, a, hmem, by simpa using hne⟩

/-- Each query that was sent gets the reply to its own exchange, read when those before it have
been. -/
theorem landAll_get : ∀ (seats : List Seat) (replies : List Reply) (w : σ) {k : Nat}
    {seat : Seat} {out : Outgoing}, (manifest seats).length ≤ replies.length →
    seats[k]? = some seat → seat.out = some out →
      ∃ reply, ((seat.index, out.exchange), reply) ∈ (manifest seats).zip replies
        ∧ (landAll S seats replies w).1[k]? = some
          (land S seat.index seat.query out reply (landAll S (seats.take k) replies w).2.2).1
  | [], _, _, _, _, _, _, hs, _ => by simp at hs
  | first :: seats, replies, w, k, seat, out, hlen, hs, ho => by
    cases hfirst : first.out with
    | none =>
      rw [manifest_cons_none seats hfirst] at hlen ⊢
      cases k with
      | zero =>
        obtain rfl : first = seat := by simpa using hs
        rw [hfirst] at ho
        cases ho
      | succ k =>
        obtain ⟨reply, hmem, hk⟩ := landAll_get seats replies w hlen (by simpa using hs) ho
        exact ⟨reply, hmem, by simpa [landAll, hfirst] using hk⟩
    | some out₀ =>
      rw [manifest_cons_some seats hfirst] at hlen ⊢
      cases replies with
      | nil => simp at hlen
      | cons reply₀ replies =>
        cases k with
        | zero =>
          obtain rfl : first = seat := by simpa using hs
          obtain rfl : out₀ = out := Option.some.inj (hfirst.symm.trans ho)
          exact ⟨reply₀, List.mem_cons_self, by simp [landAll, hfirst]⟩
        | succ k =>
          obtain ⟨reply, hmem, hk⟩ := landAll_get seats replies
            (land S first.index first.query out₀ reply₀ w).2.2 (by simpa using hlen)
            (by simpa using hs) ho
          exact ⟨reply, List.mem_cons_of_mem _ hmem, by simpa [landAll, hfirst] using hk⟩

variable {S settings}

theorem eq_of_mem_zip {α β : Type} {k : Nat} {e e' : α} {b b' : β} : ∀ {ks : List (Nat × α)}
    {bs : List β}, (ks.map (·.1)).Nodup → ((k, e), b) ∈ ks.zip bs → ((k, e'), b') ∈ ks.zip bs →
      b = b'
  | [], _, _, h, _ => by simp at h
  | _ :: _, [], _, h, _ => by simp at h
  | (k₀, e₀) :: ks, b₀ :: bs, hnodup, h, h' => by
    obtain ⟨hnot, hrest⟩ := List.nodup_cons.1 hnodup
    have hfirst : ∀ {e : α} {b : β}, ((k₀, e), b) ∉ ks.zip bs := fun hmem =>
      hnot (List.mem_map.2 ⟨_, (List.of_mem_zip hmem).1, rfl⟩)
    rw [List.zip_cons_cons, List.mem_cons] at h h'
    rcases h with h | h <;> rcases h' with h' | h'
    · cases h
      cases h'
      rfl
    · cases h
      exact absurd h' hfirst
    · cases h'
      exact absurd h hfirst
    · exact eq_of_mem_zip hrest h h'

/-- What was sent for a query has been answered exactly when its exchange gave a usable answer. -/
theorem Round.outcome {r : Round σ} {k : Nat} {seat : Seat} {out : Outgoing}
    (hs : (r.seats S settings)[k]? = some seat) (ho : seat.out = some out) :
    (r.Answers S settings k ∧ ∃ answers,
        (r.landings S settings)[k]? = some ⟨k, seat.query, .answered out answers⟩)
      ∨ ¬ r.Answers S settings k ∧ (r.landings S settings)[k]?
          = some ⟨k, { seat.query with lastFailed := some out.exchange.server }, .failed out⟩ := by
  have hlen : (manifest (r.seats S settings)).length ≤ (r.replies S settings).length :=
    Nat.le_of_eq (r.length_replies S settings).symm
  obtain ⟨reply, hmem, hk⟩ := landAll_get S _ _ (r.exchanged S settings).2.2 hlen hs ho
  rw [r.index_seat S settings hs] at hmem hk
  rcases outcome_land S k seat.query out reply (r.readIn S settings k) with
    ⟨answers, hl, response, rfl, hok, ha⟩ | ⟨hl, hnone⟩
  · exact .inl ⟨⟨seat, out, response, hs, ho, hmem, hok, ha⟩, answers, by rw [← hl]; exact hk⟩
  · refine .inr ⟨?_, by rw [← hl]; exact hk⟩
    rintro ⟨seat', out', response, hs', ho', hmem', hok, a, ha, hne⟩
    obtain rfl : seat = seat' := Option.some.inj (hs.symm.trans hs')
    obtain rfl : out = out' := Option.some.inj (ho.symm.trans ho')
    have hnodup := (r.sent_ascending S settings).imp Nat.ne_of_lt
    have hreply := eq_of_mem_zip hnodup hmem hmem'
    rw [hnone response hreply hok a ha] at hne
    cases hne

end Job

end HttpDns
