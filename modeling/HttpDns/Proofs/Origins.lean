import HttpDns.Proofs.Batches
import HttpDns.Proofs.Share
import HttpDns.Proofs.Upkeep

/-!
# Where results come from

A query goes by the request that was queued for it, but for its server and its type, which is at
most narrowed, and a partial hit it carries was found under its own key (`Life.rooted`). In a round
it is carried on, or it is answered and gets its share of the round's answers (`Round.fared`). So
whatever a run caches is a share of one of its rounds (`run_stored`), and so are the results it
gives to a query, unless the cache had all that was asked for (`run_gains`).
-/

namespace HttpDns

/-- The key that the cache is called with. -/
def Event.key? : Event → Option String
  | .probed _ key _ _ | .rotated _ key => some key
  | .stored _ x => some x.cacheKey
  | .detected _ | .drew .. | .switched .. | .sent .. | .sampled .. | .fired .. | .asked _ => none

/-- The calls on the cache. -/
def calls (es : List Event) : List Event :=
  es.filter fun e => e.key?.isSome

@[simp] theorem calls_nil : calls [] = [] := rfl

@[simp] theorem calls_append (es fs : List Event) : calls (es ++ fs) = calls es ++ calls fs :=
  List.filter_append es fs

/-- Each call on the cache is about a query. -/
theorem mem_calls {e : Event} {es : List Event} (he : e ∈ es) {key : String}
    (hk : e.key? = some key) : ∃ k, e ∈ calls (about k es) := by
  have hquery : ∃ k, e.query? = some k := by
    cases e with
    | probed k | rotated k | stored k => exact ⟨k, rfl⟩
    | detected | drew | switched | sent | sampled | fired | asked => cases hk
  obtain ⟨k, hquery⟩ := hquery
  exact ⟨k, List.mem_filter.2 ⟨mem_about he hquery, by rw [hk]; rfl⟩⟩

theorem Passes.get_of_mem {α β : Type} {R : Nat → α → β → List Event → Prop} {as : List α}
    {bs : List β} {fs : List Event} (h : Passes R 0 as bs fs) {k : Nat} {e : Event}
    (he : e ∈ about k fs) : ∃ a b, as[k]? = some a ∧ bs[k]? = some b := by
  have hk : k < as.length := by
    by_contra hge
    rw [h.others k (.inr (by omega))] at he
    cases he
  have ha := List.getElem?_eq_getElem hk
  obtain ⟨b, hb⟩ := h.get_after ha
  exact ⟨_, b, ha, hb⟩

/-! ## What a query keeps of its request -/

/-- What holds all that the one type asks for holds all that the other one does. -/
def QueryType.Covers (type type' : QueryType) : Prop :=
  ∀ x : Resolution, x.satisfies type = true → x.satisfies type' = true

/-- The families that are lacking are among those asked for. -/
theorem Resolution.covers_missing {r : Resolution} {type type' : QueryType}
    (h : r.missing type = some type') : type.Covers type' := by
  intro x hx
  unfold Resolution.missing at h
  unfold Resolution.satisfies at hx ⊢
  split at h <;> cases h <;> simp_all [QueryType.wantsIpv4, QueryType.wantsIpv6]

@[simp] theorem Query.results_sweep (q : Query) : q.sweep.results = q.results := by
  unfold sweep
  split <;> rfl

theorem Query.sweep_of_completed {q : Query} (h : q.state = .completed) : q.sweep = q :=
  if_neg (by rw [h]; decide)

/-- The query goes by the request, but for the server and the type. -/
def Query.Stems (r : Request) (q : Query) : Prop :=
  ∃ server type, q.request = { r with resolver := server, queryType := type }

namespace Query.Stems

variable {r : Request} {q q' : Query}

theorem refl (q : Query) : q.Stems q.request := ⟨_, _, rfl⟩

theorem trans (h : q.Stems r) (h' : q'.Stems q.request) : q'.Stems r := by
  obtain ⟨server, type, hq⟩ := h
  obtain ⟨server', type', hq'⟩ := h'
  exact ⟨server', type', by rw [hq', hq]⟩

theorem cacheKeyFor_eq (h : q.Stems r) (host : String) :
    q.request.cacheKeyFor host = r.cacheKeyFor host := by
  obtain ⟨server, type, hq⟩ := h
  rw [hq]
  rfl

theorem host_eq (h : q.Stems r) : q.request.host = r.host := by
  obtain ⟨server, type, hq⟩ := h
  rw [hq]

theorem usingCache_eq (h : q.Stems r) : q.request.usingCache = r.usingCache := by
  obtain ⟨server, type, hq⟩ := h
  rw [hq]

theorem usingMulti_eq (h : q.Stems r) : q.request.usingMulti = r.usingMulti := by
  obtain ⟨server, type, hq⟩ := h
  rw [hq]

theorem ownKey_eq (h : q.Stems r) : q.ownKey = r.cacheKeyFor r.host := by
  rw [Query.ownKey, h.host_eq, h.cacheKeyFor_eq]

theorem usesProbe_eq (h : q.Stems r) : q.usesProbe = (r.usingCache && !r.usingMulti) := by
  rw [Query.usesProbe, h.usingCache_eq, h.usingMulti_eq]

theorem of_usesProbe (h : q.Stems r) (huses : q.usesProbe = true) :
    r.usingMulti = false ∧ r.usingCache = true := by
  rw [h.usesProbe_eq, Bool.and_eq_true, Bool.not_eq_true'] at huses
  exact huses.symm

end Query.Stems

namespace Job

variable {σ : Type}

/-- A type that is settled stays so, and what is sent is at most narrowed. -/
def Narrows (q q' : Query) : Prop :=
  q.request.queryType ≠ .auto →
    q'.request.queryType ≠ .auto ∧ q.queryType.Covers q'.queryType

namespace Narrows

variable {q q' q'' : Query}

theorem of_eq (h : q'.request.queryType = q.request.queryType) (hq : q'.queryType = q.queryType) :
    Narrows q q' :=
  fun hne => ⟨h ▸ hne, fun _ hx => hq ▸ hx⟩

theorem trans (h : Narrows q q') (h' : Narrows q' q'') : Narrows q q'' := fun hne =>
  have ⟨hne', hcovers⟩ := h hne
  have ⟨hne'', hcovers'⟩ := h' hne'
  ⟨hne'', fun x hx => hcovers' x (hcovers x hx)⟩

end Narrows

/-- What a step makes of a query's request, its type and its partial hit. -/
structure Derived (i : Nat) (q q' : Query) (es : List Event) : Prop where
  stems : q'.Stems q.request
  narrows : Narrows q q'
  half : ∀ p, q'.partialHit = some p →
    q.partialHit = some p ∨ ∃ type, Event.probed i q.ownKey type (some p) ∈ es

namespace Derived

variable {i : Nat} {q q' q'' : Query} {es fs : List Event}

theorem refl (q : Query) : Derived i q q [] := ⟨.refl q, .of_eq rfl rfl, fun _ h => .inl h⟩

theorem trans (h : Derived i q q' es) (h' : Derived i q' q'' fs) :
    Derived i q q'' (es ++ fs) where
  stems := h.stems.trans h'.stems
  narrows := h.narrows.trans h'.narrows
  half p hp := by
    rcases h'.half p hp with hp | ⟨type, he⟩
    · exact (h.half p hp).imp id fun ⟨type, he⟩ => ⟨type, List.mem_append_left _ he⟩
    · rw [h.stems.ownKey_eq] at he
      exact .inr ⟨type, List.mem_append_right _ he⟩

theorem composes : Composes Derived := fun _ _ _ _ _ _ => trans

theorem of_kept (hr : q'.Stems q.request) (ht : Narrows q q')
    (hp : q'.partialHit = q.partialHit) : Derived i q q' es := ⟨hr, ht, fun _ h => .inl (hp ▸ h)⟩

theorem carry (q : Query) (server : Option String) (attempts : Nat) (failed : Option String) :
    Derived i q (q.carry server attempts failed) es := of_kept ⟨_, _, rfl⟩ (.of_eq rfl rfl) rfl

end Derived

theorem Prepared.derived {i : Nat} {q q' : Query} {es : List Event} (h : Prepared i q q' es) :
    Derived i q q' es := by
  cases h with
  | passed => exact .refl q
  | @readied _ q₁ q₂ _ es fs served typed probed =>
    have hserved : Derived i q q₁ es := by
      cases served <;> exact .of_kept ⟨_, _, rfl⟩ (.of_eq rfl rfl) rfl
    have htyped : Derived i q₁ q₂ [] := by
      cases typed with
      | given => exact .of_kept (.refl _) (.of_eq rfl rfl) rfl
      | settled hauto => exact .of_kept ⟨_, _, rfl⟩ (fun hne => absurd hauto hne) rfl
    have hprobed : Derived i q₂ q' fs := by
      cases probed with
      | skipped | missed | whole => exact .of_kept (.refl _) (.of_eq rfl rfl) rfl
      | half _ p _ hmissing =>
        refine ⟨.refl _, fun hne => ⟨hne, Resolution.covers_missing hmissing⟩,
          fun p' hp => .inr ⟨q₂.queryType, ?_⟩⟩
        cases hp
        exact List.mem_cons_self
    simpa using (hserved.trans htyped).trans hprobed

theorem Unprepared.derived {i : Nat} {q q' : Query} {es : List Event} (h : Unprepared i q q' es) :
    Derived i q q' es := by
  cases h <;> exact .of_kept (.refl _) (.of_eq rfl rfl) rfl

theorem prepare_derived (S : Services σ) (i : Nat) (seen : Option Stack) (qs : List Query)
    (w : σ) : Passes Derived i qs (prepare S i seen qs w).1.1 (prepare S i seen qs w).2.1 :=
  (prepare_passes S i seen qs w).mono fun _ _ _ _ h => by
    rcases h with h | ⟨-, h⟩
    · exact h.derived
    · exact h.derived

variable {S : Services σ} {settings : JobSettings} {r : Round σ}

theorem Rounded.derived {i : Nat} {q q' : Query} {es : List Event}
    (h : Rounded S settings r i q q' es) : Derived i q q' es := by
  obtain ⟨seat, l, es₁, es₂, hb, hl, -, rfl, rfl⟩ := h
  obtain ⟨server, attempts, failed, hc⟩ := hb.carry_eq
  obtain ⟨failed', hc'⟩ := hl.carry_eq
  have hafter : Derived i l.query (l.after (r.merged S settings))
      (l.told (r.merged S settings)) := by
    unfold Landing.after
    split
    · exact .of_kept (.refl _) (.of_eq rfl rfl) rfl
    · exact .of_kept (.refl _) (.of_eq rfl rfl) rfl
    · exact ⟨.refl _, .of_eq rfl rfl, fun _ hp => nomatch hp⟩
  rw [hc'] at hafter
  rw [hc] at hafter
  exact (Derived.carry q server attempts failed).trans ((Derived.carry _ _ _ failed').trans hafter)

theorem Settles.derived {qs : List Query} {es : List Event} {w : σ}
    (h : Settles S settings r qs es w) : Passes Derived 0 r.queries qs es := by
  refine h.carries Derived.composes (fun hb => ?_) (·.derived)
  obtain ⟨server, attempts, failed, hc⟩ := hb.carry_eq
  rw [hc]
  exact .carry _ _ _ _

theorem run_derived (S : Services σ) (j : Job) (w : σ) :
    Passes Derived 0 j.queries (run S j w).1.1.queries (run S j w).2.1 := by
  refine run_carries Derived.composes (prepare_derived S 0 none j.queries w) (·.derived) ?_
  intro i q
  unfold Query.sweep
  split
  · exact .of_kept (.refl _) (.of_eq rfl rfl) rfl
  · exact .refl _

/-- The query goes by the request that was queued for it, what is sent is at most narrowed from a
type that this names, and its partial hit was found under its own key. -/
structure Rooted (i : Nat) (r : Request) (q : Query) (es : List Event) : Prop where
  stems : q.Stems r
  narrows : r.queryType ≠ .auto →
    q.request.queryType ≠ .auto ∧ r.queryType.Covers q.queryType
  half : ∀ p, q.partialHit = some p → ∃ type, Event.probed i q.ownKey type (some p) ∈ es

theorem Rooted.derived {i : Nat} {r : Request} {q q' : Query} {es fs : List Event}
    (h : Rooted i r q es) (hd : Derived i q q' fs) : Rooted i r q' (es ++ fs) where
  stems := h.stems.trans hd.stems
  narrows hne :=
    have ⟨hne', hcovers⟩ := h.narrows hne
    have ⟨hne'', hcovers'⟩ := hd.narrows hne'
    ⟨hne'', fun x hx => hcovers' x (hcovers x hx)⟩
  half p hp := by
    rw [hd.stems.ownKey_eq]
    rcases hd.half p hp with hp | ⟨type, he⟩
    · obtain ⟨type, he⟩ := h.half p hp
      exact ⟨type, List.mem_append_left _ he⟩
    · exact ⟨type, List.mem_append_right _ he⟩

theorem Life.rooted {rs : List (Request × Bool)} {j : Job} {es : List Event} {w : σ}
    (life : Life S settings rs j es w) :
    Passes (fun i r q gs => Rooted i r.1 q gs) 0 rs j.queries es := by
  refine life.carries (fun i r armed attempts => ?_) (run_derived S) fun h hd => h.derived hd
  exact ⟨⟨_, _, rfl⟩, fun hne => ⟨hne, fun _ hx => hx⟩, fun _ hp => nomatch hp⟩

/-- A request that has been queued has no fault. -/
theorem Life.accepted {rs : List (Request × Bool)} {j : Job} {es : List Event} {w : σ}
    (life : Life S settings rs j es w) : ∀ ra ∈ rs, ra.1.fault? = none := by
  induction life with
  | made => exact fun ra hra => nomatch hra
  | queued _ h ih =>
    intro ra hra
    rcases List.mem_append.1 hra with hra | hra
    · exact ih ra hra
    · rw [List.mem_singleton.1 hra]
      exact (add_eq_ok h).1
  | ran _ ih => exact ih
  | waited _ _ ih => exact ih

/-- The job with queries for some more requests. -/
def queue (j : Job) (rs : List (Request × Bool)) : Job :=
  { j with queries := j.queries ++ rs.map fun ra => .ofRequest ra.1 ra.2 j.settings.attempts }

theorem Life.queue : ∀ {rs' rs : List (Request × Bool)} {j : Job} {es : List Event} {w : σ},
    Life S settings rs j es w → (∀ ra ∈ rs', ra.1.fault? = none) →
      Life S settings (rs ++ rs') (j.queue rs') es w
  | [], rs, j, es, w, life, _ => by simpa [Job.queue] using life
  | ra :: rs', rs, j, es, w, life, h => by
    have hadd := add_ok j ra.2 (h ra List.mem_cons_self)
    have hrest := (life.queued hadd).queue fun ra' hra => h ra' (List.mem_cons_of_mem _ hra)
    simpa [Job.queue] using hrest

/-- A job that has queued these requests and has not been run. -/
def holding (settings : JobSettings) (rs : List (Request × Bool)) : Job :=
  { settings : Job }.queue rs

theorem Life.holding {rs : List (Request × Bool)} (h : ∀ ra ∈ rs, ra.1.fault? = none) (w : σ) :
    Life S settings rs (holding settings rs) [] w :=
  (Life.made w).queue h

/-! ## What a reply gives -/

variable (S settings)

/-- The exchange of the query at a position is answered, and its reply holds this answer, which has
an address. -/
def Round.Gives (r : Round σ) (k : Nat) (a : Answer) : Prop :=
  ∃ seat out response, (r.seats S settings)[k]? = some seat ∧ seat.out = some out
    ∧ ((k, out.exchange), .ok response) ∈ r.traffic S settings ∧ response.isOk = true
    ∧ a ∈ (readBody S out.request response.body (r.readIn S settings k)).1 ∧ a.isEmpty = false

/-- The exchange of the query at a position is answered, and these are the answers of its reply that
have an address, in their order. -/
def Round.Replies (r : Round σ) (k : Nat) (answers : List Answer) : Prop :=
  ∃ seat out response, (r.seats S settings)[k]? = some seat ∧ seat.out = some out
    ∧ ((k, out.exchange), .ok response) ∈ r.traffic S settings ∧ response.isOk = true
    ∧ answers
      = (readBody S out.request response.body (r.readIn S settings k)).1.filter (!·.isEmpty)

variable {S settings}

/-- The answers that land are those of a usable reply that have an address, in their order. -/
theorem answers_land (S : Services σ) (i : Nat) (q : Query) (out : Outgoing) (reply : Reply)
    (w : σ) : (land S i q out reply w).1.answers =
      match reply with
      | .error _ => []
      | .ok response =>
        if response.isOk then (readBody S out.request response.body w).1.filter (!·.isEmpty)
        else [] := by
  unfold land usable report Landing.answers
  cases reply with
  | error fault => rfl
  | ok response =>
    cases hok : response.isOk with
    | false => simp [hok]
    | true =>
      cases ha : (readBody S out.request response.body w).1.filter (!·.isEmpty) with
      | nil => simp [hok, ha]
      | cons b rest => simp [hok, ha]

theorem mem_answers_land {i : Nat} {q : Query} {out : Outgoing} {reply : Reply} {w : σ}
    {a : Answer} : a ∈ (land S i q out reply w).1.answers
      ↔ ∃ response, reply = .ok response ∧ response.isOk = true
        ∧ a ∈ (readBody S out.request response.body w).1 ∧ a.isEmpty = false := by
  rw [answers_land]
  cases reply with
  | error fault => simp
  | ok response => cases hok : response.isOk <;> simp [hok]

/-- What lands for a query that is sent is the reply to its own exchange. -/
theorem Round.landing_of_out {k : Nat} {l : Landing} (hl : (r.landings S settings)[k]? = some l)
    {seat : Seat} (hs : (r.seats S settings)[k]? = some seat) {out : Outgoing}
    (ho : seat.out = some out) : ∃ reply, ((k, out.exchange), reply) ∈ r.traffic S settings
      ∧ l = (land S k seat.query out reply (r.readIn S settings k)).1 := by
  have hlen : (manifest (r.seats S settings)).length ≤ (r.replies S settings).length :=
    Nat.le_of_eq (r.length_replies S settings).symm
  obtain ⟨reply, hmem, hk⟩ := landAll_get S _ _ (r.exchanged S settings).2.2 hlen hs ho
  rw [r.index_seat S settings hs] at hmem hk
  exact ⟨reply, hmem, Option.some.inj (hl.symm.trans hk)⟩

theorem Round.answers_of_unsent {k : Nat} {l : Landing}
    (hl : (r.landings S settings)[k]? = some l) {seat : Seat}
    (hs : (r.seats S settings)[k]? = some seat) (ho : seat.out = none) : l.answers = [] := by
  have hret := (r.landings_pass S settings).each hs hl
  generalize about (0 + k) _ = es at hret
  cases hret with
  | idle => rfl
  | landed hout => rw [ho] at hout; cases hout

/-- The answers that land for a query are those that the reply to its own exchange gives. -/
theorem Round.mem_answers {k : Nat} {l : Landing} (hl : (r.landings S settings)[k]? = some l)
    {a : Answer} : a ∈ l.answers ↔ r.Gives S settings k a := by
  obtain ⟨seat, hs⟩ := (r.landings_pass S settings).get_before hl
  cases ho : seat.out with
  | none =>
    rw [r.answers_of_unsent hl hs ho]
    refine iff_of_false List.not_mem_nil ?_
    rintro ⟨seat', out, -, hs', ho', -⟩
    obtain rfl := Option.some.inj (hs.symm.trans hs')
    rw [ho] at ho'
    cases ho'
  | some out =>
    obtain ⟨reply, hmem, rfl⟩ := r.landing_of_out hl hs ho
    rw [mem_answers_land]
    constructor
    · rintro ⟨response, rfl, hok, ha, hne⟩
      exact ⟨seat, out, response, hs, ho, hmem, hok, ha, hne⟩
    · rintro ⟨seat', out', response, hs', ho', hmem', hok, ha, hne⟩
      obtain rfl := Option.some.inj (hs.symm.trans hs')
      obtain rfl := Option.some.inj (ho.symm.trans ho')
      have hnodup := (r.sent_ascending S settings).imp Nat.ne_of_lt
      exact ⟨response, eq_of_mem_zip hnodup hmem hmem', hok, ha, hne⟩

/-- Where answers land for a query, they are what the reply to its own exchange holds. -/
theorem Round.replies_of_answers {k : Nat} {l : Landing}
    (hl : (r.landings S settings)[k]? = some l) (hne : l.answers ≠ []) :
    r.Replies S settings k l.answers := by
  obtain ⟨seat, hs⟩ := (r.landings_pass S settings).get_before hl
  cases ho : seat.out with
  | none => exact absurd (r.answers_of_unsent hl hs ho) hne
  | some out =>
    obtain ⟨reply, hmem, rfl⟩ := r.landing_of_out hl hs ho
    rw [answers_land] at hne ⊢
    cases reply with
    | error fault => exact absurd rfl hne
    | ok response =>
      cases hok : response.isOk with
      | false => simp [hok] at hne
      | true => exact ⟨seat, out, response, hs, ho, hmem, hok, if_pos hok⟩

theorem Round.Gives.landing {k : Nat} {a : Answer} (h : r.Gives S settings k a) :
    ∃ l, (r.landings S settings)[k]? = some l ∧ a ∈ l.answers := by
  obtain ⟨seat, -, -, hs, -⟩ := id h
  obtain ⟨l, hl⟩ := (r.landings_pass S settings).get_after hs
  exact ⟨l, hl, (r.mem_answers hl).2 h⟩

theorem Round.Gives.query {k : Nat} {a : Answer} (h : r.Gives S settings k a) :
    ∃ q, r.queries[k]? = some q ∧ q.isRunnable = true := by
  obtain ⟨seat, out, -, hs, ho, -⟩ := h
  obtain ⟨q, hq⟩ := (r.seats_pass S settings).get_before hs
  exact ⟨q, hq, (((r.seats_pass S settings).each hq hs).of_out ho).1⟩

/-! ## A round, query by query -/

variable (S settings)

/-- What a query makes of the answers of a round for a host. -/
def Round.portion (r : Round σ) (q : Query) (host : String) : Resolution :=
  Job.portion (poolOf (r.landings S settings)) q (r.instant S settings) host

/-- The own exchange of a query is answered in a round, and it is completed with its share for each
host of its answers; what is cached is that share. -/
structure Answered (r : Round σ) (k : Nat) (q q' : Query) (hosts : List String) (es : List Event) :
    Prop where
  runnable : q.isRunnable = true
  state : q'.state = .completed
  own : ∀ host, host ∈ hosts ↔ ∃ a, r.Gives S settings k a ∧ a.host = host
  single : q.request.usingMulti = false → ∃ host, hosts = [host]
  results : q'.results = q.results ++ hosts.map (r.portion S settings q)
  told : calls es = if q.request.usingCache then
    (hosts.map (r.portion S settings q)).map (.stored k) else []

/-- What a round comes to for a query: it is carried on, or it is answered. -/
inductive Fared (r : Round σ) (k : Nat) (q q' : Query) (es : List Event) : Prop
  | carried (server : Option String) (attempts : Nat) (failed : Option String)
      (query : q' = q.carry server attempts failed) (unanswered : ∀ a, ¬ r.Gives S settings k a)
      (silent : calls es = [])
  | answered (hosts : List String) (h : Answered S settings r k q q' hosts es)

/-- What the rounds from one on come to for a query: it is carried to their end, or to one in which
it is answered. -/
inductive Fares (r : Round σ) (k : Nat) (q q' : Query) (es : List Event) : Prop
  | carried (server : Option String) (attempts : Nat) (failed : Option String)
      (query : q' = q.carry server attempts failed)
      (unanswered : ∀ r', Reaches S settings r r' → r'.isSent S settings →
        ∀ a, ¬ r'.Gives S settings k a)
      (silent : calls es = [])
  | answered {r' : Round σ} (reach : Reaches S settings r r') (sent : r'.isSent S settings)
      (server : Option String) (attempts : Nat) (failed : Option String)
      (query : r'.queries[k]? = some (q.carry server attempts failed)) (hosts : List String)
      (h : Answered S settings r' k (q.carry server attempts failed) q' hosts es)

variable {S settings}

theorem Boarded.calls_eq {now round i : Nat} {q : Query} {seat : Seat} {es : List Event}
    (h : Boarded S settings now round i q seat es) : calls es = [] := by
  cases h <;> rfl

theorem Returned.calls_eq {traffic : Traffic} {i : Nat} {seat : Seat} {l : Landing}
    {es : List Event} (h : Returned S traffic i seat l es) : calls es = [] := by
  cases h with
  | idle => rfl
  | landed _ _ hl => cases hl <;> rfl

theorem calls_callback (i : Nat) (q : Query) (results : List Resolution) :
    calls (callback i q results) = [] := by
  unfold callback
  split <;> rfl

theorem calls_stored (i : Nat) (rs : List Resolution) :
    calls (rs.map (.stored i)) = rs.map (.stored i) := by
  unfold calls
  rw [List.filter_eq_self]
  intro e he
  obtain ⟨r, -, rfl⟩ := List.mem_map.1 he
  rfl

/-- The share of a query in a round, host by host. -/
theorem Round.share_eq {q : Query} {l : Landing} {server : Option String} {attempts : Nat}
    {failed : Option String} (h : l.query = q.carry server attempts failed)
    (answers : List Answer) : share (r.merged S settings) l.query answers
      = (shareHosts (r.merged S settings) answers).map (r.portion S settings q) := by
  refine (Job.share_eq _ _ l.query answers).trans ?_
  rw [h]
  rfl

theorem Rounded.fared {k : Nat} {q q' : Query} {es : List Event}
    (h : Rounded S settings r k q q' es) : Fared S settings r k q q' es := by
  obtain ⟨seat, l, es₁, es₂, hb, hret, hl, rfl, rfl⟩ := h
  obtain ⟨server, attempts, failed, hc⟩ := hb.carry_eq
  cases ho : l.outcome with
  | idle | failed =>
    obtain ⟨failed', hc'⟩ := hret.carry_eq
    have hanswers : l.answers = [] := by rw [Landing.answers, ho]
    have hafter : l.after (r.merged S settings) = l.query := by rw [Landing.after, ho]
    have htold : l.told (r.merged S settings) = [] := by rw [Landing.told, ho]
    refine .carried server attempts failed' ?_ (fun a ha => ?_) ?_
    · rw [hafter, hc', hc]
      rfl
    · rw [← r.mem_answers hl, hanswers] at ha
      cases ha
    · rw [htold, calls_append, calls_append, hb.calls_eq, hret.calls_eq]
      rfl
  | answered out answers =>
    obtain ⟨hrun, hquery, hsent, hne, response, w, -, -, hread⟩ := answered_cases hb hret ho
    have hmem := List.mem_of_getElem? hl
    have hanswers : l.answers = answers := by rw [Landing.answers, ho]
    have hshare : share (r.merged S settings) l.query answers
        = (shareHosts (r.merged S settings) answers).map (r.portion S settings q) :=
      Round.share_eq (hquery.trans hc) answers
    refine .answered (shareHosts (r.merged S settings) answers)
      ⟨hrun, ?_, fun host => ?_, fun hsingle => ?_, ?_, ?_⟩
    · rw [Landing.after_of_answered ho]
      rfl
    · refine (mem_shareHosts hmem ho).trans (exists_congr fun a => and_congr_left' ?_)
      rw [← r.mem_answers hl, hanswers]
    · refine shareHosts_single hmem ho hne ?_
      rw [hread]
      refine (List.length_filter_le _ _).trans (length_readBody_le S ?_ _ _)
      rw [usingMulti_outgoing hsent, hc]
      exact hsingle
    · rw [Landing.after_of_answered ho, ← hshare, hquery, hc]
      rfl
    · have hindex := r.index_landing S settings hl
      have hcache : l.query.request.usingCache = q.request.usingCache := by
        rw [hquery, hc]
        rfl
      rw [calls_append, calls_append, hb.calls_eq, hret.calls_eq, List.nil_append,
        List.nil_append, ← hshare, Landing.told, ho, hindex, hcache]
      simp only [calls_append, calls_callback, List.append_nil]
      split
      · exact calls_stored k _
      · rfl

theorem Answered.of_calls {k : Nat} {q q' : Query} {hosts : List String} {es fs : List Event}
    (h : Answered S settings r k q q' hosts es) (hes : calls fs = calls es) :
    Answered S settings r k q q' hosts fs :=
  ⟨h.runnable, h.state, h.own, h.single, h.results, hes.trans h.told⟩

theorem Settles.fares {qs : List Query} {es : List Event} {w : σ}
    (h : Settles S settings r qs es w) {k : Nat} {q q' : Query} (hq : r.queries[k]? = some q)
    (hq' : qs[k]? = some q') : Fares S settings r k q q' (about k es) := by
  induction h generalizing q with
  | @ended r hend =>
    rw [List.getElem?_map] at hq'
    obtain ⟨seat, hs, rfl⟩ := Option.map_eq_some_iff.1 hq'
    have hb := (r.seats_pass S settings).each hq hs
    rw [Nat.zero_add] at hb
    obtain ⟨server, attempts, failed, hc⟩ := hb.carry_eq
    refine .carried server attempts failed hc (fun r' hreach hsent => ?_) hb.calls_eq
    cases hreach with
    | refl => exact absurd hsent hend
    | step hsent' => exact absurd hsent' hend
  | @again r qs es w hsent rest ih =>
    obtain ⟨q₁, hq₁⟩ := (r.passes S settings).get_after hq
    have hround := (r.passes S settings).each hq hq₁
    have hrest := ih hq₁ hq'
    rw [Nat.zero_add] at hround
    rw [about_append]
    cases hround.fared with
    | carried server attempts failed hquery hnone hsilent =>
      subst hquery
      cases hrest with
      | carried server' attempts' failed' hquery' hnone' hsilent' =>
        refine .carried server' attempts' failed' hquery' (fun r' hreach hsent' => ?_) ?_
        · cases hreach with
          | refl => exact hnone
          | step _ hreach => exact hnone' r' hreach hsent'
        · rw [calls_append, hsilent, hsilent']
          rfl
      | answered hreach hsent' server' attempts' failed' hquery' hosts h =>
        exact .answered (.step hsent hreach) hsent' server' attempts' failed' hquery' hosts
          (h.of_calls (by rw [calls_append, hsilent, List.nil_append]))
    | answered hosts h =>
      have hidle : q₁.isRunnable = false := by simp [Query.isRunnable, h.state]
      obtain rfl : q₁ = q' := Option.some.inj ((rest.kept hq₁ hidle).symm.trans hq')
      have hsilent : calls (about k es) = [] := by
        cases hrest with
        | carried _ _ _ _ _ hsilent => exact hsilent
        | answered _ _ _ _ _ _ _ h' =>
          have hpend := (Query.isRunnable_iff.1 h'.runnable).1
          rw [Query.state_carry, h.state] at hpend
          cases hpend
      exact .answered (.refl r) hsent q.request.resolver q.attemptsLeft q.lastFailed hq hosts
        (h.of_calls (by rw [calls_append, hsilent, List.append_nil]))

/-- A query whose exchange is answered in a round is not sent in a later one. -/
theorem Reaches.eq_of_gives {r₁ r₂ : Round σ} (h : Reaches S settings r₁ r₂) {k : Nat}
    {a b : Answer} (ha : r₁.Gives S settings k a) (hb : r₂.Gives S settings k b) : r₁ = r₂ := by
  cases h with
  | refl => rfl
  | step _ rest =>
    obtain ⟨q, hq, -⟩ := ha.query
    obtain ⟨q', hq'⟩ := (r₁.passes S settings).get_after hq
    have hround := (r₁.passes S settings).each hq hq'
    rw [Nat.zero_add] at hround
    cases hround.fared with
    | carried _ _ _ _ hnone => exact absurd ha (hnone a)
    | answered hosts h =>
      have hrest : q'.isRunnable = false := by simp [Query.isRunnable, h.state]
      obtain ⟨q'', hq'', hrun⟩ := hb.query
      obtain rfl := Option.some.inj ((rest.kept hq' hrest).symm.trans hq'')
      rw [hrest] at hrun
      cases hrun

/-- A query that is still pending after some rounds has been carried through them. -/
theorem Reaches.carried {r' : Round σ} (h : Reaches S settings r r') {k : Nat} {q q' : Query}
    (hq : r.queries[k]? = some q) (hq' : r'.queries[k]? = some q') (hpend : q'.state = .pending) :
    ∃ server attempts failed, q' = q.carry server attempts failed := by
  induction h generalizing q with
  | refl r =>
    obtain rfl := Option.some.inj (hq.symm.trans hq')
    exact ⟨_, _, _, q.carry_self.symm⟩
  | @step r r' hsent _ ih =>
    obtain ⟨q₁, hq₁⟩ := (r.passes S settings).get_after hq
    obtain ⟨server, attempts, failed, rfl⟩ := ih hq₁ hq'
    cases ((r.passes S settings).each hq hq₁).fared with
    | carried _ _ _ hquery =>
      subst hquery
      exact ⟨server, attempts, failed, rfl⟩
    | answered hosts h =>
      rw [Query.state_carry, h.state] at hpend
      cases hpend

/-! ## Runs -/

/-- A query is answered by its own exchange in a round of a run, and this is its share of the
round's answers for a host of its own. -/
structure Shares (S : Services σ) (j : Job) (w : σ) (k : Nat) (x : Resolution) (r : Round σ)
    (q : Query) : Prop where
  inRun : InRun S j w r
  query : r.queries[k]? = some q
  pending : q.state = .pending
  given : ∃ a, r.Gives S j.settings k a ∧ a.host = x.host
  eq_portion : x = r.portion S j.settings q x.host

variable {rs : List (Request × Bool)} {j : Job} {es : List Event} {w : σ}

/-- What a life keeps of a query and preparation and being carried do not change is so of the query
in each round of a run. -/
theorem InRun.keeps {P : Nat → Request × Bool → Query → List Event → Prop}
    {R : Nat → Query → Query → List Event → Prop} (hr : InRun S j w r)
    (hlife : Passes P 0 rs j.queries es)
    (hprepared : Passes R 0 j.queries (prepare S 0 none j.queries w).1.1
      (prepare S 0 none j.queries w).2.1)
    (hkept : ∀ {i ra q q' es fs}, P i ra q es → R i q q' fs → P i ra q' (es ++ fs))
    (hcarried : ∀ {i ra q es} (server : Option String) (attempts : Nat) (failed : Option String),
      P i ra q es → P i ra (q.carry server attempts failed) es)
    {k : Nat} {q : Query} (hq : r.queries[k]? = some q) (hpend : q.state = .pending) :
    ∃ ra, rs[k]? = some ra
      ∧ P k ra q (about k es ++ about k (prepare S 0 none j.queries w).2.1) := by
  obtain ⟨_, hreach⟩ := hr.reached.passes
  obtain ⟨q₁, hq₁⟩ := hreach.get_before hq
  have hpass := hlife.comp hprepared
  obtain ⟨ra, hra⟩ := hpass.get_before hq₁
  obtain ⟨q₀, es₁, es₂, h₁, h₂, hes⟩ := hpass.each hra hq₁
  obtain ⟨server, attempts, failed, rfl⟩ := hr.reached.carried hq₁ hq hpend
  have hkeeps := hcarried server attempts failed (hkept h₁ h₂)
  rw [← hes, about_append, Nat.zero_add] at hkeeps
  exact ⟨ra, hra, hkeeps⟩

/-- The rounds of a run give nothing for a query that has been completed by then. -/
theorem InRun.ungiven (hr : InRun S j w r) {k : Nat} {q : Query}
    (hq : (prepare S 0 none j.queries w).1.1[k]? = some q) (hidle : q.isRunnable = false)
    (a : Answer) : ¬ r.Gives S j.settings k a := by
  intro h
  obtain ⟨q', hq', hrun⟩ := h.query
  obtain rfl := Option.some.inj ((hr.reached.kept hq hidle).symm.trans hq')
  exact absurd (hidle.symm.trans hrun) (by decide)

/-- A query in a round of a run goes by the request that was queued for it, and its partial hit was
found under its own key, as the run was prepared or by an earlier one. -/
theorem InRun.rooted (hr : InRun S j w r) (life : Life S settings rs j es w) {k : Nat} {q : Query}
    (hq : r.queries[k]? = some q) (hpend : q.state = .pending) :
    ∃ ra, rs[k]? = some ra
      ∧ Rooted k ra.1 q (about k es ++ about k (prepare S 0 none j.queries w).2.1) :=
  hr.keeps life.rooted (prepare_derived S 0 none j.queries w) (·.derived)
    (fun _ _ _ h => ⟨h.stems.trans ⟨_, _, rfl⟩, h.narrows, h.half⟩) hq hpend

/-- A run whose second round has nothing to send has no other round than the first. -/
theorem InRun.eq_firstRound (hr : InRun S j w r)
    (hlast : ¬ ((firstRound S j w).next S j.settings).isSent S j.settings) :
    r = firstRound S j w := by
  cases hr.reached with
  | refl => rfl
  | step _ rest =>
    cases rest with
    | refl => exact absurd hr.sent hlast
    | step hsent => exact absurd hsent hlast

theorem Shares.cacheKey_eq {k : Nat} {x : Resolution} {q : Query} (h : Shares S j w k x r q) :
    x.cacheKey = q.request.cacheKeyFor x.host := by
  rw [h.eq_portion]
  rfl

theorem Answered.shares {k : Nat} {q q' : Query} {hosts : List String} {gs : List Event}
    (hr : InRun S j w r) (hq : r.queries[k]? = some q)
    (h : Answered S j.settings r k q q' hosts gs) {x : Resolution}
    (hx : x ∈ hosts.map (r.portion S j.settings q)) : Shares S j w k x r q := by
  obtain ⟨host, hmem, rfl⟩ := List.mem_map.1 hx
  exact ⟨hr, hq, (Query.isRunnable_iff.1 h.runnable).1, (h.own host).1 hmem, rfl⟩

/-- What the rounds of a job do to its cache is to cache the shares of answered queries. -/
theorem Settles.stores {qs : List Query} {es : List Event} {w : σ}
    (hs : Settles S settings r qs es w) {e : Event} (he : e ∈ es) {key : String}
    (hkey : e.key? = some key) : ∃ k x r' q q' hosts, e = .stored k x
      ∧ Reaches S settings r r' ∧ r'.isSent S settings ∧ r'.queries[k]? = some q
      ∧ q.request.usingCache = true ∧ Answered S settings r' k q q' hosts (about k es)
      ∧ x ∈ hosts.map (r'.portion S settings q) := by
  obtain ⟨k, hcall⟩ := mem_calls he hkey
  obtain ⟨q, q', hq, hq'⟩ := hs.passes.get_of_mem (List.mem_filter.1 hcall).1
  cases hs.fares hq hq' with
  | carried _ _ _ _ _ hsilent =>
    rw [hsilent] at hcall
    cases hcall
  | @answered r' reach sent server attempts failed hquery hosts h =>
    rw [h.told] at hcall
    split at hcall
    · rename_i hcache
      obtain ⟨x, hx, rfl⟩ := List.mem_map.1 hcall
      exact ⟨k, x, r', _, q', hosts, rfl, reach, sent, hquery, hcache, h, hx⟩
    · cases hcall

/-- Beside what it asks the cache as it is prepared, a run caches the shares of its caching queries,
and nothing else is done to the cache. -/
theorem run_calls {e : Event} (he : e ∈ (run S j w).2.1) {key : String}
    (hkey : e.key? = some key) : e ∈ (prepare S 0 none j.queries w).2.1
      ∨ ∃ k x r q, e = .stored k x ∧ Shares S j w k x r q ∧ q.request.usingCache = true := by
  have hrun := executes_run S j w
  generalize run S j w = out at hrun he
  cases hrun with
  | refused => exact .inl he
  | settled hok hs =>
    refine (List.mem_append.1 he).imp id fun he => ?_
    obtain ⟨k, x, r', q, _, _, rfl, reach, sent, hquery, hcache, h, hx⟩ := hs.stores he hkey
    exact ⟨k, x, r', q, rfl, h.shares ⟨hok, reach, sent⟩ hquery hx, hcache⟩

/-- Whatever a run caches is the share of a caching query in one of its rounds. -/
theorem run_stored {k : Nat} {x : Resolution} (h : Event.stored k x ∈ (run S j w).2.1) :
    ∃ r q, Shares S j w k x r q ∧ q.request.usingCache = true := by
  have hnone : StoresFit (fun _ => False) (prepare S 0 none j.queries w).2.1 :=
    prepare_storesFit S 0 none j.queries w
  rcases run_calls h rfl with hprepare | ⟨k', x', r, q, heq, hshares, hcache⟩
  · exact (hnone k x hprepare).elim
  · cases heq
    exact ⟨r, q, hshares, hcache⟩

/-- What is asked of the cache for a query as a run is prepared is asked as that query is prepared:
the one for which no server can be drawn, and those behind it, ask nothing. -/
theorem prepared_of_call {k : Nat} {e : Event} (he : e ∈ about k (prepare S 0 none j.queries w).2.1)
    {key : String} (hkey : e.key? = some key) :
    ∃ q q', j.queries[k]? = some q ∧ (prepare S 0 none j.queries w).1.1[k]? = some q'
      ∧ Prepared k q q' (about k (prepare S 0 none j.queries w).2.1) := by
  have hp := prepare_passes S 0 none j.queries w
  obtain ⟨q, q', hq, hq'⟩ := hp.get_of_mem he
  have hstep := hp.each hq hq'
  rw [Nat.zero_add] at hstep
  rcases hstep with h | ⟨-, h⟩
  · exact ⟨q, q', hq, hq', h⟩
  · generalize about k _ = fs at h he
    cases h with
    | unreached => cases he
    | refused =>
      rw [List.mem_singleton.1 he] at hkey
      cases hkey

/-- A run looks up the cache for a query as it prepares the query. -/
theorem prepared_of_probed {k : Nat} {key : String} {type : QueryType} {found : Option Resolution}
    (h : Event.probed k key type found ∈ (run S j w).2.1) :
    Event.probed k key type found ∈ about k (prepare S 0 none j.queries w).2.1
      ∧ ∃ q q', j.queries[k]? = some q ∧ (prepare S 0 none j.queries w).1.1[k]? = some q'
        ∧ Prepared k q q' (about k (prepare S 0 none j.queries w).2.1) := by
  rcases run_calls h rfl with hprepare | ⟨_, _, _, _, heq, -⟩
  · exact ⟨mem_about hprepare rfl, prepared_of_call (mem_about hprepare rfl) rfl⟩
  · cases heq

/-- What a run makes of a query that is pending before it: the cache has all that it asks for and no
round gives anything for it, or the query has no results, or it is answered in one of the rounds. -/
inductive Gains (S : Services σ) (j : Job) (w : σ) (k : Nat) (q q' : Query) : Prop
  | found (type : QueryType) (p : Resolution) (state : q'.state = .completed)
      (told : Event.probed k q.ownKey type (some p) ∈ (prepare S 0 none j.queries w).2.1)
      (results : q'.results = [{ p with hitCache := true }])
      (unsent : ∀ r, InRun S j w r → ∀ a, ¬ r.Gives S j.settings k a)
  | nothing (results : q'.results = [])
  | answered (r : Round σ) (q₁ : Query) (state : q'.state = .completed)
      (results : ∀ x ∈ q'.results, Shares S j w k x r q₁)

theorem Prepared.results_nil {i : Nat} {q q' : Query} {fs : List Event} (h : Prepared i q q' fs)
    (hq : q.state = .pending) (hnil : q.results = []) :
    q'.state = .pending ∧ q'.results = []
      ∨ q'.state = .completed ∧ ∃ type p, Event.probed i q.ownKey type (some p) ∈ fs
        ∧ q'.results = [{ p with hitCache := true }] := by
  cases h with
  | passed hne => exact absurd hq hne
  | @readied _ q₁ q₂ _ es₁ es₂ served typed probed =>
    have hreadies := served.readies typed
    have hstate : q₂.state = .pending := hreadies.state.trans hq
    have hresults : q₂.results = [] := hreadies.results.trans hnil
    cases probed with
    | skipped | missed | half => exact .inl ⟨hstate, hresults⟩
    | whole _ p =>
      refine .inr ⟨rfl, q₂.queryType, p, ?_, ?_⟩
      · rw [hreadies.ownKey]
        simp
      · simp [Query.complete, hresults]

theorem run_gains (life : Life S settings rs j es w) {k : Nat} {q q' : Query}
    (hq : j.queries[k]? = some q) (hpend : q.state = .pending)
    (hq' : (run S j w).1.1.queries[k]? = some q') : Gains S j w k q q' := by
  obtain ⟨ra, hra⟩ := life.sound.get_before hq
  have hnil := ((life.sound.each hra hq).pending hpend).1
  have hp := prepare_passes S 0 none j.queries w
  obtain ⟨q₁, hq₁⟩ := hp.get_after hq
  have hcases : q₁.state = .pending ∧ q₁.results = []
      ∨ q₁.state = .completed ∧ ∃ type p,
        Event.probed k q.ownKey type (some p) ∈ (prepare S 0 none j.queries w).2.1
          ∧ q₁.results = [{ p with hitCache := true }] := by
    have hstep := hp.each hq hq₁
    rw [Nat.zero_add] at hstep
    rcases hstep with h | ⟨-, h⟩
    · refine (h.results_nil hpend hnil).imp id fun ⟨hs, type, p, he, hr⟩ => ?_
      exact ⟨hs, type, p, mem_of_mem_about he, hr⟩
    · generalize about k _ = fs at h
      cases h <;> exact .inl ⟨hpend, hnil⟩
  have hunsent : q₁.state = .completed → ∀ r, InRun S j w r → ∀ a, ¬ r.Gives S j.settings k a :=
    fun hdone r hr => hr.ungiven hq₁ (by simp [Query.isRunnable, hdone])
  have hexec := executes_run S j w
  generalize run S j w = out at hexec hq'
  cases hexec with
  | refused =>
    obtain rfl := Option.some.inj (hq₁.symm.trans hq')
    rcases hcases with ⟨-, hnone⟩ | ⟨hdone, type, p, he, hres⟩
    · exact .nothing hnone
    · exact .found type p hdone he hres (hunsent hdone)
  | settled hok hs =>
    rw [List.getElem?_map] at hq'
    obtain ⟨q₂, hq₂, rfl⟩ := Option.map_eq_some_iff.1 hq'
    rcases hcases with ⟨hstill, hnone⟩ | ⟨hdone, type, p, he, hres⟩
    · cases hs.fares hq₁ hq₂ with
      | carried server attempts failed hquery =>
        refine .nothing ?_
        rw [Query.results_sweep, hquery]
        exact hnone
      | @answered r reach sent server attempts failed hquery hosts h =>
        rw [Query.sweep_of_completed h.state]
        refine .answered r (q₁.carry server attempts failed) h.state fun x hx => ?_
        rw [h.results, Query.results_carry, hnone, List.nil_append] at hx
        exact h.shares ⟨hok, reach, sent⟩ hquery hx
    · have hkept := hs.kept hq₁ (by simp [Query.isRunnable, hdone])
      obtain rfl := Option.some.inj (hkept.symm.trans hq₂)
      rw [Query.sweep_of_completed hdone]
      exact .found type p hdone he hres (hunsent hdone)

end Job

end HttpDns
