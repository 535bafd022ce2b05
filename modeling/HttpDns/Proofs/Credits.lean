import HttpDns.Proofs.Tokens
import HttpDns.Proofs.Turns

/-!
# What the exchanges are worth to their servers

A round sends its batch and then gives each exchange in it one sample, in the order of the batch
and for the server it was sent to: the round-trip time of the reply if this was a usable answer,
else the timeout of the request, as far as a sample can hold it. There are no other samples, so none
for a query that the cache has answered and none in a run that is refused (`run_credits`).
-/

namespace HttpDns

/-- It is told of what is sent to servers, or of what a server is given for it. -/
def Event.isTrade : Event → Bool
  | .sent .. | .sampled .. => true
  | .detected _ | .drew .. | .probed .. | .rotated .. | .switched .. | .stored .. | .fired ..
  | .asked _ => false

/-- The batches that were sent and the samples that were given, in order. -/
def trades (es : List Event) : List Event :=
  es.filter Event.isTrade

@[simp] theorem trades_append (es fs : List Event) : trades (es ++ fs) = trades es ++ trades fs :=
  List.filter_append es fs

theorem trades_eq_nil {es : List Event} (h : ∀ e ∈ es, e.isTrade = false) : trades es = [] :=
  List.filter_eq_nil_iff.2 fun e he => by simp [h e he]

/-- The samples that were given, each to a server. -/
def samplesTold (es : List Event) : List (String × UInt32) :=
  es.filterMap fun
    | .sampled _ server ms => some (server, ms)
    | _ => none

@[simp] theorem samplesTold_append (es fs : List Event) :
    samplesTold (es ++ fs) = samplesTold es ++ samplesTold fs :=
  List.filterMap_append

/-! ## Notes of samples -/

namespace Services

variable {τ : Type}

/-- The services, with a note of the samples that the servers are given. -/
def metered (S : Services τ) : Services (List (String × UInt32) × τ) :=
  { S.beside with
    sample := fun server ms (noted, w) => (noted ++ [(server, ms)], S.sample server ms w) }

theorem accords_metered (S : Services τ) : S.metered.Accords S fun s w => s.2 = w := by
  constructor
  · constructor <;> intros <;> subst_vars <;> first | rfl | exact ⟨rfl, rfl⟩
  all_goals intros; subst_vars; first | rfl | exact ⟨rfl, rfl⟩

/-- What is told of samples is what the servers are given. -/
theorem metered_tells (S : Services τ) :
    S.metered.Obeys fun s es s' => s'.1 = s.1 ++ samplesTold es where
  nothing _ := (List.append_nil _).symm
  append h h' := by rw [h', h, samplesTold_append, List.append_assoc]
  stack _ := (List.append_nil _).symm
  pick _ _ := (List.append_nil _).symm
  lookup _ _ _ _ := (List.append_nil _).symm
  rotate _ _ _ := (List.append_nil _).symm
  pickOther _ _ _ := (List.append_nil _).symm
  sendAll _ _ _ := (List.append_nil _).symm
  readSingle _ _ := (List.append_nil _).symm
  readMulti _ _ := (List.append_nil _).symm
  sample _ _ _ _ := rfl
  store _ _ _ := (List.append_nil _).symm
  fired _ _ _ := (List.append_nil _).symm

end Services

namespace Job

variable {σ : Type} {S : Services σ} {settings : JobSettings} {r : Round σ} {i : Nat}
  {q q' : Query} {es : List Event}

/-! ## Where nothing is traded -/

theorem untraded_callback {results : List Resolution} :
    ∀ e ∈ callback i q results, e.isTrade = false := by
  unfold callback
  split <;> simp [Event.isTrade]

theorem Prepared.untraded (h : Prepared i q q' es) : ∀ e ∈ es, e.isTrade = false := by
  cases h with
  | passed => simp
  | @readied _ q₁ q₂ _ es fs served typed probed =>
    have hserved : ∀ e ∈ es, e.isTrade = false := by
      cases served <;> simp [Event.isTrade]
    have hprobed : ∀ e ∈ fs, e.isTrade = false := by
      cases probed with
      | skipped | missed | half => simp [Event.isTrade]
      | whole =>
        intro e he
        rcases List.mem_append.1 he with he | he
        · simp only [List.mem_cons, List.not_mem_nil, or_false] at he
          rcases he with rfl | rfl <;> rfl
        · exact untraded_callback e he
    exact fun e he => (List.mem_append.1 he).elim (hserved e) (hprobed e)

theorem Unprepared.untraded (h : Unprepared i q q' es) : ∀ e ∈ es, e.isTrade = false := by
  cases h <;> simp [Event.isTrade]

theorem Boarded.untraded {now round : Nat} {seat : Seat}
    (h : Boarded S settings now round i q seat es) : ∀ e ∈ es, e.isTrade = false := by
  cases h <;> simp [Event.isTrade]

theorem Landing.untraded {merged : List Resolution} (l : Landing) :
    ∀ e ∈ l.told merged, e.isTrade = false := by
  unfold told
  intro e he
  split at he
  · cases he
  · cases he
  · rcases List.mem_append.1 he with he | he
    · split at he
      · obtain ⟨x, -, rfl⟩ := List.mem_map.1 he
        rfl
      · cases he
    · exact untraded_callback e he

theorem trades_prepare (S : Services σ) (qs : List Query) (w : σ) :
    trades (prepare S 0 none qs w).2.1 = [] := by
  have hpass := prepare_passes S 0 none qs w
  refine trades_eq_nil fun e he => ?_
  rcases prepare_unsent S 0 none qs w e he with ⟨k, hk⟩ | ⟨stack, rfl⟩
  · have hmem := mem_about he hk
    obtain ⟨q, q', hq, hq'⟩ := hpass.get_of_mem hmem
    have hstep := hpass.each hq hq'
    rw [Nat.zero_add] at hstep
    rcases hstep with hstep | ⟨-, hstep⟩
    · exact hstep.untraded e hmem
    · exact hstep.untraded e hmem
  · rfl

theorem Round.trades_launched (r : Round σ) : trades (r.launched S settings).2.1 = [] := by
  have hpass := r.seats_pass S settings
  refine trades_eq_nil fun e he => ?_
  obtain ⟨k, hk⟩ := r.launched_query? S settings e he
  have hmem := mem_about he hk
  obtain ⟨q, seat, hq, hs⟩ := hpass.get_of_mem hmem
  have hstep := hpass.each hq hs
  rw [Nat.zero_add] at hstep
  exact hstep.untraded e hmem

/-! ## What landing is worth -/

/-- The sample that an exchange is worth as its reply lands. -/
inductive Worth (l : Landing) : (Nat × Exchange) × Reply → Event → Prop
  | answered {out : Outgoing} {answers : List Answer} {response : Response}
      (h : l.outcome = .answered out answers) :
      Worth l ((l.index, out.exchange), .ok response)
        (.sampled l.index out.exchange.server response.rtt)
  | failed {out : Outgoing} {reply : Reply} (h : l.outcome = .failed out) :
      Worth l ((l.index, out.exchange), reply)
        (.sampled l.index out.exchange.server (penalty out.request))

theorem Landed.worth {out : Outgoing} {reply : Reply} {l : Landing}
    (h : Landed S i q out reply l es) : ∃ e, es = [e] ∧ Worth l ((i, out.exchange), reply) e := by
  cases h with
  | answered hr =>
    subst hr
    exact ⟨_, rfl, .answered (l := ⟨i, q, .answered out _⟩) rfl⟩
  | failed => exact ⟨_, rfl, .failed (l := ⟨i, _, .failed out⟩) rfl⟩

/-- The replies land in the order of the batch, each with one sample. -/
theorem landAll_worth : ∀ (seats : List Seat) (replies : List Reply) (w : σ),
    (manifest seats).length ≤ replies.length →
      List.Forall₂ (fun t e => ∃ l ∈ (landAll S seats replies w).1, Worth l t e)
        ((manifest seats).zip replies) (landAll S seats replies w).2.1
  | [], _, _, _ => .nil
  | seat :: seats, replies, w, hlen => by
    cases ho : seat.out with
    | none =>
      rw [manifest_cons_none seats ho] at hlen ⊢
      simp only [landAll, ho, Action.bind_apply, Action.pure_apply, List.append_nil]
      exact (landAll_worth seats replies w hlen).imp fun _ _ hworth =>
        hworth.imp fun _ => .imp_left (List.mem_cons_of_mem _)
    | some out =>
      rw [manifest_cons_some seats ho] at hlen ⊢
      cases replies with
      | nil => simp at hlen
      | cons reply replies =>
        obtain ⟨e, he, hworth⟩ := (land_landed S seat.index seat.query out reply w).worth
        have hrest := landAll_worth seats replies (land S seat.index seat.query out reply w).2.2
          (by simpa using hlen)
        simp only [landAll, ho, Action.bind_apply, Action.pure_apply, List.append_nil, he,
          List.zip_cons_cons, List.singleton_append]
        exact .cons ⟨_, List.mem_cons_self, hworth⟩ (hrest.imp fun _ _ hworth =>
          hworth.imp fun _ => .imp_left (List.mem_cons_of_mem _))

theorem exists_of_forall₂ {α β : Type} {R : α → β → Prop} {b : β} : ∀ {as : List α} {bs : List β},
    List.Forall₂ R as bs → b ∈ bs → ∃ a ∈ as, R a b
  | _, _, .cons hab hrest, h => by
    rcases List.mem_cons.1 h with rfl | h
    · exact ⟨_, List.mem_cons_self, hab⟩
    · obtain ⟨a, ha, hR⟩ := exists_of_forall₂ hrest h
      exact ⟨a, List.mem_cons_of_mem _ ha, hR⟩

/-! ## The trades of a round -/

namespace Round

variable (S settings) (r : Round σ)

/-- The samples that are given in a round. -/
def samples : List Event :=
  (landAll S (r.seats S settings) (r.replies S settings) (r.exchanged S settings).2.2).2.1

theorem samples_worth : List.Forall₂ (fun t e => ∃ l ∈ r.landings S settings, Worth l t e)
    (r.traffic S settings) (r.samples S settings) :=
  landAll_worth _ _ _ (Nat.le_of_eq (r.length_replies S settings).symm)

/-- A round sends its batch and then gives its samples. -/
theorem trades_events : trades (r.events S settings)
    = .sent r.number (manifest (r.seats S settings)) :: r.samples S settings := by
  have hsamples : trades (r.samples S settings) = r.samples S settings := by
    refine List.filter_eq_self.2 fun e he => ?_
    obtain ⟨t, -, l, -, hworth⟩ := exists_of_forall₂ (r.samples_worth S settings) he
    cases hworth <;> rfl
  have hdelivered : ∀ merged ls, trades (List.flatMap (Landing.told merged) ls) = [] := by
    refine fun merged ls => trades_eq_nil fun e he => ?_
    obtain ⟨l, -, he⟩ := List.mem_flatMap.1 he
    exact l.untraded e he
  have hreceived : trades (r.received S settings).2.1 = r.samples S settings := by
    simp only [received, receive, Action.bind_apply, Action.read_apply, List.nil_append,
      trades_append, (deliverAll_apply S _ _ _).2, hdelivered, List.append_nil]
    exact hsamples
  rw [events, trades_append, trades_append, r.trades_launched, r.exchanged_events, hreceived]
  rfl

theorem map_traffic : (r.traffic S settings).map (·.1) = manifest (r.seats S settings) :=
  List.map_fst_zip (Nat.le_of_eq (r.length_replies S settings).symm)

end Round

/-- What an exchange of a round is worth: the round-trip time of its reply if it gave a usable
answer, else the timeout of the request, or the greatest sample if that is longer. -/
inductive Credits (S : Services σ) (j : Job) (r : Round σ) :
    (Nat × Exchange) × Reply → Event → Prop
  | answered {k : Nat} {e : Exchange} {response : Response} (h : r.Answers S j.settings k) :
      Credits S j r ((k, e), .ok response) (.sampled k e.server response.rtt)
  | failed {k : Nat} {e : Exchange} {reply : Reply} {q : Query} {ms : UInt32}
      (h : ¬ r.Answers S j.settings k) (hq : j.queries[k]? = some q)
      (hms : ms.toNat = min q.request.timeoutMs.toNat (UInt32.size - 1)) :
      Credits S j r ((k, e), reply) (.sampled k e.server ms)

theorem toNat_penalty (r : Request) :
    (penalty r).toNat = min r.timeoutMs.toNat (UInt32.size - 1) := by
  have hsize : UInt32.size = 4294967296 := rfl
  rw [penalty, UInt32.toNat_ofNat_of_lt' (by omega)]

/-- A query that goes into a round has the request of the job's query, but for the server and the
type. -/
theorem InRun.stems {j : Job} {w : σ} (hr : InRun S j w r) {k : Nat} {q : Query}
    (hq : r.queries[k]? = some q) (hpend : q.state = .pending) :
    ∃ q₀, j.queries[k]? = some q₀ ∧ q.Stems q₀.request := by
  obtain ⟨_, hreach⟩ := hr.reached.passes
  obtain ⟨q₁, hq₁⟩ := hreach.get_before hq
  obtain ⟨q₀, hq₀⟩ := (prepare_derived S 0 none j.queries w).get_before hq₁
  obtain ⟨server, attempts, failed, rfl⟩ := hr.reached.carried hq₁ hq hpend
  have hstems := ((prepare_derived S 0 none j.queries w).each hq₀ hq₁).stems
  exact ⟨q₀, hq₀, hstems.trans ⟨server, _, rfl⟩⟩

theorem InRun.timeoutMs_eq {j : Job} {w : σ} (hr : InRun S j w r) {k : Nat} {seat : Seat}
    {out : Outgoing} (hs : (r.seats S j.settings)[k]? = some seat) (ho : seat.out = some out) :
    ∃ q, j.queries[k]? = some q ∧ out.request.timeoutMs = q.request.timeoutMs := by
  obtain ⟨q, hq⟩ := (r.seats_pass S j.settings).get_before hs
  have hb := (r.seats_pass S j.settings).each hq hs
  obtain ⟨hrun, hout⟩ := hb.of_out ho
  obtain ⟨server, attempts, failed, hcarry⟩ := hb.carry_eq
  obtain ⟨q₀, hq₀, server', type, hstems⟩ := hr.stems hq (Query.isRunnable_iff.1 hrun).1
  refine ⟨q₀, hq₀, ?_⟩
  obtain ⟨server'', -, rfl⟩ := Option.map_eq_some_iff.1 hout
  simp [hcarry, hstems]

theorem Returned.out_eq {traffic : Traffic} {seat : Seat} {l : Landing}
    (h : Returned S traffic i seat l es) {out : Outgoing}
    (hl : l.outcome = .failed out ∨ ∃ answers, l.outcome = .answered out answers) :
    seat.out = some out := by
  cases h with
  | idle => simp at hl
  | landed ho _ hlanded =>
    cases hlanded with
    | answered | failed =>
      obtain rfl : _ = out := by simpa using hl
      exact ho

/-- Each exchange of a round is given the sample that it is worth. -/
theorem InRun.credits {j : Job} {w : σ} (hr : InRun S j w r) :
    List.Forall₂ (Credits S j r) (r.traffic S j.settings) (r.samples S j.settings) := by
  refine (r.samples_worth S j.settings).imp fun t e ⟨l, hl, hworth⟩ => ?_
  obtain ⟨k, hk⟩ := List.getElem?_of_mem hl
  obtain ⟨seat, hs⟩ := (r.landings_pass S j.settings).get_before hk
  have hindex : l.index = k := r.index_landing S j.settings hk
  have hreturned := (r.landings_pass S j.settings).each hs hk
  cases hworth with
  | answered h =>
    rw [hindex]
    rcases Round.outcome hs (hreturned.out_eq (.inr ⟨_, h⟩)) with ⟨hanswers, -⟩ | ⟨-, hk'⟩
    · exact .answered hanswers
    · obtain rfl := Option.some.inj (hk.symm.trans hk')
      cases h
  | failed h =>
    rw [hindex]
    have ho := hreturned.out_eq (.inl h)
    obtain ⟨q, hq, htimeout⟩ := hr.timeoutMs_eq hs ho
    rcases Round.outcome hs ho with ⟨-, answers, hk'⟩ | ⟨hnone, -⟩
    · obtain rfl := Option.some.inj (hk.symm.trans hk')
      cases h
    · exact .failed hnone hq (by rw [toNat_penalty, htimeout])

/-! ## The trades of a run -/

theorem Settles.trades {qs : List Query} {w : σ} (h : Settles S settings r qs es w) :
    ∃ rs : List (Round σ), (∀ r' ∈ rs, Reaches S settings r r' ∧ r'.isSent S settings)
      ∧ trades es = rs.flatMap fun r' =>
        .sent r'.number (manifest (r'.seats S settings)) :: r'.samples S settings := by
  induction h with
  | @ended r _ => exact ⟨[], by simp, r.trades_launched⟩
  | @again r qs es w hsent _ ih =>
    obtain ⟨rs, hrs, htrades⟩ := ih
    refine ⟨r :: rs, fun r' hr' => ?_, ?_⟩
    · rcases List.mem_cons.1 hr' with rfl | hr'
      · exact ⟨.refl r', hsent⟩
      · exact ⟨.step hsent (hrs r' hr').1, (hrs r' hr').2⟩
    · rw [trades_append, htrades, r.trades_events, List.flatMap_cons]

theorem trades_of_refused {j : Job} {w : σ} (h : (run S j w).1.2 ≠ .ok ()) :
    trades (run S j w).2.1 = [] := by
  have hrun := executes_run S j w
  generalize run S j w = out at hrun h ⊢
  cases hrun with
  | refused => exact trades_prepare S j.queries w
  | settled => exact absurd rfl h

theorem run_trades (S : Services σ) (j : Job) (w : σ) :
    ∃ rs : List (Round σ), (∀ r ∈ rs, InRun S j w r)
      ∧ trades (run S j w).2.1 = rs.flatMap fun r =>
        .sent r.number (manifest (r.seats S j.settings)) :: r.samples S j.settings := by
  have hrun := executes_run S j w
  generalize run S j w = out at hrun ⊢
  cases hrun with
  | refused => exact ⟨[], by simp, trades_prepare S j.queries w⟩
  | settled hok hs =>
    obtain ⟨rs, hrs, htrades⟩ := hs.trades
    refine ⟨rs, fun r hr => ⟨hok, (hrs r hr).1, (hrs r hr).2⟩, ?_⟩
    rw [trades_append, trades_prepare, htrades]
    rfl

/-- A query that the cache has all that it asks for is completed before anything is sent. -/
theorem completed_of_hit {j : Job} {w : σ} {k : Nat} {key : String} {type : QueryType}
    {found : Resolution} (he : .probed k key type (some found) ∈ (run S j w).2.1)
    (hsat : found.satisfies type = true) :
    ∃ q, (prepare S 0 none j.queries w).1.1[k]? = some q ∧ q.state = .completed := by
  obtain ⟨hmem, q, q', -, hq', hprepared⟩ := prepared_of_probed he
  exact ⟨q', hq', (hprepared.whole hmem hsat).2.1⟩

/-- A query that is given a sample was sent in a round. -/
theorem sent_of_sampled {j : Job} {w : σ} {k : Nat} {server : String} {ms : UInt32}
    (h : .sampled k server ms ∈ (run S j w).2.1) :
    ∃ r, InRun S j w r ∧ k ∈ r.sent S j.settings := by
  obtain ⟨rs, hrs, htrades⟩ := run_trades S j w
  have hmem : .sampled k server ms ∈ trades (run S j w).2.1 := List.mem_filter.2 ⟨h, rfl⟩
  rw [htrades, List.mem_flatMap] at hmem
  obtain ⟨r, hr, hmem⟩ := hmem
  rcases List.mem_cons.1 hmem with heq | hmem
  · cases heq
  · obtain ⟨t, ht, hcredits⟩ := exists_of_forall₂ (hrs r hr).credits hmem
    refine ⟨r, hrs r hr, List.mem_map.2 ⟨t.1, (List.of_mem_zip ht).1, ?_⟩⟩
    cases hcredits <;> rfl

theorem unsampled_of_hit {j : Job} {w : σ} {k : Nat} {key : String} {type : QueryType}
    {found : Resolution} (he : .probed k key type (some found) ∈ (run S j w).2.1)
    (hsat : found.satisfies type = true) (server : String) (ms : UInt32) :
    .sampled k server ms ∉ (run S j w).2.1 := by
  intro hsampled
  obtain ⟨q, hq, hdone⟩ := completed_of_hit he hsat
  have hidle : q.isRunnable = false := by simp [Query.isRunnable, hdone]
  obtain ⟨r, hr, hsent⟩ := sent_of_sampled hsampled
  obtain ⟨seat, hs, hout⟩ := (r.mem_sent S j.settings).1 hsent
  have hb := (r.seats_pass S j.settings).each (hr.reached.kept hq hidle) hs
  obtain ⟨rfl, -⟩ := seat_of_not_runnable hb hidle
  cases hout

theorem run_metered (S : Services σ) (j : Job) (w : σ) (noted : List (String × UInt32)) :
    run S.metered j (noted, w) = ((run S j w).1, (run S j w).2.1,
      (noted ++ samplesTold (run S j w).2.1, (run S j w).2.2)) := by
  have hsame := run_mirrors S.accords_metered j (noted, w) w rfl
  have hnoted := run_obeys S.metered_tells j (noted, w)
  rw [hsame.events] at hnoted
  exact Prod.ext hsame.value (Prod.ext hsame.events (Prod.ext hnoted hsame.state))

/-- The servers are given the samples that a run tells of, and no others. Round for round the batch
is sent and then each exchange in it is worth one sample, in the order of the batch. A run that is
refused trades nothing, and a query that the cache answers is given no sample. -/
theorem run_credits (S : Services σ) (j : Job) (w : σ) :
    (∀ noted, run S.metered j (noted, w) = ((run S j w).1, (run S j w).2.1,
      (noted ++ samplesTold (run S j w).2.1, (run S j w).2.2)))
    ∧ (∃ rs : List (Round σ),
      (∀ r ∈ rs, InRun S j w r
        ∧ (r.traffic S j.settings).map (·.1) = manifest (r.seats S j.settings)
        ∧ List.Forall₂ (Credits S j r) (r.traffic S j.settings) (r.samples S j.settings))
      ∧ trades (run S j w).2.1 = rs.flatMap fun r =>
        .sent r.number (manifest (r.seats S j.settings)) :: r.samples S j.settings)
    ∧ ((run S j w).1.2 ≠ .ok () → trades (run S j w).2.1 = [])
    ∧ ∀ (k : Nat) (key : String) (type : QueryType) (found : Resolution),
      .probed k key type (some found) ∈ (run S j w).2.1 → found.satisfies type = true →
        ∀ server ms, .sampled k server ms ∉ (run S j w).2.1 := by
  obtain ⟨rs, hrs, htrades⟩ := run_trades S j w
  refine ⟨run_metered S j w, ⟨rs, fun r hr => ?_, htrades⟩, trades_of_refused, ?_⟩
  · exact ⟨hrs r hr, r.map_traffic S j.settings, (hrs r hr).credits⟩
  · exact fun k key type found he hsat => unsampled_of_hit he hsat

/-- The first server of a query never replies within weeks, the second one answers after ten
milliseconds; another query finds its answer in the cache. Without any server the run is refused. -/
theorem run_credits_moved :
    let known : Resolution :=
      { host := "a.com", cacheKey := "a.com", ips := [⟨"203.0.113.1", none⟩], ttl := 60 }
    let S := (Services.steady (fun key => if key = "a.com" then some known else none)
      (fun e => if e.server = "192.0.2.2" then .ok ⟨statusOk, "", 10⟩ else .error (.timeout 9))
      fun _ => some { host := "b.com", ips := ["203.0.113.2"] }).withPool
    let ask (host : String) : Request :=
      { host, accountId := "100000", queryType := .a, timeoutMs := 5000000000 }
    let j := holding ⟨1, "", "", 0⟩ [(ask "a.com", true), (ask "b.com", true)]
    let w : Pool × Unit := ({ ipv4 := [⟨"192.0.2.1", none⟩, ⟨"192.0.2.2", none⟩] }, ())
    (.probed 0 "a.com" .a (some known) ∈ (run S j w).2.1 ∧ known.satisfies .a = true
        ∧ (run S j ({}, ())).1.2 ≠ .ok ())
      ∧ run S.metered j ([], w) = ((run S j w).1, (run S j w).2.1,
        ([("192.0.2.1", 4294967295), ("192.0.2.2", 10)], (run S j w).2.2))
      ∧ (∀ server ms, .sampled 0 server ms ∉ (run S j w).2.1)
      ∧ trades (run S j ({}, ())).2.1 = [] := by
  intro known S ask j w
  have hprobed : .probed 0 "a.com" .a (some known) ∈ (run S j w).2.1 := by decide +kernel
  have hsat : known.satisfies .a = true := by decide
  have hrefused : (run S j ({}, ())).1.2 ≠ .ok () := by decide +kernel
  have htold : samplesTold (run S j w).2.1
      = [("192.0.2.1", 4294967295), ("192.0.2.2", 10)] := by decide +kernel
  obtain ⟨hmetered, -, -, hhit⟩ := run_credits S j w
  obtain ⟨-, -, hnone, -⟩ := run_credits S j ({}, ())
  refine ⟨⟨hprobed, hsat, hrefused⟩, ?_, hhit 0 _ _ _ hprobed hsat, hnone hrefused⟩
  rw [hmetered [], htold]
  rfl

end Job

end HttpDns
