import HttpDns.Proofs.Records
import HttpDns.Proofs.Share

/-!
# One lookup over a record service

A record service answers every exchange of a client with what fixed records tell of the host, for
the type that is sent. A job of one query over it needs one round: the query is completed in it if
its host owns a family of the type that is sent, and no later round will answer it if not
(`lone_answered`, `lone_unanswered`). Whatever is cached on the way is owned by the host
(`lone_fit`).
-/

namespace HttpDns

variable {σ : Type}

namespace Client

/-- What is sent for a host of a client to a server. -/
def outgoingFor (c : Client) (signer : Signer) (host : String) (type : QueryType)
    (server : String) (now : Nat) : Job.Outgoing :=
  let r := { c.request host type with resolver := some server }
  { request := r
    exchange :=
      { url := Url.resolve (c.job.settings.sender signer) r server type now
        server
        timeoutMs := r.timeoutMs } }

/-- Every exchange of a client is answered from fixed records. -/
def Serves (S : Services σ) (c : Client) (R : Records) : Prop :=
  ∀ host type server now w, ∃ body rtt a,
    (S.sendAll [(c.outgoingFor S.signer host type server now).exchange] w).1.1
        = [.ok ⟨statusOk, body, rtt⟩]
      ∧ (∀ w', (S.readSingle body w').1 = some a) ∧ R.Answers host type a

/-- A pending query of a client that asks for a host, with a server to be sent to. -/
structure Asking (c : Client) (R : Records) (host : String) (type : QueryType) (q : Query) :
    Prop where
  state_eq : q.state = .pending
  results_eq : q.results = []
  queryType_eq : q.queryType = type
  request_eq : ∃ server t, q.request = { c.request host t with resolver := some server }
  hit : ∀ p, q.partialHit = some p → R.Backs host p

end Client

open Client

namespace Records

variable {R : Records} {host : String} {type : QueryType}

theorem Answers.isEmpty_iff {a : Answer} (h : R.Answers host type a) :
    a.isEmpty = true ↔ ¬ R.Owns host type := by
  unfold Answer.isEmpty Owns
  rw [h.ips_eq, h.ipsv6_eq]
  cases type.wantsIpv4 <;> cases type.wantsIpv6 <;> simp

theorem Answers.named {a : Answer} (h : R.Answers host type a) :
    (if a.host = "" then { a with host } else a).host = host
      ∧ R.Answers host type (if a.host = "" then { a with host } else a) := by
  split
  · exact ⟨rfl, .inl rfl, h.ips_eq, h.ipsv6_eq⟩
  · rename_i hne
    have hhost : a.host = host := h.host_eq.resolve_right hne
    exact ⟨hhost, h⟩

end Records

namespace Client.Asking

variable {S : Services σ} {c : Client} {R : Records} {host : String} {type : QueryType}
  {q : Query}

theorem carry (hq : Asking c R host type q) (server : String)
    (attempts : Nat) (failed : Option String) :
    Asking c R host type (q.carry (some server) attempts failed) where
  state_eq := hq.state_eq
  results_eq := hq.results_eq
  queryType_eq := hq.queryType_eq
  request_eq := by
    obtain ⟨server', t, hreq⟩ := hq.request_eq
    exact ⟨server, t, by rw [Query.request_carry, hreq]⟩
  hit := hq.hit

theorem carry_same (hq : Asking c R host type q) (attempts : Nat)
    (failed : Option String) :
    Asking c R host type (q.carry q.request.resolver attempts failed) := by
  obtain ⟨server, t, hreq⟩ := hq.request_eq
  have hres : q.request.resolver = some server := by rw [hreq]
  rw [hres]
  exact hq.carry server attempts failed

theorem outgoing_eq (hq : Asking c R host type q) (now : Nat) :
    ∃ server, Job.outgoing S c.job.settings now q
      = some (c.outgoingFor S.signer host type server now) := by
  obtain ⟨server, t, hreq⟩ := hq.request_eq
  refine ⟨server, ?_⟩
  unfold Job.outgoing
  rw [hreq, hq.queryType_eq]
  rfl

end Client.Asking

namespace Job

variable {S : Services σ} {c : Client} {R : Records} {host : String} {type : QueryType}

theorem readBody_of_single {r : Request} (hr : r.usingMulti = false) {body : String} {w : σ}
    {a : Answer} (ha : (S.readSingle body w).1 = some a) :
    (readBody S r body w).1 = [if a.host = "" then { a with host := r.host } else a] := by
  unfold readBody
  rw [hr]
  simp [ha]

theorem Boarded.asking {settings : JobSettings} {now round i : Nat} {q : Query} {seat : Seat}
    {es : List Event} (h : Boarded S settings now round i q seat es)
    (hq : Asking c R host type q) : Asking c R host type seat.query := by
  cases h with
  | passed => exact hq
  | kept => exact hq.carry_same _ _
  | stranded => exact hq.carry_same _ _
  | moved _ _ e => exact hq.carry e.addr _ _

theorem Round.isSent_iff_of_single {r : Round σ} {settings : JobSettings} {seat : Seat}
    (h : r.seats S settings = [seat]) : r.isSent S settings ↔ seat.out ≠ none := by
  unfold Round.isSent
  rw [h]
  cases ho : seat.out with
  | none => simp [manifest, ho]
  | some out => simp [manifest_cons_some [] ho]

/-- What a round brings a lone query over a record service. -/
inductive LoneRound (S : Services σ) (c : Client) (R : Records) (host : String)
    (type : QueryType) (r : Round σ) : Prop
  | ended (h : ¬ r.isSent S c.job.settings) {q : Query}
      (hs : (r.seats S c.job.settings).map (·.query) = [q]) (hq : Asking c R host type q)
  | answered (h : r.isSent S c.job.settings) (howns : R.Owns host type) {l : Landing}
      (hl : r.landings S c.job.settings = [l]) {out : Outgoing} {a : Answer}
      (ho : l.outcome = .answered out [a]) (hq : Asking c R host type l.query)
      (hhost : a.host = host) (ha : R.Answers host type a)
  | failed (h : r.isSent S c.job.settings) (howns : ¬ R.Owns host type) {l : Landing}
      (hl : r.landings S c.job.settings = [l])
      (ho : ∀ out answers, l.outcome ≠ .answered out answers) (hq : Asking c R host type l.query)

/-- A reply whose body holds one answer brings that answer, unless it has no address. -/
theorem Landed.of_single {i : Nat} {q : Query} {out : Outgoing} {body : String} {rtt : UInt32}
    {a : Answer} {l : Landing} {es : List Event}
    (h : Landed S i q out (.ok ⟨statusOk, body, rtt⟩) l es)
    (hbody : ∀ w, (readBody S out.request body w).1 = [a]) :
    a.isEmpty = false ∧ l.query = q ∧ l.outcome = .answered out [a]
      ∨ a.isEmpty = true ∧ l.query = q.carry q.request.resolver q.attemptsLeft
          (some out.exchange.server) ∧ l.outcome = .failed out := by
  cases h with
  | answered hr _ w hne =>
    cases hr
    rw [hbody] at hne ⊢
    cases hempty : a.isEmpty with
    | true => simp [hempty] at hne
    | false =>
      have hfilter : [a].filter (!·.isEmpty) = [a] := by simp [hempty]
      rw [hfilter]
      exact .inl ⟨rfl, rfl, rfl⟩
  | failed hfail =>
    obtain ⟨w, hw⟩ := hfail _ rfl rfl
    rw [hbody] at hw
    cases hempty : a.isEmpty with
    | true => exact .inr ⟨rfl, rfl, rfl⟩
    | false => simp [hempty] at hw

/-- What is sent for a lone query is replied to from the records. -/
theorem traffic_of_single (hS : Serves S c R) {r : Round σ} {seat : Seat}
    (hseats : r.seats S c.job.settings = [seat]) {server : String}
    (ho : seat.out = some (c.outgoingFor S.signer host type server (S.seconds r.world))) :
    ∃ body rtt a, r.traffic S c.job.settings
        = [((seat.index, (c.outgoingFor S.signer host type server (S.seconds r.world)).exchange),
          .ok ⟨statusOk, body, rtt⟩)]
      ∧ (∀ w, (S.readSingle body w).1 = some a) ∧ R.Answers host type a := by
  obtain ⟨body, rtt, a, hreply, hread, ha⟩ := hS host type server (S.seconds r.world)
    (r.launched S c.job.settings).2.2
  have hmanifest := manifest_cons_some [] ho
  have hreplies : r.replies S c.job.settings = [.ok ⟨statusOk, body, rtt⟩] := by
    unfold Round.replies Round.exchanged exchange batchOf
    rw [hseats, hmanifest]
    exact hreply
  refine ⟨body, rtt, a, ?_, hread, ha⟩
  rw [Round.traffic, hseats, hmanifest, hreplies]
  rfl

theorem lone_round (hS : Serves S c R) {r : Round σ} {q : Query} (hr : r.queries = [q])
    (hq : Asking c R host type q) : LoneRound S c R host type r := by
  have hpass := r.seats_pass S c.job.settings
  rw [hr] at hpass
  obtain ⟨seat, hseats, hb⟩ := hpass.singleton
  have hland := r.landings_pass S c.job.settings
  rw [hseats] at hland
  obtain ⟨l, hl, hret⟩ := hland.singleton
  have hseat := hb.asking hq
  generalize about 0 _ = gs at hret
  cases hret with
  | idle ho =>
    exact .ended (fun h => (Round.isSent_iff_of_single hseats).1 h ho) (q := seat.query)
      (by rw [hseats]; rfl) hseat
  | @landed out ho reply htraffic _ _ hlanded =>
    obtain ⟨server, hout⟩ := hseat.outgoing_eq (S := S) (S.seconds r.world)
    obtain rfl := Option.some.inj ((hb.of_out ho).2.symm.trans hout)
    have hsent : r.isSent S c.job.settings :=
      (Round.isSent_iff_of_single hseats).2 (by rw [ho]; exact Option.some_ne_none _)
    obtain ⟨body, rtt, a, hsingle, hread, ha⟩ := traffic_of_single hS hseats ho
    rw [hsingle] at htraffic
    obtain rfl : reply = .ok ⟨statusOk, body, rtt⟩ :=
      congrArg (·.2) (List.mem_singleton.1 htraffic)
    obtain ⟨hhost, hnamed⟩ := ha.named
    have hbody : ∀ w, (readBody S (c.outgoingFor S.signer host type server
        (S.seconds r.world)).request body w).1
          = [if a.host = "" then { a with host } else a] := fun w =>
      readBody_of_single rfl (hread w)
    rcases hlanded.of_single hbody with
      ⟨hempty, hquery, houtcome⟩ | ⟨hempty, hquery, houtcome⟩
    · have howns : R.Owns host type := by
        by_contra hnot
        rw [hnamed.isEmpty_iff.2 hnot] at hempty
        cases hempty
      exact .answered hsent howns hl houtcome (hquery ▸ hseat) hhost hnamed
    · refine .failed hsent (hnamed.isEmpty_iff.1 hempty) hl ?_ (hquery ▸ hseat.carry_same _ _)
      intro out answers ho'
      rw [houtcome] at ho'
      cases ho'

/-! ## What is cached -/

/-- A family that is gathered comes from the answer or from the partial hit. -/
theorem ne_nil_of_gathered {addrs : List String} {hit : Option Resolution} {key : String}
    {family : Resolution → Endpoints}
    (h : Resolution.firstNonEmpty
      ([distinctAddrs addrs] ++ ((spare hit key).map family).toList) ≠ []) :
    addrs ≠ [] ∨ ∃ p, hit = some p ∧ family p ≠ [] := by
  rcases List.mem_append.1 (Resolution.firstNonEmpty_mem h) with hl | hl
  · refine .inl fun hnil => h ?_
    rw [List.mem_singleton.1 hl, hnil]
    rfl
  · obtain ⟨p, hp, heq⟩ := Option.map_eq_some_iff.1 (Option.mem_toList.1 hl)
    refine .inr ⟨p, ?_, heq ▸ h⟩
    unfold spare at hp
    split at hp
    · split at hp
      · exact hp
      · cases hp
    · cases hp

theorem backs_share {now : Nat} {l : Landing} {out : Outgoing} {a : Answer}
    (ho : l.outcome = .answered out [a]) (hq : Asking c R host type l.query)
    (hhost : a.host = host) (ha : R.Answers host type a) :
    ∀ r ∈ share (roundResolutions now [l]) l.query [a], R.Backs r.cacheKey r := by
  intro r hr
  rw [share_eq] at hr
  obtain ⟨h, hh, rfl⟩ := List.mem_map.1 hr
  obtain ⟨a', ha', hhost'⟩ := (mem_shareHosts List.mem_cons_self ho).1 hh
  obtain rfl := List.mem_singleton.1 ha'
  obtain rfl : h = host := hhost'.symm.trans hhost
  have hpool : (poolOf [l]).filter (·.host = h) = [a'] := by
    simp [poolOf, Landing.answers, ho, hhost]
  have hkey : l.query.request.cacheKeyFor h = h := by
    obtain ⟨server, t, hreq⟩ := hq.request_eq
    rw [hreq]
    rfl
  unfold portion pooled gather
  rw [hpool, hkey]
  constructor
  · intro hne
    rcases ne_nil_of_gathered hne with hips | ⟨p, hp, hips⟩
    · intro hnil
      rw [ha.ips_eq, hnil] at hips
      simp at hips
    · exact (hq.hit p hp).1 hips
  · intro hne
    rcases ne_nil_of_gathered hne with hips | ⟨p, hp, hips⟩
    · intro hnil
      rw [ha.ipsv6_eq, hnil] at hips
      simp at hips
    · exact (hq.hit p hp).2 hips

/-! ## Round after round -/

/-- A lone query in its rounds: on its way, or done with. -/
def Lone (c : Client) (R : Records) (host : String) (type : QueryType) (q : Query) : Prop :=
  Asking c R host type q ∨ q.isRunnable = false

theorem Round.after_lone {r : Round σ} {settings : JobSettings} {l : Landing}
    (hl : r.landings S settings = [l]) :
    r.after S settings = [l.after (roundResolutions (r.instant S settings) [l])] := by
  rw [r.after_eq S settings, Round.merged, hl]
  rfl

/-- A lone query whose host owns nothing of the type that is sent is never answered. -/
theorem lone_unanswered (hS : Serves S c R) (howns : ¬ R.Owns host type) {r : Round σ}
    {qs : List Query} {es : List Event} {w : σ} (h : Settles S c.job.settings r qs es w)
    {q : Query} (hr : r.queries = [q]) (hq : Asking c R host type q) :
    ∃ q', qs = [q'] ∧ Asking c R host type q' := by
  induction h generalizing q with
  | ended hend =>
    cases lone_round hS hr hq with
    | ended _ hs hq' => exact ⟨_, hs, hq'⟩
    | answered hsent | failed hsent => exact absurd hsent hend
  | again hsent _ ih =>
    cases lone_round hS hr hq with
    | ended hend => exact absurd hsent hend
    | answered _ hown => exact absurd hown howns
    | failed _ _ hl ho hq' =>
      refine ih ((Round.after_lone hl).trans (congrArg (fun q => [q]) ?_)) hq'
      exact Landing.after_of_not_answered ho

theorem isSent_of_first {r : Round σ} {q : Query} (hr : r.queries = [q]) (hn : r.number = 0)
    (hq : Asking c R host type q) (ha : 0 < q.attemptsLeft) : r.isSent S c.job.settings := by
  have hpass := r.seats_pass S c.job.settings
  rw [hr] at hpass
  obtain ⟨seat, hseats, hb⟩ := hpass.singleton
  have hrun : q.isRunnable = true := Query.isRunnable_iff.2 ⟨hq.state_eq, ha⟩
  have hseat := hb.asking hq
  obtain ⟨server, hout⟩ := hseat.outgoing_eq (S := S) (S.seconds r.world)
  have hfirst : failedBefore r.number q = none := by
    rw [hn]
    rfl
  refine (Round.isSent_iff_of_single hseats).2 fun ho => ?_
  generalize about 0 _ = gs at hb
  cases hb with
  | passed h => exact absurd (hrun.symm.trans h) (by decide)
  | kept => exact absurd (hout.symm.trans ho) (Option.some_ne_none _)
  | stranded _ hf | moved _ hf => exact absurd (hfirst.symm.trans hf) (by simp)

/-- A lone query whose host owns something of the type that is sent is answered at once. -/
theorem lone_answered (hS : Serves S c R) (howns : R.Owns host type) {r : Round σ}
    {qs : List Query} {es : List Event} {w : σ} (h : Settles S c.job.settings r qs es w)
    {q : Query} (hr : r.queries = [q]) (hn : r.number = 0) (hq : Asking c R host type q)
    (ha : 0 < q.attemptsLeft) :
    ∃ q', qs[0]? = some q' ∧ q'.state = .completed ∧ q'.results ≠ [] := by
  have hsent : r.isSent S c.job.settings := isSent_of_first hr hn hq ha
  cases h with
  | ended hend => exact absurd hsent hend
  | again _ rest =>
    cases lone_round hS hr hq with
    | ended hend => exact absurd hsent hend
    | failed _ hnot => exact absurd howns hnot
    | @answered _ _ l hl out a ho =>
      have hne : share (roundResolutions (r.instant S c.job.settings) [l]) l.query [a] ≠ [] :=
        share_ne_nil List.mem_cons_self ho (List.cons_ne_nil _ _) _
      have hget : (r.next S c.job.settings).queries[0]?
          = some ({ l.query with partialHit := none }.complete
            (share (roundResolutions (r.instant S c.job.settings) [l]) l.query [a])) := by
        unfold Round.next
        rw [Round.after_lone hl, Landing.after_of_answered ho]
        rfl
      exact ⟨_, rest.kept hget rfl, rfl, by simp [Query.complete, hne]⟩

theorem lone_step (hS : Serves S c R) {r : Round σ} (hsent : r.isSent S c.job.settings)
    {q : Query} (hr : r.queries = [q]) (hq : Lone c R host type q) :
    StoresFit (fun x => R.Backs x.cacheKey x) (r.events S c.job.settings)
      ∧ ∃ q', r.after S c.job.settings = [q'] ∧ Lone c R host type q' := by
  rcases hq with hq | hq
  · cases lone_round hS hr hq with
    | ended hend => exact absurd hsent hend
    | @answered _ _ l hl out a ho hq' hhost ha =>
      refine ⟨Round.storesFit fun l' hl' out' answers ho' => ?_, _, Round.after_lone hl, .inr ?_⟩
      · rw [hl] at hl'
        obtain rfl := List.mem_singleton.1 hl'
        rw [ho] at ho'
        cases ho'
        rw [Round.merged, hl]
        exact backs_share ho hq' hhost ha
      · rw [Landing.after_of_answered ho]
        rfl
    | failed _ _ hl ho hq' =>
      refine ⟨Round.storesFit fun l' hl' out' answers ho' => ?_, _, Round.after_lone hl, .inl ?_⟩
      · rw [hl] at hl'
        obtain rfl := List.mem_singleton.1 hl'
        exact absurd ho' (ho _ _)
      · rw [Landing.after_of_not_answered ho]
        exact hq'
  · obtain ⟨-, -, -, hend⟩ := Round.launched_of_not_runnable S c.job.settings fun q' hq' => by
      rw [hr] at hq'
      rwa [List.mem_singleton.1 hq']
    exact absurd hsent hend

/-- The host of a lone query owns whatever is cached in its rounds. -/
theorem lone_fit (hS : Serves S c R) {r : Round σ} {qs : List Query} {es : List Event} {w : σ}
    (h : Settles S c.job.settings r qs es w) {q : Query} (hr : r.queries = [q])
    (hq : Lone c R host type q) : StoresFit (fun x => R.Backs x.cacheKey x) es := by
  induction h generalizing q with
  | @ended r hend =>
    exact storesFit_of_passes (r.seats_pass S c.job.settings) fun _ _ _ _ hb => hb.storesFit
  | again hsent _ ih =>
    obtain ⟨hfit, q', hafter, hq'⟩ := lone_step hS hsent hr hq
    exact storesFit_append.2 ⟨hfit, ih hafter hq'⟩

end Job

end HttpDns
