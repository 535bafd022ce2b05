import HttpDns.Proofs.Settling
import HttpDns.Proofs.Unions

/-!
# The shares of a round

The answers of a round are pooled, whatever query each was meant for. A query that was answered is
completed with one result for each host of its own answers, in ascending order of hosts; the result
of a host is `pooled` from all answers of the round for that host, under the query's own key and
with the gaps filled from its partial hit (`round_shares`).
-/

namespace HttpDns

open Resolution (firstNonEmpty ofHost fold)

/-! ## Addresses -/

/-- The addresses without empty and repeated ones. -/
def distinctAddrs (addrs : List String) : Endpoints :=
  ((addrs.filter (· ≠ "")).eraseDups).map fun addr => ⟨addr, none⟩

theorem distinctAddrs_eq (addrs : List String) :
    distinctAddrs addrs = (newcomers [] addrs).map (⟨·, none⟩) := by
  rw [distinctAddrs, newcomers_nil]

theorem ofAddrs_eq (addrs : List String) : Endpoints.ofAddrs addrs = distinctAddrs addrs := by
  rw [Endpoints.ofAddrs, Endpoints.merge_eq, distinctAddrs_eq, List.nil_append]
  rfl

/-! ## Pooled answers -/

/-- The partial hit that fills the gaps of the result under a key. -/
def spare (hit : Option Resolution) (key : String) : Option Resolution :=
  match hit with
  | some p => if p.cacheKey = key then some p else none
  | none => none

/-- The result for a host from the answers for it: each family is the first one that is not empty,
or that of the partial hit; the lifetimes are the greatest, and what is told of the caller is what
the first answer tells that tells it. -/
def gather (own : List Answer) (hit : Option Resolution) (key : String) (now : Nat)
    (host : String) : Resolution where
  host := host
  cacheKey := key
  clientIp := own.findSome? (·.clientIp)
  extra := own.findSome? (·.extra)
  ips := firstNonEmpty
    (own.map (fun a => distinctAddrs a.ips) ++ ((spare hit key).map (·.ips)).toList)
  ipsv6 := firstNonEmpty
    (own.map (fun a => distinctAddrs a.ipsv6) ++ ((spare hit key).map (·.ipsv6)).toList)
  ttl := (own.map (·.ttl)).foldl max 0
  originTtl := (own.map (·.originTtl)).foldl max 0
  learnedAt := now
  hitCache := false

/-- The result for a host from all answers of a round. -/
def pooled (pool : List Answer) (hit : Option Resolution) (key : String) (now : Nat)
    (host : String) : Resolution :=
  gather (pool.filter (·.host = host)) hit key now host

theorem findSome?_of_map_eq {α β γ : Type} {f : α → Option γ} {g : β → Option γ} {l : List α}
    {m : List β} (h : l.map f = m.map g) : l.findSome? f = m.findSome? g := by
  have hid := congrArg (List.findSome? id) h
  rw [List.findSome?_map, List.findSome?_map] at hid
  exact hid

theorem foldl_max_zero (n : UInt32) (l : List UInt32) : (n :: l).foldl max 0 = l.foldl max n := by
  have hmax : max 0 n = n := if_pos (UInt32.le_iff_toNat_le.2 (Nat.zero_le _))
  rw [List.foldl_cons, hmax]

theorem firstNonEmpty_append {α : Type} (o : Option (List α)) : ∀ ls : List (List α),
    firstNonEmpty (ls ++ o.toList)
      = if (firstNonEmpty ls).isEmpty then o.getD [] else firstNonEmpty ls
  | [] => by
    cases o with
    | none => rfl
    | some l => cases l <;> rfl
  | [] :: ls => firstNonEmpty_append o ls
  | (_ :: _) :: _ => rfl

theorem fillFrom_eq (hit : Option Resolution) (r : Resolution) :
    Job.fillFrom hit r =
      { r with
        ips := if r.ips.isEmpty then ((spare hit r.cacheKey).map (·.ips)).getD [] else r.ips
        ipsv6 :=
          if r.ipsv6.isEmpty then ((spare hit r.cacheKey).map (·.ipsv6)).getD []
          else r.ipsv6 } := by
  have hself : ∀ l : Endpoints, (if l.isEmpty then [] else l) = l := by
    intro l
    cases l <;> rfl
  cases hit with
  | none => simp only [Job.fillFrom, spare, Option.map_none, Option.getD_none, hself]
  | some p =>
    by_cases h : p.cacheKey = r.cacheKey
    · have hs : spare (some p) r.cacheKey = some p := if_pos h
      rw [hs, Job.fillFrom, if_pos h.symm]
      rfl
    · have hs : spare (some p) r.cacheKey = none := if_neg h
      rw [hs, Job.fillFrom, if_neg fun he => h he.symm]
      simp only [Option.map_none, Option.getD_none, hself]

namespace Job

def Landing.answers (l : Landing) : List Answer :=
  match l.outcome with
  | .answered _ answers => answers
  | .idle | .failed _ => []

/-- The usable answers of a round, in the order of their exchanges. -/
def poolOf (ls : List Landing) : List Answer :=
  ls.flatMap Landing.answers

theorem mem_resolutions {now : Nat} {ls : List Landing} {r : Resolution}
    (hr : r ∈ ls.flatMap (Landing.resolutions now)) : ∃ a key, r = .ofAnswer a key now := by
  obtain ⟨l, -, hr⟩ := List.mem_flatMap.1 hr
  unfold Landing.resolutions at hr
  split at hr
  · obtain ⟨a, -, rfl⟩ := List.mem_map.1 hr
    exact ⟨a, _, rfl⟩
  · simp at hr
  · simp at hr

theorem map_ofHost_resolutions {β : Type} (now : Nat) (f : Resolution → β) (g : Answer → β)
    (hfg : ∀ a key, f (.ofAnswer a key now) = g a) (host : String) (ls : List Landing) :
    (ofHost host (ls.flatMap (Landing.resolutions now))).map f
      = ((poolOf ls).filter (·.host = host)).map g := by
  unfold ofHost poolOf
  rw [List.filter_flatMap, List.map_flatMap, List.filter_flatMap, List.map_flatMap]
  congr 1
  funext l
  unfold Landing.resolutions Landing.answers
  cases l.outcome with
  | idle | failed => rfl
  | answered out answers =>
    simp only []
    rw [List.filter_map, List.map_map]
    exact List.map_congr_left fun a _ => hfg a _

/-- A merge pools the answers of a round for each host, but for the key and the gaps. -/
theorem eq_pooled {now : Nat} {ls : List Landing} {r : Resolution}
    (hr : r ∈ roundResolutions now ls) :
    r = pooled (poolOf ls) none r.cacheKey now r.host := by
  have hfold := Resolution.mem_merge.1 hr
  cases hl : ofHost r.host (ls.flatMap (Landing.resolutions now)) with
  | nil =>
    rw [hl] at hfold
    cases hfold
  | cons r₀ rest =>
    have hform := Resolution.foldl_absorb rest r₀
    rw [hl] at hfold
    rw [Option.some.inj hfold] at hform
    obtain ⟨hmem, hhost⟩ := Resolution.host_of_mem_ofHost (hl ▸ List.mem_cons_self : r₀ ∈ _)
    obtain ⟨a, key, rfl⟩ := mem_resolutions hmem
    have own {β : Type} (f : Resolution → β) (g : Answer → β)
        (hfg : ∀ a key, f (.ofAnswer a key now) = g a) :
        ((poolOf ls).filter (·.host = r.host)).map g = (.ofAnswer a key now :: rest).map f := by
      rw [← map_ofHost_resolutions now f g hfg r.host ls, hl]
    have hips := own (·.ips) (fun a => distinctAddrs a.ips) fun a _ => ofAddrs_eq a.ips
    have hipsv6 := own (·.ipsv6) (fun a => distinctAddrs a.ipsv6) fun a _ => ofAddrs_eq a.ipsv6
    have httl := own (·.ttl) (·.ttl) fun _ _ => rfl
    have horigin := own (·.originTtl) (·.originTtl) fun _ _ => rfl
    have hclient := findSome?_of_map_eq (own (·.clientIp) (·.clientIp) fun _ _ => rfl)
    have hextra := findSome?_of_map_eq (own (·.extra) (·.extra) fun _ _ => rfl)
    have hkey : r.cacheKey = key := congrArg (·.cacheKey) hform
    refine hform.trans ?_
    unfold pooled gather
    rw [hips, hipsv6, httl, horigin, hclient, hextra, hkey, ← hhost]
    simp only [List.map_cons, foldl_max_zero, spare, Option.map_none, Option.toList_none,
      List.append_nil]
    rfl

/-- A query's result for a host, from all answers of a round. -/
def portion (pool : List Answer) (q : Query) (now : Nat) (host : String) : Resolution :=
  pooled pool q.partialHit (q.request.cacheKeyFor host) now host

theorem fillFrom_pooled (pool : List Answer) (hit : Option Resolution) (key key' : String)
    (now : Nat) (host : String) :
    fillFrom hit { pooled pool none key now host with cacheKey := key' }
      = pooled pool hit key' now host := by
  rw [fillFrom_eq]
  unfold pooled gather
  simp only [spare, Option.map_none, Option.toList_none, List.append_nil, firstNonEmpty_append]

/-- The hosts a query has a share of, of those that a round has answers for. -/
def shareHosts (merged : List Resolution) (answers : List Answer) : List String :=
  (merged.filter fun r => answers.any (·.host = r.host)).map (·.host)

theorem share_eq (now : Nat) (ls : List Landing) (q : Query) (answers : List Answer) :
    share (roundResolutions now ls) q answers
      = (shareHosts (roundResolutions now ls) answers).map (portion (poolOf ls) q now) := by
  unfold share shareHosts
  rw [List.map_map]
  refine List.map_congr_left fun r hr => ?_
  have heq := eq_pooled (List.mem_filter.1 hr).1
  have hfill := fillFrom_pooled (poolOf ls) q.partialHit r.cacheKey
    (q.request.cacheKeyFor r.host) now r.host
  rw [← heq] at hfill
  exact hfill

theorem shareHosts_pairwise (now : Nat) (ls : List Landing) (answers : List Answer) :
    (shareHosts (roundResolutions now ls) answers).Pairwise (· < ·) :=
  (Resolution.hosts_merge_pairwise _).sublist (List.filter_sublist.map _)

theorem mem_shareHosts {now : Nat} {ls : List Landing} {l : Landing} (hl : l ∈ ls)
    {out : Outgoing} {answers : List Answer} (ho : l.outcome = .answered out answers)
    {host : String} :
    host ∈ shareHosts (roundResolutions now ls) answers ↔ ∃ a ∈ answers, a.host = host := by
  unfold shareHosts
  constructor
  · intro h
    obtain ⟨r, hr, rfl⟩ := List.mem_map.1 h
    obtain ⟨a, ha, hhost⟩ := List.any_eq_true.1 (List.mem_filter.1 hr).2
    exact ⟨a, ha, of_decide_eq_true hhost⟩
  · rintro ⟨a, ha, rfl⟩
    obtain ⟨m, hm, hhost⟩ := (exists_mem_round hl ho ha : ∃ m ∈ roundResolutions now ls, _)
    refine List.mem_map.2 ⟨m, List.mem_filter.2 ⟨hm, List.any_eq_true.2 ⟨a, ha, ?_⟩⟩, hhost⟩
    exact decide_eq_true hhost.symm

theorem eq_singleton_of_pairwise_lt {l : List String} {x : String} (h : l.Pairwise (· < ·))
    (hx : ∀ y, y ∈ l ↔ x = y) : l = [x] := by
  cases l with
  | nil => exact absurd ((hx x).2 rfl) List.not_mem_nil
  | cons y rest =>
    obtain rfl := (hx y).1 List.mem_cons_self
    cases rest with
    | nil => rfl
    | cons z rest =>
      obtain rfl := (hx z).1 (List.mem_cons_of_mem _ List.mem_cons_self)
      exact absurd ((List.pairwise_cons.1 h).1 x List.mem_cons_self) (lt_irrefl x)

theorem length_readBody_le {σ : Type} (S : Services σ) {r : Request} (hr : r.usingMulti = false)
    (body : String) (w : σ) : (readBody S r body w).1.length ≤ 1 := by
  unfold readBody
  rw [hr]
  cases h : (S.readSingle body w).1 <;> simp [h]

theorem usingMulti_outgoing {σ : Type} {S : Services σ} {settings : JobSettings} {now : Nat}
    {q : Query} {out : Outgoing} (h : outgoing S settings now q = some out) :
    out.request.usingMulti = q.request.usingMulti := by
  unfold outgoing at h
  obtain ⟨server, -, rfl⟩ := Option.map_eq_some_iff.1 h
  rfl

theorem shareHosts_single {now : Nat} {ls : List Landing} {l : Landing} (hl : l ∈ ls)
    {out : Outgoing} {answers : List Answer} (ho : l.outcome = .answered out answers)
    (hne : answers ≠ []) (hlen : answers.length ≤ 1) :
    ∃ host, shareHosts (roundResolutions now ls) answers = [host] := by
  cases answers with
  | nil => exact absurd rfl hne
  | cons a rest =>
    have hnil : rest = [] := List.length_eq_zero_iff.1 (by simpa using hlen)
    refine ⟨a.host, eq_singleton_of_pairwise_lt (shareHosts_pairwise _ _ _) fun host => ?_⟩
    refine (mem_shareHosts hl ho).trans ?_
    rw [hnil]
    simp

/-- A query that was answered, before and after a round whose answers are pooled, with the hosts it
has results for. -/
structure Shared (pool : List Answer) (now : Nat) (answers : List Answer) (q q' : Query)
    (hosts : List String) : Prop where
  completed : q'.state = .completed
  ascending : hosts.Pairwise (· < ·)
  own : ∀ host, host ∈ hosts ↔ ∃ a ∈ answers, a.host = host
  single : q.request.usingMulti = false → ∃ host, hosts = [host]
  results_eq : q'.results = hosts.map (portion pool q now)

section

variable {σ : Type} {S : Services σ} {settings : JobSettings} {rs : List (Request × Bool)}
  {j : Job} {es : List Event} {w : σ} {r : Round σ}

theorem InRun.results_nil (hr : InRun S j w r) (life : Life S settings rs j es w) {k : Nat}
    {q : Query} (hq : r.queries[k]? = some q) (hpend : q.state = .pending) : q.results = [] := by
  obtain ⟨fs, hreach⟩ := hr.reached.passes
  have hpass := (life.sound.comp (prepare_progress S 0 none j.queries w)).comp hreach
  obtain ⟨ra, hra⟩ := hpass.get_before hq
  obtain ⟨q₂, es₁, es₂, ⟨q₁, es₃, es₄, hs, hp, rfl⟩, hp', -⟩ := hpass.each hra hq
  exact (((hs.progress hp).progress hp').pending hpend).1

/-- In every round of every run, a query whose own exchange was answered is completed for good with
one result for each host of its own answers, made from all answers of the round. -/
theorem round_shares (life : Life S settings rs j es w) (hr : InRun S j w r) {k : Nat}
    {l : Landing} (hl : (r.landings S j.settings)[k]? = some l) {out : Outgoing}
    {answers : List Answer} (ho : l.outcome = .answered out answers) :
    (∃ response w', ((k, out.exchange), .ok response) ∈ r.traffic S j.settings
        ∧ response.isOk = true
        ∧ answers = (readBody S out.request response.body w').1.filter (!·.isEmpty))
      ∧ ∃ q q' hosts, r.queries[k]? = some q
        ∧ (r.after S j.settings)[k]? = some q' ∧ (run S j w).1.1.queries[k]? = some q'
        ∧ Shared (poolOf (r.landings S j.settings)) (r.instant S j.settings) answers q q'
          hosts := by
  obtain ⟨seat, hs⟩ := (r.landings_pass S j.settings).get_before hl
  obtain ⟨q, hq⟩ := (r.seats_pass S j.settings).get_before hs
  have hb := (r.seats_pass S j.settings).each hq hs
  have hret := (r.landings_pass S j.settings).each hs hl
  rw [Nat.zero_add] at hb hret
  obtain ⟨hrun, hquery, hsent, hne, response, w', htraffic, hok, hanswers⟩ :=
    answered_cases hb hret ho
  obtain ⟨server, attempts, failed, hc⟩ := hb.carry_eq
  have hpend := (Query.isRunnable_iff.1 hrun).1
  have hmem := List.mem_of_getElem? hl
  have hnone := hr.results_nil life hq hpend
  have hresults : l.query.results = [] := by
    rw [hquery, hc]
    exact hnone
  have hafter : (r.after S j.settings)[k]? = some (l.after (r.merged S j.settings)) := by
    rw [r.after_eq S j.settings, List.getElem?_map, hl]
    rfl
  have hstate : (l.after (r.merged S j.settings)).state = .completed := by
    rw [Landing.after_of_answered ho]
    rfl
  refine ⟨⟨response, w', htraffic, hok, hanswers⟩, q, _,
    shareHosts (r.merged S j.settings) answers, hq, hafter,
    hr.kept hafter (by rw [hstate]; decide), hstate, shareHosts_pairwise _ _ _,
    fun host => mem_shareHosts hmem ho, fun hsingle => ?_, ?_⟩
  · refine shareHosts_single hmem ho hne ?_
    rw [hanswers]
    refine (List.length_filter_le _ _).trans (length_readBody_le S ?_ _ _)
    rw [usingMulti_outgoing hsent, hc]
    exact hsingle
  · rw [Landing.after_of_answered ho]
    simp only [Query.complete, hresults, List.nil_append]
    refine (share_eq _ _ l.query answers).trans ?_
    rw [hquery, hc]
    rfl

end

/-- Two lookups of one host in one round, one for each family: each gets both of them. -/
theorem round_shares_pair :
    let v4 : Answer := { host := "a.com", ips := ["192.0.2.1", "", "192.0.2.1"], ttl := 60 }
    let v6 : Answer := { host := "a.com", ipsv6 := ["2001:db8::1"], ttl := 120 }
    let S := Services.steady (fun _ => none) (fun e => .ok ⟨statusOk, e.server, 10⟩) fun body =>
      if body = "r4" then some v4 else some { v6 with host := "" }
    let settings : JobSettings := ⟨2, "", "", 0⟩
    let ask (server : String) (type : QueryType) : Request :=
      { host := "a.com", accountId := "1", resolver := some server, queryType := type }
    let query (server : String) (type : QueryType) : Query :=
      .ofRequest (ask server type) true settings.attempts
    let j : Job := ⟨settings, [query "r4" .a, query "r6" .aaaa]⟩
    let merged : Resolution :=
      { host := "a.com", cacheKey := "a.com", ips := [⟨"192.0.2.1", none⟩]
        ipsv6 := [⟨"2001:db8::1", none⟩], ttl := 120 }
    Life S settings [(ask "r4" .a, true), (ask "r6" .aaaa, true)] j [] ()
      ∧ InRun S j () (firstRound S j ())
      ∧ ∃ q q' hosts, (run S j ()).1.1.queries[0]? = some q' ∧ Shared [v4, v6] 0 [v4] q q' hosts
        ∧ q'.results = [merged] := by
  intro v4 v6 S settings ask query j merged
  have one : Life S settings [(ask "r4" .a, true)] ⟨settings, [query "r4" .a]⟩ [] () :=
    (Life.made ()).queued (add_ok _ true (by decide))
  have life : Life S settings [(ask "r4" .a, true), (ask "r6" .aaaa, true)] j [] () :=
    one.queued (add_ok _ true (by decide))
  have hr : InRun S j () (firstRound S j ()) := ⟨by rfl, .refl _, fun h => by cases h⟩
  obtain ⟨-, q, q', hosts, -, -, hq', hs⟩ :=
    round_shares life hr (k := 0) (l := ⟨0, _, .answered _ [v4]⟩) rfl rfl
  refine ⟨life, hr, q, q', hosts, hq', hs, ?_⟩
  have hrun : (run S j ()).1.1.queries[0]?.map (·.results) = some [merged] := by decide +kernel
  rw [hq'] at hrun
  exact Option.some.inj hrun

end Job

end HttpDns
