import HttpDns.Proofs.BatchRequests
import HttpDns.Proofs.Origins
import HttpDns.Proofs.Transparency

/-!
# The answers for many hosts

A query that does not ask the cache is completed by the one exchange of it that is answered, with
one result for each host of the answers to it, or it is exhausted and has no results (`run_ends`).
A batched query never asks the cache. So a lookup of many hosts has, in ascending order, the hosts
of the answers to its batches, whichever rounds they are answered in; a batch that is exhausted
neither adds a host nor takes one away (`resolveBatch_gathers`).
-/

namespace HttpDns

namespace Job

/-! ## How a query ends -/

variable {σ : Type} {S : Services σ} {j : Job} {w : σ} {k : Nat} {q q' : Query}

/-- The query is answered in one round of a run and in no other one, and its results are for the
hosts of the answers to it. -/
structure AnsweredIn (S : Services σ) (j : Job) (w : σ) (k : Nat) (q' : Query) (r : Round σ) :
    Prop where
  inRun : InRun S j w r
  given : ∃ a, r.Gives S j.settings k a
  once : ∀ {r' a}, InRun S j w r' → r'.Gives S j.settings k a → r' = r
  hosts : ∀ host, host ∈ q'.results.map (·.host) ↔ ∃ a, r.Gives S j.settings k a ∧ a.host = host

/-- How a query ends that does not ask the cache. -/
inductive Ends (S : Services σ) (j : Job) (w : σ) (k : Nat) (q' : Query) : Prop
  | completed (state : q'.state = .completed) (r : Round σ) (h : AnsweredIn S j w k q' r)
  | exhausted (state : q'.state = .exhausted) (results : q'.results = [])
      (unanswered : ∀ {r a}, InRun S j w r → ¬ r.Gives S j.settings k a)

theorem Prepared.still {i : Nat} {es : List Event} (h : Prepared i q q' es)
    (hpend : q.state = .pending) (hprobe : q.usesProbe = false) :
    q'.state = .pending ∧ q'.results = q.results := by
  cases h with
  | passed => exact ⟨hpend, rfl⟩
  | @readied _ q₁ q₂ _ _ _ served typed probed =>
    have hreadies := served.readies typed
    cases probed with
    | skipped =>
      exact ⟨hreadies.state.trans hpend, hreadies.results⟩
    | missed h | whole h | half h =>
      rw [hreadies.usesProbe, hprobe] at h
      cases h

theorem run_ends (hok : (run S j w).1.2 = .ok ()) (hq : j.queries[k]? = some q)
    (hpend : q.state = .pending) (hnil : q.results = []) (hprobe : q.usesProbe = false)
    (hq' : (run S j w).1.1.queries[k]? = some q') : Ends S j w k q' := by
  have hp := prepare_passes S 0 none j.queries w
  obtain ⟨q₁, hq₁⟩ := hp.get_after hq
  have hprepared := hp.each hq hq₁
  have hexec := executes_run S j w
  generalize run S j w = out at hexec hq' hok
  cases hexec with
  | refused => cases hok
  | @settled hready qs es _ hs =>
    obtain ⟨hstill, hnone⟩ : q₁.state = .pending ∧ q₁.results = [] := by
      rcases hprepared with h | ⟨hfalse, -⟩
      · obtain ⟨hstate, hresults⟩ := h.still hpend hprobe
        exact ⟨hstate, hresults.trans hnil⟩
      · rw [hready] at hfalse
        cases hfalse
    rw [List.getElem?_map] at hq'
    obtain ⟨q₂, hq₂, rfl⟩ := Option.map_eq_some_iff.1 hq'
    cases hs.fares hq₁ hq₂ with
    | carried server attempts failed hquery hunanswered =>
      have hstate : q₂.state = .pending := by rw [hquery, Query.state_carry, hstill]
      refine .exhausted ?_ ?_ fun hr => hunanswered _ hr.reached hr.sent _
      · rw [Query.sweep, if_pos hstate]
      · rw [Query.results_sweep, hquery, Query.results_carry, hnone]
    | @answered r reach sent server attempts failed hquery hosts h =>
      have hr : InRun S j w r := ⟨hready, reach, sent⟩
      have hresults : q₂.results.map (·.host) = hosts := by
        rw [h.results, Query.results_carry, hnone, List.nil_append, List.map_map]
        exact List.map_id hosts
      have hgiven : ∃ a, r.Gives S j.settings k a := by
        cases hs.passes.each hq₁ hq₂ with
        | still hstate =>
          rw [h.state, hstill] at hstate
          cases hstate
        | done _ _ hne hanswers =>
          rw [hanswers, hnone, List.nil_append] at hresults
          obtain ⟨x, hx⟩ := List.exists_mem_of_ne_nil _ hne
          have hhost : x.host ∈ hosts := hresults ▸ List.mem_map_of_mem hx
          exact ((h.own x.host).1 hhost).imp fun _ => And.left
      rw [Query.sweep_of_completed h.state]
      refine .completed h.state r ⟨hr, hgiven, fun hr' hgives => ?_, fun host => ?_⟩
      · obtain ⟨a, ha⟩ := hgiven
        rcases hr.reached.total hr'.reached with hreach | hreach
        · exact (hreach.eq_of_gives ha hgives).symm
        · exact hreach.eq_of_gives hgives ha
      · rw [hresults]
        exact h.own host

end Job

namespace Client

open Job

variable {τ : Type} {S : Services τ} {c : Client}

/-! ## Batched queries -/

/-- What a lookup of many hosts has, with the job that is run for it and the state that it is run
in: the merged results of the batches that are completed. -/
structure Gathers (S : Services τ) (j : Job) (w : State τ) (results : List Resolution) :
    Prop where
  ends : ∀ {k q}, (run S j w).1.1.queries[k]? = some q → Ends (services S) j w k q
  merged : results = Resolution.merge
    (((run S j w).1.1.queries.filter (·.state = .completed)).flatMap (·.results))
  ascending : (results.map (·.host)).Pairwise (· < ·)
  hosts : ∀ host, host ∈ results.map (·.host) ↔ ∃ k q r,
    (run S j w).1.1.queries[k]? = some q ∧ q.state = .completed ∧ InRun (services S) j w r
      ∧ ∃ a, r.Gives (services S) j.settings k a ∧ a.host = host
  families : ∀ q ∈ (run S j w).1.1.queries, q.state = .completed → ∀ x ∈ q.results,
    ∀ y ∈ results, y.host = x.host →
      (x.ips ≠ [] → y.ips ≠ []) ∧ (x.ipsv6 ≠ [] → y.ipsv6 ≠ [])

theorem usingMulti_batchRequests {hosts : List String} {q : QueryType} :
    ∀ ask ∈ c.batchRequests hosts q, ask.usingMulti = true := by
  intro ask hask
  obtain ⟨chunk, -, rfl⟩ := List.mem_map.1 (List.mem_filter.1 hask).1
  rfl

/-- A batched query that has just been queued is pending and does not ask the cache. -/
theorem batched_of_addAll {hosts : List String} {q : QueryType} {j : Job}
    (hadd : addAll c.job (c.batchRequests hosts q) = .ok j) :
    j.queries.map (·.request) = c.batchRequests hosts q
      ∧ ∀ query ∈ j.queries, query.state = .pending ∧ query.results = []
        ∧ query.usesProbe = false := by
  have hqueries : j.queries = (c.batchRequests hosts q).map fun ask =>
      .ofRequest ask false c.job.settings.attempts := by
    rw [addAll_eq_ok hadd]
    rfl
  rw [hqueries]
  refine ⟨?_, fun query hquery => ?_⟩
  · rw [List.map_map]
    exact List.map_id _
  · obtain ⟨ask, hask, rfl⟩ := List.mem_map.1 hquery
    refine ⟨rfl, rfl, ?_⟩
    have husing := usingMulti_batchRequests ask hask
    simp [Query.usesProbe, Query.ofRequest, husing]

theorem length_run (S : Services τ) (j : Job) (w : State τ) :
    (run S j w).1.1.queries.length = j.queries.length := by
  obtain ⟨qs, hpass, -, ⟨-, hqs⟩ | ⟨-, hqs⟩⟩ := run_passes (services S) j w
  · exact (congrArg List.length hqs).trans ((List.length_map _).trans hpass.length_eq)
  · exact (congrArg List.length hqs).trans hpass.length_eq

theorem flatMap_filter_of_nil {α β : Type} {p : α → Bool} {f : α → List β} : ∀ {l : List α},
    (∀ x ∈ l, p x = false → f x = []) → (l.filter p).flatMap f = l.flatMap f
  | [], _ => rfl
  | x :: l, h => by
    have hrest := flatMap_filter_of_nil fun y hy => h y (List.mem_cons_of_mem x hy)
    cases hx : p x with
    | true => rw [List.filter_cons_of_pos hx, List.flatMap_cons, List.flatMap_cons, hrest]
    | false =>
      rw [List.filter_cons_of_neg (by simp [hx]), List.flatMap_cons, hrest,
        h x List.mem_cons_self hx, List.nil_append]

/-- A query that is not completed adds nothing to the results. -/
theorem flatMap_completed {j : Job} {w : State τ}
    (hends : ∀ {k q}, (run S j w).1.1.queries[k]? = some q → Ends (services S) j w k q) :
    ((run S j w).1.1.queries.filter (·.state = .completed)).flatMap (·.results)
      = (run S j w).1.1.queries.flatMap (·.results) := by
  refine flatMap_filter_of_nil fun q hq hnot => ?_
  obtain ⟨k, hk⟩ := List.getElem?_of_mem hq
  cases hends hk with
  | completed state => exact absurd state (of_decide_eq_false hnot)
  | exhausted _ results => exact results

/-- What the run of batched queries comes to where it does not fail. -/
theorem gathers_of_run {j : Job} {w : State τ} (hok : (run S j w).1.2 = .ok ())
    (hbatched : ∀ query ∈ j.queries, query.state = .pending ∧ query.results = []
      ∧ query.usesProbe = false) :
    Gathers S j w (Resolution.merge ((run S j w).1.1.queries.flatMap (·.results))) := by
  have hends : ∀ {k q}, (run S j w).1.1.queries[k]? = some q → Ends (services S) j w k q := by
    intro k q' hq'
    have hk : k < j.queries.length := length_run S j w ▸ (List.getElem?_eq_some_iff.1 hq').1
    obtain ⟨hpend, hnil, hprobe⟩ := hbatched _ (List.getElem_mem hk)
    exact run_ends hok (List.getElem?_eq_getElem hk) hpend hnil hprobe hq'
  rw [← flatMap_completed hends]
  refine ⟨hends, rfl, Resolution.hosts_merge_pairwise _, fun host => ?_, ?_⟩
  · rw [Resolution.hosts_merge]
    constructor
    · intro hmem
      obtain ⟨x, hx, rfl⟩ := List.mem_map.1 hmem
      obtain ⟨q, hq, hx⟩ := List.mem_flatMap.1 hx
      obtain ⟨hq, hstate⟩ := List.mem_filter.1 hq
      obtain ⟨k, hk⟩ := List.getElem?_of_mem hq
      cases hends hk with
      | completed state r h =>
        exact ⟨k, q, r, hk, state, h.inRun, (h.hosts x.host).1 (List.mem_map_of_mem hx)⟩
      | exhausted state =>
        rw [state] at hstate
        cases hstate
    · rintro ⟨k, q, r, hk, hstate, hr, a, hgives, rfl⟩
      cases hends hk with
      | completed _ r' h =>
        obtain rfl := h.once hr hgives
        obtain ⟨x, hx, hhost⟩ := List.mem_map.1 ((h.hosts a.host).2 ⟨a, hgives, rfl⟩)
        refine List.mem_map.2 ⟨x, List.mem_flatMap.2 ⟨q, ?_, hx⟩, hhost⟩
        exact List.mem_filter.2 ⟨List.mem_of_getElem? hk, decide_eq_true hstate⟩
      | exhausted state =>
        rw [state] at hstate
        cases hstate
  · intro q hq hstate x hx y hy
    refine Resolution.family_of_mem_merge (List.mem_flatMap.2 ⟨q, ?_, hx⟩) hy
    exact List.mem_filter.2 ⟨hq, decide_eq_true hstate⟩

/-- A lookup of many hosts that does not fail has, once each and in ascending order, the hosts of
the answers to its batches. It has every family of such a host that a batch has. A batch that is
exhausted adds nothing, and takes nothing away from the others. -/
theorem resolveBatch_gathers {hosts : List String} {q : QueryType} {s : State τ}
    {results : List Resolution} (h : (resolveBatch S c hosts q s).1 = .ok results) : ∃ j,
      addAll c.job (c.batchRequests hosts q) = .ok j
        ∧ j.queries.map (·.request) = c.batchRequests hosts q
        ∧ Gathers S j (ensureServers S c s).2.2 results := by
  unfold resolveBatch at h
  cases hadd : addAll c.job (c.batchRequests hosts q) with
  | error fault =>
    rw [hadd] at h
    cases h
  | ok j =>
    obtain ⟨hrequests, hbatched⟩ := batched_of_addAll hadd
    refine ⟨j, rfl, hrequests, ?_⟩
    rw [hadd] at h
    simp only at h
    split at h
    · rename_i hnone
      have hidle : run S j (ensureServers S c s).2.2
          = ((j, .ok ()), [], (ensureServers S c s).2.2) :=
        run_of_settled (services S) j _ (by simp [hnone])
      have hgathers := gathers_of_run (S := S) (w := (ensureServers S c s).2.2)
        (congrArg (·.1.2) hidle) hbatched
      simp only [hidle, hnone, List.flatMap_nil] at hgathers
      cases h
      exact hgathers
    · simp only [Action.bind_apply, Action.pure_apply] at h
      cases hok : (run S j (ensureServers S c s).2.2).1.2 with
      | error e =>
        rw [hok] at h
        cases h
      | ok =>
        rw [hok] at h
        cases h
        exact gathers_of_run hok hbatched

/-! ## Three batches -/

/-- Services that take the reply to each exchange from a script, and time out when it is over. -/
def scripted (read : String → List Answer) : Services (List Reply × Unit) :=
  { Services.beside (Services.unheard fun _ => none) with
    sendAll := sendEach fun e (script, w) =>
      (script.head?.getD (.error (.timeout e.timeoutMs.toNat)), (script.tail, w))
    readMulti := fun body w => (read body, w) }

/-- The answers in two bodies, one for each family of a.com. -/
def familyAnswers (body : String) : List Answer :=
  if body = "ipv4" then [{ host := "a.com", ips := ["192.0.2.1"], ttl := 60 }]
  else [{ host := "b.com", ips := ["192.0.2.2"] }, { host := "a.com", ipsv6 := ["2001:db8::1"] }]

/-- The first batch is answered at once, the second one in the second round, the third one never. A
host of both comes out once, with a family of each. -/
theorem resolveBatch_gathers_families :
    let S := scripted familyAnswers
    let fault : Reply := .error (.timeout 2500)
    let s : State (List Reply × Unit) := ({}, { ipv4 := [⟨"203.0.113.7", none⟩] }, {},
      [.ok ⟨statusOk, "ipv4", 8⟩, fault, fault, .ok ⟨statusOk, "ipv6", 8⟩], ())
    let hosts := ["a.com", "b.com", "c.com", "d.com", "e.com", "a.com", "b.com", "f.com", "g.com",
      "h.com", "i.com"]
    let results : List Resolution := [
      { host := "a.com", cacheKey := "a.com", ips := [⟨"192.0.2.1", none⟩],
        ipsv6 := [⟨"2001:db8::1", none⟩], ttl := 60 },
      { host := "b.com", cacheKey := "b.com", ips := [⟨"192.0.2.2", none⟩] }]
    (resolveBatch S plain hosts .both s).1 = .ok results ∧ ∃ j,
      addAll plain.job (plain.batchRequests hosts .both) = .ok j
        ∧ (run S j s).1.1.queries.map (·.state) = [.completed, .completed, .exhausted]
        ∧ Gathers S j s results := by
  intro S fault s hosts results
  have hresults : (resolveBatch S plain hosts .both s).1 = .ok results := by decide +kernel
  obtain ⟨j, hadd, -, hgathers⟩ := resolveBatch_gathers hresults
  have hstates : (addAll plain.job (plain.batchRequests hosts .both)).map
      (fun j => (run S j s).1.1.queries.map (·.state))
        = .ok [.completed, .completed, .exhausted] := by
    decide +kernel
  rw [hadd] at hstates
  exact ⟨hresults, j, hadd, Except.ok.inj hstates, hgathers⟩

end Client

end HttpDns
