import HttpDns.Client
import HttpDns.Proofs.Life
import HttpDns.Proofs.Verifying
import Mathlib.Data.List.DropRight

/-!
# The requests for many hosts

A lookup of many hosts is cut into chunks of a few hosts, and each of them is asked for by one
batched request, unless all of its hosts are blank. If no host holds a comma, these requests name
the hosts that are not blank, trimmed, and all of them are accepted (`mem_hosts_batchAsks`,
`batch_accepted`). So the queries name just these hosts, in their order and as often as they are
given (`resolveBatch_queues`).
-/

namespace HttpDns

namespace Text

theorem trimChars_trimChars (cs : List Char) : trimChars (trimChars cs) = trimChars cs := by
  have hback : trimChars cs = (cs.dropWhile isBlank).rdropWhile isBlank := rfl
  have hfront : (trimChars cs).dropWhile isBlank = trimChars cs := by
    obtain ⟨rest, hrest⟩ := List.rdropWhile_prefix isBlank (cs.dropWhile isBlank)
    rw [← hback] at hrest
    cases ht : trimChars cs with
    | nil => rfl
    | cons c front =>
      rw [ht, List.cons_append] at hrest
      have hhead := List.head_dropWhile_not isBlank (l := cs) (by rw [← hrest]; simp)
      have hc : isBlank c = false := by simpa [← hrest] using hhead
      rw [List.dropWhile_cons, hc]
      rfl
  rw [trimChars, hfront, hback]
  exact List.rdropWhile_idempotent isBlank _

theorem trim_trim (s : String) : trim (trim s) = trim s := by
  simp [trim, trimChars_trimChars]

theorem mem_join_of_mem {sep c : Char} : ∀ {pieces : List (List Char)} {piece : List Char},
    piece ∈ pieces → c ∈ piece → c ∈ join sep pieces
  | [p], piece, hp, hc => by
    rw [List.mem_singleton.1 hp] at hc
    exact hc
  | p :: q :: rest, piece, hp, hc => by
    rw [join, List.mem_append, List.mem_cons]
    rcases List.mem_cons.1 hp with rfl | hp
    · exact .inl hc
    · exact .inr (.inr (mem_join_of_mem hp hc))
    · simp

end Text

namespace Request

open Text

theorem trimmedNames_eq (names : List String) :
    trimmedNames names = (names.filter fun name => !allBlank name).map trim := by
  unfold trimmedNames
  rw [List.filter_map]
  congr 1
  refine List.filter_congr fun name _ => ?_
  simp [trim_eq_empty_iff]

theorem trimmedNames_flatten (lists : List (List String)) :
    trimmedNames lists.flatten = (lists.map trimmedNames).flatten := by
  unfold trimmedNames
  rw [List.map_flatten, List.filter_flatten, List.map_map]
  rfl

theorem trimmedNames_ne_nil_iff {names : List String} :
    trimmedNames names ≠ [] ↔ ∃ name ∈ names, allBlank name = false := by
  rw [trimmedNames_eq, Ne, List.map_eq_nil_iff, List.filter_eq_nil_iff]
  simp

theorem trimmedNames_trimmedNames (names : List String) :
    trimmedNames (trimmedNames names) = trimmedNames names := by
  rw [trimmedNames_eq_self]
  intro name hname
  obtain ⟨hne, s, -, rfl⟩ := mem_trimmedNames.1 hname
  exact ⟨hne, trim_trim s⟩

theorem length_trimmedNames_le (names : List String) :
    (trimmedNames names).length ≤ names.length := by
  calc (trimmedNames names).length ≤ (names.map trim).length := List.length_filter_le _ _
    _ = names.length := List.length_map _

/-- A batched request names the hosts it is made for, if no comma cuts one of them. -/
theorem hosts_batch {names : List String} (hcomma : ∀ name ∈ names, ',' ∉ name.toList)
    (c : ClientConfig) : (batch names c).hosts = trimmedNames names := by
  have hhosts : (batch names c).hosts
      = trimmedNames (splitText ',' (joinTexts ',' (trimmedNames names))) := rfl
  rw [hhosts]
  by_cases hnil : trimmedNames names = []
  · rw [hnil]
    decide
  · rw [splitText_joinTexts hnil, trimmedNames_trimmedNames]
    intro name hname hmem
    obtain ⟨-, s, hs, rfl⟩ := mem_trimmedNames.1 hname
    refine hcomma s hs (mem_of_mem_trimChars ?_)
    simpa [trim] using hmem

theorem not_allBlank_of_mem {names : List String} {name : String}
    (hname : name ∈ trimmedNames names) : allBlank name = false := by
  obtain ⟨hne, s, -, rfl⟩ := mem_trimmedNames.1 hname
  rw [Bool.eq_false_iff]
  intro hblank
  rw [← trim_eq_empty_iff, trim_trim] at hblank
  exact hne hblank

theorem not_allBlank_joinTexts {names : List String} (hne : trimmedNames names ≠ []) :
    allBlank (joinTexts ',' (trimmedNames names)) = false := by
  obtain ⟨name, hname⟩ := List.exists_mem_of_ne_nil _ hne
  have hblank := not_allBlank_of_mem hname
  unfold allBlank at hblank ⊢
  rw [List.all_eq_false] at hblank ⊢
  obtain ⟨c, hc, hnot⟩ := hblank
  refine ⟨c, ?_, hnot⟩
  rw [joinTexts, String.toList_ofList]
  exact mem_join_of_mem (List.mem_map_of_mem hname) hc

theorem host_batch_eq_empty_iff {names : List String} (c : ClientConfig) :
    (batch names c).host = "" ↔ trimmedNames names = [] := by
  have hhost : (batch names c).host = joinTexts ',' (trimmedNames names) := rfl
  rw [hhost]
  constructor
  · intro h
    by_contra hne
    have hblank := not_allBlank_joinTexts hne
    rw [h] at hblank
    cases hblank
  · intro h
    rw [h]
    rfl

end Request

namespace Client

open Request

/-! ## Chunks -/

section

variable {α : Type} {n : Nat}

theorem flatten_chunks (h : 0 < n) : ∀ l : List α, (chunks n h l).flatten = l
  | [] => by simp [chunks]
  | x :: rest => by
    rw [chunks, List.flatten_cons, flatten_chunks h, List.cons_append, List.take_append_drop]
termination_by l => l.length

theorem mem_of_mem_chunks {h : 0 < n} {l m : List α} (hm : m ∈ chunks n h l) {x : α}
    (hx : x ∈ m) : x ∈ l := by
  rw [← flatten_chunks h l]
  exact List.mem_flatten.2 ⟨m, hm, hx⟩

theorem length_le_of_mem_chunks (h : 0 < n) : ∀ {l m : List α}, m ∈ chunks n h l → m.length ≤ n
  | [], m, hm => by simp [chunks] at hm
  | x :: rest, m, hm => by
    rw [chunks] at hm
    rcases List.mem_cons.1 hm with rfl | hm
    · rw [List.length_cons, List.length_take]
      omega
    · exact length_le_of_mem_chunks h hm
termination_by l => l.length

end

/-! ## The requests of a client -/

/-- The requests of a client, but for the type and the server. -/
inductive Poses (c : Client) : Request → Prop
  | single (host : String) : Poses c (.ofConfig host c.config)
  | batched (hosts : List String) : Poses c (.batch hosts c.config)

variable {c : Client}

namespace Poses

variable {ask : Request}

theorem resolver_eq (h : c.Poses ask) : ask.resolver = none := by
  cases h <;> rfl

theorem sdns_eq (h : c.Poses ask) : ask.sdns = [] := by
  cases h <;> rfl

end Poses

/-! ## Batched requests -/

theorem maxHostsPerBatch_pos : 0 < maxHostsPerBatch := by decide

/-- The batched requests for some hosts, but for their type. -/
def batchAsks (c : Client) (hosts : List String) : List Request :=
  ((chunks maxHostsPerBatch maxHostsPerBatch_pos hosts).map fun chunk =>
    .batch chunk c.config).filter (·.host ≠ "")

theorem batchRequests_eq (c : Client) (hosts : List String) (q : QueryType) :
    c.batchRequests hosts q = (c.batchAsks hosts).map fun ask => { ask with queryType := q } := by
  unfold batchRequests batchAsks
  rw [List.filter_map, List.filter_map, List.map_map]
  rfl

theorem batchAsks_eq (c : Client) (hosts : List String) : c.batchAsks hosts
    = ((chunks maxHostsPerBatch maxHostsPerBatch_pos hosts).filter
        (trimmedNames · ≠ [])).map fun chunk => .batch chunk c.config := by
  unfold batchAsks
  rw [List.filter_map]
  congr 1
  refine List.filter_congr fun chunk _ => ?_
  simp [host_batch_eq_empty_iff]

theorem mem_batchAsks {hosts : List String} {ask : Request} : ask ∈ c.batchAsks hosts ↔
    ∃ chunk ∈ chunks maxHostsPerBatch maxHostsPerBatch_pos hosts, trimmedNames chunk ≠ []
      ∧ ask = .batch chunk c.config := by
  rw [batchAsks_eq, List.mem_map]
  constructor
  · rintro ⟨chunk, hmem, rfl⟩
    obtain ⟨hchunk, hne⟩ := List.mem_filter.1 hmem
    exact ⟨chunk, hchunk, of_decide_eq_true hne, rfl⟩
  · rintro ⟨chunk, hchunk, hne, rfl⟩
    exact ⟨chunk, List.mem_filter.2 ⟨hchunk, decide_eq_true hne⟩, rfl⟩

theorem poses_batchAsks {hosts : List String} : ∀ ask ∈ c.batchAsks hosts, c.Poses ask := by
  intro ask hask
  obtain ⟨chunk, -, -, rfl⟩ := mem_batchAsks.1 hask
  exact .batched chunk

/-- The batches name the hosts that are not blank, trimmed, one after the other. -/
theorem hosts_batchAsks {hosts : List String} (hcomma : ∀ host ∈ hosts, ',' ∉ host.toList) :
    (c.batchAsks hosts).flatMap (·.hosts) = trimmedNames hosts := by
  rw [batchAsks_eq, List.flatMap_map]
  calc _ = ((chunks maxHostsPerBatch maxHostsPerBatch_pos hosts).filter
          (trimmedNames · ≠ [])).flatMap trimmedNames := by
        refine List.flatMap_congr fun chunk hchunk => hosts_batch (fun host hhost => ?_) c.config
        exact hcomma host (mem_of_mem_chunks (List.mem_filter.1 hchunk).1 hhost)
    _ = ((chunks maxHostsPerBatch maxHostsPerBatch_pos hosts).map trimmedNames).flatten := by
        rw [← List.flatten_filter_ne_nil, List.filter_map, List.flatMap_def]
        rfl
    _ = trimmedNames hosts := by rw [← trimmedNames_flatten, flatten_chunks]

theorem mem_hosts_batchAsks {hosts : List String} (hcomma : ∀ host ∈ hosts, ',' ∉ host.toList)
    {name : String} :
    (∃ ask ∈ c.batchAsks hosts, name ∈ ask.hosts) ↔ name ∈ trimmedNames hosts := by
  rw [← hosts_batchAsks (c := c) hcomma, List.mem_flatMap]

/-! ## Requests without fault -/

theorem accountId_ne_empty (c : Client) : c.config.accountId ≠ "" := by
  intro h
  have hvalid := c.valid
  simp [ClientConfig.fault?, h, Text.allBlank] at hvalid

theorem has_secret (c : Client) : (c.config.usingSign && noSecret c.config.secretKey) = false := by
  have hvalid := c.valid
  unfold ClientConfig.fault? at hvalid
  split_ifs at hvalid with h₁ h₂ h₃ h₄ h₅
  exact Bool.eq_false_iff.2 h₅

/-- A request of a client that names a host, and not too many of them, is without fault. -/
theorem Poses.accepted {ask : Request} (h : c.Poses ask) (hblank : Text.allBlank ask.host = false)
    (hfew : ask.hosts.length ≤ maxHostsPerBatch) (q : QueryType) :
    Request.fault? { ask with queryType := q } = none := by
  have haccount : ask.accountId ≠ "" := by
    cases h <;> exact c.accountId_ne_empty
  have hkey : ask.cacheKey = none := by
    cases h <;> rfl
  have hsecret : (ask.usingSign && noSecret ask.secretKey) = false := by
    cases h <;> exact c.has_secret
  have hcrowd : (ask.usingMulti && decide (maxHostsPerBatch < ask.hosts.length)) = false := by
    rw [decide_eq_false (not_lt.2 hfew), Bool.and_false]
  unfold Request.fault?
  show (if Text.allBlank ask.host then _ else if ask.accountId = "" then _
    else if ask.usingMulti && ask.cacheKey.isSome then _
    else if ask.usingMulti && decide (maxHostsPerBatch < ask.hosts.length) then _
    else if ask.usingSign && noSecret ask.secretKey then _ else _) = _
  simp [hblank, haccount, hkey, hcrowd, hsecret]

theorem request_accepted {host : String} (h : Text.allBlank host = false) (q : QueryType) :
    (c.request host q).fault? = none :=
  (Poses.single host).accepted h (Nat.le_of_ble_eq_true rfl) q

theorem batch_names {hosts : List String} (hcomma : ∀ host ∈ hosts, ',' ∉ host.toList)
    {ask : Request} (hask : ask ∈ c.batchAsks hosts) : ask.hosts ≠ [] := by
  obtain ⟨chunk, hchunk, hne, rfl⟩ := mem_batchAsks.1 hask
  rwa [hosts_batch fun host hhost => hcomma host (mem_of_mem_chunks hchunk hhost)]

theorem batch_few {hosts : List String} (hcomma : ∀ host ∈ hosts, ',' ∉ host.toList)
    {ask : Request} (hask : ask ∈ c.batchAsks hosts) : ask.hosts.length ≤ maxHostsPerBatch := by
  obtain ⟨chunk, hchunk, hne, rfl⟩ := mem_batchAsks.1 hask
  rw [hosts_batch fun host hhost => hcomma host (mem_of_mem_chunks hchunk hhost)]
  exact (length_trimmedNames_le chunk).trans (length_le_of_mem_chunks _ hchunk)

theorem batch_accepted {hosts : List String} (hcomma : ∀ host ∈ hosts, ',' ∉ host.toList)
    {ask : Request} (hask : ask ∈ c.batchAsks hosts) (q : QueryType) :
    Request.fault? { ask with queryType := q } = none := by
  have hposes := poses_batchAsks ask hask
  have hfew := batch_few hcomma hask
  obtain ⟨chunk, -, hne, rfl⟩ := mem_batchAsks.1 hask
  exact hposes.accepted (not_allBlank_joinTexts hne) hfew q

theorem addAll_ok : ∀ {asks : List Request} {q : QueryType} (j : Job),
    (∀ ask ∈ asks, Request.fault? { ask with queryType := q } = none) →
      addAll j (asks.map fun ask => { ask with queryType := q }) = .ok { j with
        queries := j.queries ++ asks.map fun ask =>
          .ofRequest { ask with queryType := q } false j.settings.attempts }
  | [], _, j, _ => by simp [addAll]
  | ask :: asks, q, j, h => by
    rw [List.map_cons, addAll, Job.add_ok j false (h ask List.mem_cons_self)]
    simp only
    rw [addAll_ok _ fun ask' hask => h ask' (List.mem_cons_of_mem _ hask)]
    simp

theorem addAll_eq_ok : ∀ {asks : List Request} {j j' : Job}, addAll j asks = .ok j' →
    j' = { j with
      queries := j.queries ++ asks.map fun ask => .ofRequest ask false j.settings.attempts }
  | [], j, j', h => by
    cases h
    simp
  | ask :: asks, j, j', h => by
    unfold addAll at h
    split at h
    · cases h
    · rename_i j₁ hadd
      obtain ⟨-, rfl⟩ := Job.add_eq_ok hadd
      rw [addAll_eq_ok h]
      simp

/-! ## What is queued -/

/-- The queries of a job ask for some hosts: one of them for each chunk that has a host that is not
blank. They name the hosts that are not blank, trimmed, in their order and as often as they are
given. Each of them names at least one host and not too many, and is without fault. -/
structure Queued (c : Client) (hosts : List String) (q : QueryType) (j : Job) : Prop where
  requests : j.queries.map (·.request)
    = ((chunks maxHostsPerBatch maxHostsPerBatch_pos hosts).filter fun chunk =>
        chunk.any fun host => !Text.allBlank host).map fun chunk =>
          { Request.batch chunk c.config with queryType := q }
  names : j.queries.flatMap (·.request.hosts)
    = (hosts.filter fun host => !Text.allBlank host).map Text.trim
  named : ∀ query ∈ j.queries, query.request.hosts ≠ []
  few : ∀ query ∈ j.queries, query.request.hosts.length ≤ maxHostsPerBatch
  accepted : ∀ query ∈ j.queries, query.request.fault? = none

theorem queued_of_requests {hosts : List String} (hcomma : ∀ host ∈ hosts, ',' ∉ host.toList)
    {q : QueryType} {j : Job} (hj : j.queries.map (·.request)
      = (c.batchAsks hosts).map fun ask => { ask with queryType := q }) : c.Queued hosts q j := by
  have hall : ∀ query ∈ j.queries, query.request.hosts ≠ []
      ∧ query.request.hosts.length ≤ maxHostsPerBatch ∧ query.request.fault? = none := by
    intro query hmem
    have hrequest : query.request ∈ j.queries.map (·.request) := List.mem_map_of_mem hmem
    rw [hj] at hrequest
    obtain ⟨ask, hask, heq⟩ := List.mem_map.1 hrequest
    -- the type does not change the hosts of a request
    have hhosts : query.request.hosts = ask.hosts := by
      rw [← heq]
      rfl
    rw [hhosts, ← heq]
    exact ⟨batch_names hcomma hask, batch_few hcomma hask, batch_accepted hcomma hask q⟩
  refine ⟨?_, ?_, fun query hmem => (hall query hmem).1, fun query hmem => (hall query hmem).2.1,
    fun query hmem => (hall query hmem).2.2⟩
  · rw [hj, batchAsks_eq, List.map_map]
    congr 1
    refine List.filter_congr fun chunk _ => ?_
    rw [Bool.eq_iff_iff, decide_eq_true_iff, trimmedNames_ne_nil_iff]
    simp
  · calc j.queries.flatMap (·.request.hosts)
        = (j.queries.map (·.request)).flatMap (·.hosts) := by rw [List.flatMap_map]
      _ = (c.batchAsks hosts).flatMap (·.hosts) := by
        rw [hj, List.flatMap_map]
        rfl
      _ = _ := by rw [hosts_batchAsks hcomma, trimmedNames_eq]

theorem batchAsks_eq_nil {hosts : List String}
    (hblank : ∀ host ∈ hosts, Text.allBlank host = true) : c.batchAsks hosts = [] := by
  rw [batchAsks_eq, List.map_eq_nil_iff, List.filter_eq_nil_iff]
  intro chunk hchunk hne
  obtain ⟨host, hhost, hnot⟩ := trimmedNames_ne_nil_iff.1 (of_decide_eq_true hne)
  rw [hblank host (mem_of_mem_chunks hchunk hhost)] at hnot
  cases hnot

/-- A lookup of hosts without commas runs a job that asks for just these hosts. If all of them are
blank there is nothing to run: it gives an empty list at once and asks for nothing. -/
theorem resolveBatch_queues (c : Client) {hosts : List String}
    (hcomma : ∀ host ∈ hosts, ',' ∉ host.toList) (q : QueryType) : ∃ j,
      addAll c.job (c.batchRequests hosts q) = .ok j ∧ c.Queued hosts q j
        ∧ (∀ {τ : Type} (S : Services τ), resolveBatch S c hosts q
          = if j.queries = [] then pure (.ok [])
            else do
              ensureServers S c
              let (j, outcome) ← run S j
              pure (outcome.map fun _ => Resolution.merge (j.queries.flatMap (·.results))))
        ∧ ((∀ host ∈ hosts, Text.allBlank host = true) → ∀ {τ : Type} (S : Services τ)
          (s : State τ), resolveBatch S c hosts q s = (.ok [], [], s)) := by
  obtain ⟨j, hadd, hqueries⟩ : ∃ j, addAll c.job (c.batchRequests hosts q) = .ok j
      ∧ j.queries = (c.batchAsks hosts).map fun ask =>
        .ofRequest { ask with queryType := q } false c.job.settings.attempts := by
    rw [batchRequests_eq, addAll_ok c.job fun ask hask => batch_accepted hcomma hask q]
    exact ⟨_, rfl, rfl⟩
  have hqueued : c.Queued hosts q j := queued_of_requests hcomma (by
    rw [hqueries, List.map_map]
    rfl)
  refine ⟨j, hadd, hqueued, fun S => ?_, fun hblank _ S s => ?_⟩
  · unfold resolveBatch
    rw [hadd]
  · have hnone : j.queries = [] := by
      rw [hqueries, batchAsks_eq_nil hblank]
      rfl
    unfold resolveBatch
    rw [hadd]
    simp only [if_pos hnone]
    rfl

/-- Of seven hosts the five of the first chunk are three that are not blank, one of them twice; the
second chunk is blank, and nothing is queued for it. -/
theorem resolveBatch_queues_three :
    let c : Client := ⟨{ accountId := "100000" }, by decide⟩
    let hosts := ["b.com", " a.com", "", "b.com", "\t", " ", ""]
    (∀ host ∈ hosts, ',' ∉ host.toList) ∧ ∃ j, addAll c.job (c.batchRequests hosts .both) = .ok j
      ∧ j.queries.map (·.request.host) = ["b.com,a.com,b.com"]
      ∧ j.queries.flatMap (·.request.hosts) = ["b.com", "a.com", "b.com"] := by
  intro c hosts
  have hcomma : ∀ host ∈ hosts, ',' ∉ host.toList := by decide
  obtain ⟨j, hadd, hqueued, -⟩ := resolveBatch_queues c hcomma .both
  refine ⟨hcomma, j, hadd, ?_, ?_⟩
  · have hrequests := congrArg (List.map (·.host)) hqueued.requests
    rw [List.map_map] at hrequests
    exact hrequests.trans (by decide +kernel)
  · rw [hqueued.names]
    decide +kernel

end Client

end HttpDns
