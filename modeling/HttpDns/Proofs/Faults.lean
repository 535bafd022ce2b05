import HttpDns.Proofs.BatchRequests
import HttpDns.Proofs.Lookup

/-!
# What a client can be refused

A configuration without fault leaves a request made from it only one way to be refused: it names no
host (`fault_request`, `fault_batch`). A job fails only if no server can be drawn, so a client knows
two errors, a blank host and that there is no server (`errors_of_valid`).
-/

namespace HttpDns

namespace Job

variable {σ : Type}

theorem error_run {S : Services σ} {j : Job} {w : σ} {e : Error}
    (h : (run S j w).1.2 = .error e) : e = .noResolverAvailable := by
  obtain ⟨-, -, -, ⟨hok, -⟩ | ⟨herror, -⟩⟩ := run_passes S j w
  · rw [hok] at h
    cases h
  · rw [herror] at h
    exact (Except.error.inj h).symm

end Job

namespace Client

open Request

variable {τ : Type} {S : Services τ} {c : Client}

/-! ## Requests -/

theorem fault_of_blank {r : Request} (h : Text.allBlank r.host = true) :
    r.fault? = some .blankHost :=
  if_pos h

theorem fault_request (c : Client) (host : String) (q : QueryType) :
    (c.request host q).fault? = if Text.allBlank host then some .blankHost else none := by
  split
  · exact fault_of_blank ‹_›
  · rename_i hblank
    exact request_accepted (Bool.eq_false_iff.2 hblank) q

/-- A batched request of a client names no more hosts than it is made for, so it is refused only if
all of them are blank. -/
theorem fault_batch (c : Client) {hosts : List String} (hcomma : ∀ host ∈ hosts, ',' ∉ host.toList)
    (hfew : hosts.length ≤ maxHostsPerBatch) (q : QueryType) :
    Request.fault? { Request.batch hosts c.config with queryType := q }
      = if hosts.all Text.allBlank then some .blankHost else none := by
  split
  · rename_i hblank
    have hnil : trimmedNames hosts = [] := by
      by_contra hne
      obtain ⟨host, hhost, hnot⟩ := trimmedNames_ne_nil_iff.1 hne
      rw [List.all_eq_true.1 hblank host hhost] at hnot
      cases hnot
    have hhost : (Request.batch hosts c.config).host = "" :=
      (host_batch_eq_empty_iff c.config).2 hnil
    refine fault_of_blank ?_
    show Text.allBlank (Request.batch hosts c.config).host = true
    rw [hhost]
    rfl
  · rename_i hblank
    have hne : trimmedNames hosts ≠ [] := by
      rw [trimmedNames_ne_nil_iff]
      simpa using hblank
    refine (Poses.batched hosts).accepted (not_allBlank_joinTexts hne) ?_ q
    rw [hosts_batch hcomma]
    exact (length_trimmedNames_le hosts).trans hfew

/-! ## Lookups -/

theorem error_of_map {α β ε : Type} {x : Except ε α} {f : α → β} {e : ε}
    (h : x.map f = .error e) : x = .error e := by
  cases x with
  | error => exact congrArg Except.error (Except.error.inj h)
  | ok => cases h

/-- A lookup fails for the fault of its request or for want of a server. -/
theorem error_resolve {r : Request} {s : State τ} {e : Error}
    (h : (resolve S c r s).1 = .error e) :
    (∃ fault, r.fault? = some fault ∧ e = .request fault) ∨ e = .noResolverAvailable := by
  cases hfault : r.fault? with
  | some fault =>
    rw [resolve_of_fault S s hfault] at h
    exact .inl ⟨fault, rfl, (Except.error.inj h).symm⟩
  | none =>
    simp only [resolve, Job.add_ok c.job false hfault, Action.bind_apply, Action.pure_apply] at h
    exact .inr (Job.error_run (error_of_map h))

theorem resolveHost_blank_iff {host : String} {q : QueryType} {s : State τ} :
    (resolveHost S c host q s).1 = .error (.request .blankHost) ↔ Text.allBlank host = true := by
  constructor
  · intro h
    obtain ⟨fault, hfault, -⟩ | hnone := error_resolve h
    · rw [fault_request] at hfault
      by_contra hblank
      rw [if_neg hblank] at hfault
      cases hfault
    · cases hnone
  · intro h
    rw [resolveHost_of_fault S s (fault_of_blank h)]

theorem error_resolveHost {host : String} (hblank : Text.allBlank host = false) {q : QueryType}
    {s : State τ} {e : Error} (h : (resolveHost S c host q s).1 = .error e) :
    e = .noResolverAvailable := by
  obtain ⟨fault, hfault, -⟩ | hnone := error_resolve h
  · rw [request_accepted hblank] at hfault
    cases hfault
  · exact hnone

theorem error_resolveBatch {hosts : List String} (hcomma : ∀ host ∈ hosts, ',' ∉ host.toList)
    {q : QueryType} {s : State τ} {e : Error} (h : (resolveBatch S c hosts q s).1 = .error e) :
    e = .noResolverAvailable := by
  obtain ⟨j, -, -, hrun, -⟩ := resolveBatch_queues c hcomma q
  rw [hrun] at h
  split at h
  · cases h
  · exact Job.error_run (error_of_map h)

/-- The errors of a client. None of its own requests is ever refused but for naming no host; a
lookup of one host fails for a blank host or for want of a server, and a lookup of hosts without
commas only for want of a server. -/
theorem errors_of_valid (c : Client) :
    (∀ host q, (c.request host q).fault? = if Text.allBlank host then some .blankHost else none)
      ∧ (∀ hosts q, (∀ host ∈ hosts, ',' ∉ host.toList) → hosts.length ≤ maxHostsPerBatch →
        Request.fault? { Request.batch hosts c.config with queryType := q }
          = if hosts.all Text.allBlank then some .blankHost else none)
      ∧ ∀ {τ : Type} (S : Services τ) (q : QueryType) (s : State τ),
        (∀ host, ((resolveHost S c host q s).1 = .error (.request .blankHost)
            ↔ Text.allBlank host = true)
          ∧ (Text.allBlank host = false → ∀ e, (resolveHost S c host q s).1 = .error e →
            e = .noResolverAvailable))
        ∧ ∀ hosts, (∀ host ∈ hosts, ',' ∉ host.toList) → ∀ e,
          (resolveBatch S c hosts q s).1 = .error e → e = .noResolverAvailable := by
  refine ⟨fault_request c, fun hosts q hcomma hfew => fault_batch c hcomma hfew q,
    fun S q s => ⟨fun host => ⟨resolveHost_blank_iff, fun hblank e => error_resolveHost hblank⟩,
      fun hosts hcomma e => error_resolveBatch hcomma⟩⟩

theorem unserved_of_fails {α : Type} {x : Except Error α} (hfails : x.isOk = false)
    (h : ∀ e, x = .error e → e = .noResolverAvailable) : x = .error .noResolverAvailable := by
  cases x with
  | error e => rw [h e rfl]
  | ok => cases hfails

/-- A client that signs with a blank secret and reaches no boot server. -/
theorem errors_of_valid_unreached :
    let c : Client :=
      ⟨{ accountId := "100000", secretKey := some " ", usingSign := true }, by decide⟩
    let S := Services.unheard fun _ => none
    let s : State Unit := c.initial ()
    Request.fault? { Request.batch ["a.com", " ", "b.com"] c.config with queryType := .a } = none
      ∧ (resolveHost S c " \t" .auto s).1 = .error (.request .blankHost)
      ∧ (resolveHost S c "a.com" .auto s).1 = .error .noResolverAvailable
      ∧ (resolveBatch S c ["a.com", " ", "b.com"] .auto s).1 = .error .noResolverAvailable := by
  intro c S s
  obtain ⟨-, hbatch, hlookups⟩ := errors_of_valid c
  obtain ⟨hsingle, hmany⟩ := hlookups S .auto s
  have hcomma : ∀ host ∈ ["a.com", " ", "b.com"], ',' ∉ host.toList := by decide
  refine ⟨?_, (hsingle " \t").1.2 (by decide), ?_, ?_⟩
  · rw [hbatch _ .a hcomma (by decide)]
    decide
  · exact unserved_of_fails (by decide +kernel) ((hsingle "a.com").2 (by decide))
  · exact unserved_of_fails (by decide +kernel) (hmany _ hcomma)

end Client

end HttpDns
