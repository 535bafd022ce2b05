import HttpDns.Client.Session
import HttpDns.Proofs.Faults

/-!
# Requests that are refused

A client looks at a request before it does anything for it. What it queues for a batch stays with
the job of the lookup until all of the batch is queued, so a chunk that is refused takes the chunks
before it along (`addAll_error_iff`). A lookup that is refused therefore tells nothing and leaves
the cache, the servers and the services as they were (`rejected_untouched`).
-/

namespace HttpDns.Client

variable {τ : Type} {S : Services τ} {c : Client} {s : State τ} {f : RequestFault}

/-! ## Single requests -/

theorem resolve_refused_iff {r : Request} :
    (resolve S c r s).1 = .error (.request f) ↔ r.fault? = some f := by
  constructor
  · intro h
    obtain ⟨g, hfault, heq⟩ | hnone := error_resolve h
    · cases heq
      exact hfault
    · cases hnone
  · intro h
    rw [resolve_of_fault S s h]

theorem spawn_of_fault {r : Request} (h : r.fault? = some f) :
    spawn S c r s = (.error f, [], s) := by
  rw [spawn, Job.add_error c.job true h]
  rfl

theorem spawn_refused_iff {r : Request} :
    (spawn S c r s).1 = .error f ↔ r.fault? = some f := by
  constructor
  · intro h
    cases hfault : r.fault? with
    | none =>
      rw [spawn, Job.add_ok c.job true hfault] at h
      cases h
    | some g =>
      rw [spawn_of_fault hfault] at h
      cases h
      rfl
  · intro h
    rw [spawn_of_fault h]

theorem resolveHost_call_of_fault {host : String} {q : QueryType}
    (h : (c.request host q).fault? = some f) :
    Call.resolveHost c host q = { job? := none, phase := .done (.error (.request f)) } := by
  rw [Call.resolveHost, Job.add_error c.job false h]

/-! ## Batches -/

/-- The batched request for a chunk of hosts. -/
def chunkRequest (c : Client) (q : QueryType) (chunk : List String) : Request :=
  { Request.batch chunk c.config with queryType := q }

/-- The first chunk of some hosts that is refused has this fault. A chunk before it is without
fault, or all of it is blank and nothing is asked for it. -/
def FirstRefused (c : Client) (hosts : List String) (q : QueryType) (f : RequestFault) : Prop :=
  ∃ before chunk after,
    chunks maxHostsPerBatch maxHostsPerBatch_pos hosts = before ++ chunk :: after
      ∧ (∀ m ∈ before, (c.chunkRequest q m).host = "" ∨ (c.chunkRequest q m).fault? = none)
      ∧ (c.chunkRequest q chunk).host ≠ "" ∧ (c.chunkRequest q chunk).fault? = some f

/-- Queueing stops at the first request with a fault. -/
theorem addAll_error_iff : ∀ {rs : List Request} {j : Job},
    addAll j rs = .error f ↔ rs.findSome? Request.fault? = some f
  | [], _ => by simp [addAll]
  | r :: rest, j => by
    cases h : r.fault? with
    | none =>
      rw [addAll, Job.add_ok j false h, List.findSome?_cons, h]
      exact addAll_error_iff
    | some g => simp [addAll, Job.add_error j false h, h]

theorem firstRefused_iff {hosts : List String} {q : QueryType} :
    c.FirstRefused hosts q f ↔ (c.batchRequests hosts q).findSome? Request.fault? = some f := by
  have hrequests : c.batchRequests hosts q
      = ((chunks maxHostsPerBatch maxHostsPerBatch_pos hosts).map (c.chunkRequest q)).filter
        (·.host ≠ "") := rfl
  rw [hrequests, ← List.head?_filterMap, List.filterMap_filter, List.head?_filterMap,
    List.findSome?_map, List.findSome?_eq_some_iff]
  simp [FirstRefused, Function.comp, and_comm, and_assoc, or_iff_not_imp_left]

theorem resolveBatch_of_refused {hosts : List String} {q : QueryType}
    (h : c.FirstRefused hosts q f) :
    resolveBatch S c hosts q s = (.error (.request f), [], s) := by
  rw [resolveBatch, addAll_error_iff.2 (firstRefused_iff.1 h)]
  rfl

theorem resolveBatch_refused_iff {hosts : List String} {q : QueryType} :
    (resolveBatch S c hosts q s).1 = .error (.request f) ↔ c.FirstRefused hosts q f := by
  constructor
  · intro h
    rw [firstRefused_iff, ← addAll_error_iff (j := c.job)]
    unfold resolveBatch at h
    cases hadd : addAll c.job (c.batchRequests hosts q) with
    | error g =>
      rw [hadd] at h
      cases h
      rfl
    | ok j =>
      simp only [hadd] at h
      split at h
      · cases h
      · cases Job.error_run (error_of_map h)
  · intro h
    rw [resolveBatch_of_refused h]

/-- A request is refused exactly if it has a fault, whether it is looked up or run for its callback,
and a lookup of several hosts exactly if a chunk of them is refused, for the fault of the first one.
Nothing is asked or sent then, no callback is called, and the cache with its counters, the servers,
the boot servers and the services are left as they were, whatever chunks came before. A refused call
among concurrent ones is over as it comes in: no poll of it does anything. -/
theorem rejected_untouched (S : Services τ) (c : Client) (s : State τ) :
    (∀ (r : Request) (f : RequestFault),
      ((resolve S c r s).1 = .error (.request f) ↔ r.fault? = some f)
        ∧ ((spawn S c r s).1 = .error f ↔ r.fault? = some f)
        ∧ (r.fault? = some f → (resolve S c r s).2 = ([], s) ∧ (spawn S c r s).2 = ([], s)))
      ∧ (∀ (hosts : List String) (q : QueryType) (f : RequestFault),
        ((resolveBatch S c hosts q s).1 = .error (.request f) ↔ c.FirstRefused hosts q f)
          ∧ (c.FirstRefused hosts q f → (resolveBatch S c hosts q s).2 = ([], s)))
      ∧ ∀ (host : String) (q : QueryType) (f : RequestFault),
        (c.request host q).fault? = some f → ∀ (pace : Pace τ) (session : Session) (i : Nat),
          session.calls[i]? = some (.resolveHost c host q) →
            session.results[i]? = some (some (.error (.request f)))
              ∧ session.poll S c pace i s = (session, [], s) := by
  refine ⟨fun r f => ⟨resolve_refused_iff, spawn_refused_iff, fun h => ?_⟩,
    fun hosts q f => ⟨resolveBatch_refused_iff, fun h => ?_⟩,
    fun host q f h pace session i hi => ?_⟩
  · rw [resolve_of_fault S s h, spawn_of_fault h]
    exact ⟨rfl, rfl⟩
  · rw [resolveBatch_of_refused h]
  · rw [resolveHost_call_of_fault h] at hi
    constructor
    · simp [Session.results, hi]
    · simp [Session.poll, hi]

/-- A keyed batch, eight hosts of which the last three name two each, and a blank host that is
looked up beside another one. -/
theorem rejected_untouched_late :
    let c : Client := ⟨{ accountId := "100000" }, by decide⟩
    let S := Services.unheard fun _ => none
    let s : State Unit := c.initial ()
    let keyed : Request :=
      { Request.batch ["a.com", "b.com"] c.config with cacheKey := some "k" }
    let hosts := ["a.com", "b.com", "c.com", "d.com", "e.com", "f.com,g.com", "h.com,i.com",
      "j.com,k.com"]
    let session := concurrently c [("a.com", .a), (" ", .a)]
    let pace : Pace Unit := { exchange := fun _ _ => 1 }
    (keyed.fault? = some .keyedBatch ∧ c.FirstRefused hosts .both (.crowdedBatch 6)
        ∧ (c.request " " .a).fault? = some .blankHost)
      ∧ resolve S c keyed s = (.error (.request .keyedBatch), [], s)
      ∧ spawn S c keyed s = (.error .keyedBatch, [], s)
      ∧ resolveBatch S c hosts .both s = (.error (.request (.crowdedBatch 6)), [], s)
      ∧ session.poll S c pace 1 s = (session, [], s) := by
  intro c S s keyed hosts session pace
  obtain ⟨hsingle, hbatch, hcall⟩ := rejected_untouched S c s
  have hkeyed : keyed.fault? = some .keyedBatch := by decide +kernel
  have hcrowded : c.FirstRefused hosts .both (.crowdedBatch 6) :=
    ⟨[hosts.take 5], hosts.drop 5, [], by decide +kernel, by decide +kernel, by decide +kernel,
      by decide +kernel⟩
  have hblank : (c.request " " .a).fault? = some .blankHost := by decide +kernel
  obtain ⟨hresolve, hspawn, hleft⟩ := hsingle keyed .keyedBatch
  obtain ⟨hbatched, hkept⟩ := hbatch hosts .both (.crowdedBatch 6)
  exact ⟨⟨hkeyed, hcrowded, hblank⟩, Prod.ext (hresolve.2 hkeyed) (hleft hkeyed).1,
    Prod.ext (hspawn.2 hkeyed) (hleft hkeyed).2, Prod.ext (hbatched.2 hcrowded) (hkept hcrowded),
    (hcall " " .a .blankHost hblank pace session 1 rfl).2⟩

end HttpDns.Client
