import HttpDns.Proofs.Accord
import HttpDns.Proofs.Enlisting

/-!
# Answers of the system resolver

A lookup with a fallback is the lookup without one and then, if that has no answer or no server, a
question to the system resolver (`resolveWithFallback_eq`). What the system resolver answers is kept
nowhere and tells nothing of the service (`Gives`). That it is asked just then and only once is told
by services that note for which hosts it is asked, and are otherwise in accord with the ones they
note it for (`resolveWithFallback_noting`).
-/

namespace HttpDns

open Address (Literal)

/-! ## Answers -/

namespace SystemResolver

/-- The addresses of one family in the canonical writing, each once and in the order of the system,
if the family is wanted. -/
def wantedOf (ipv4 wanted : Bool) (addrs : List Literal) : List String :=
  if wanted then firstMentions ((addrs.filter (·.isIpv4 == ipv4)).map Literal.write) else []

theorem addrs_family (ipv4 wanted : Bool) (addrs : List Literal) :
    (family ipv4 wanted addrs).addrs = wantedOf ipv4 wanted addrs := by
  unfold family wantedOf
  split
  · rw [Endpoints.ofAddrs, Endpoints.addrs_merge]
    exact appendUnique_nil _
  · rfl

theorem unmeasured_family {ipv4 wanted : Bool} {addrs : List Literal} :
    ∀ e ∈ family ipv4 wanted addrs, e.rtt = none := by
  intro e he
  unfold family at he
  split at he
  · obtain ⟨added, hadded, hnew⟩ := Endpoints.extends_merge
      ((addrs.filter (·.isIpv4 == ipv4)).map Literal.write) []
    rw [Endpoints.ofAddrs, hadded, List.nil_append] at he
    exact hnew e he
  · cases he

theorem nodup_wantedOf (ipv4 wanted : Bool) (addrs : List Literal) :
    (wantedOf ipv4 wanted addrs).Nodup := by
  unfold wantedOf
  split
  · exact nodup_firstMentions _
  · exact List.nodup_nil

theorem family_eq_nil_iff {ipv4 wanted : Bool} {addrs : List Literal} :
    family ipv4 wanted addrs = [] ↔ wantedOf ipv4 wanted addrs = [] := by
  rw [← addrs_family, Endpoints.addrs, List.map_eq_nil_iff]

/-- An answer for a host of a type, made of the addresses that the system knows: those of the
wanted families, and at least one. It is not from the cache, nor did the service have a part in
it. -/
structure Gives (ttl : UInt32) (host : String) (q : QueryType) (addrs : List Literal) (now : Nat)
    (r : Resolution) : Prop where
  host_eq : r.host = host
  cacheKey_eq : r.cacheKey = host
  ips_eq : r.ips.addrs = wantedOf true q.wantsIpv4 addrs
  ipsv6_eq : r.ipsv6.addrs = wantedOf false q.wantsIpv6 addrs
  wanted_ips : r.ips ≠ [] → q.wantsIpv4 = true
  wanted_ipsv6 : r.ipsv6 ≠ [] → q.wantsIpv6 = true
  nodup_ips : r.ips.addrs.Nodup
  nodup_ipsv6 : r.ipsv6.addrs.Nodup
  unmeasured : ∀ e ∈ r.ips ++ r.ipsv6, e.rtt = none
  nonempty : r.ips ≠ [] ∨ r.ipsv6 ≠ []
  ttl_eq : r.ttl = ttl
  originTtl_eq : r.originTtl = 0
  hitCache_eq : r.hitCache = false
  learnedAt_eq : r.learnedAt = now
  clientIp_eq : r.clientIp = none
  extra_eq : r.extra = none

variable {ttl : UInt32} {host : String} {q : QueryType} {addrs : List Literal} {now : Nat}

theorem wanted_of_family {ipv4 wanted : Bool} (h : family ipv4 wanted addrs ≠ []) :
    wanted = true := by
  by_contra hw
  exact h (if_neg hw)

theorem gives_of_resolve {r : Resolution} (h : resolve ttl host q addrs now = some r) :
    Gives ttl host q addrs now r := by
  unfold resolve at h
  simp only at h
  split at h
  · cases h
  · rename_i hne
    cases h
    have hsome : family true q.wantsIpv4 addrs ≠ [] ∨ family false q.wantsIpv6 addrs ≠ [] := by
      simpa [Resolution.isEmpty, or_iff_not_imp_left] using hne
    exact
      { host_eq := rfl
        cacheKey_eq := rfl
        ips_eq := addrs_family _ _ _
        ipsv6_eq := addrs_family _ _ _
        wanted_ips := wanted_of_family
        wanted_ipsv6 := wanted_of_family
        nodup_ips := addrs_family true _ addrs ▸ nodup_wantedOf _ _ _
        nodup_ipsv6 := addrs_family false _ addrs ▸ nodup_wantedOf _ _ _
        unmeasured := fun e he => (List.mem_append.1 he).elim (unmeasured_family e)
          (unmeasured_family e)
        nonempty := hsome
        ttl_eq := rfl
        originTtl_eq := rfl
        hitCache_eq := rfl
        learnedAt_eq := rfl
        clientIp_eq := rfl
        extra_eq := rfl }

theorem resolve_eq_none_iff : resolve ttl host q addrs now = none ↔
    wantedOf true q.wantsIpv4 addrs = [] ∧ wantedOf false q.wantsIpv6 addrs = [] := by
  rw [← family_eq_nil_iff, ← family_eq_nil_iff]
  simp [resolve, Resolution.isEmpty]

end SystemResolver

/-! ## Notes of questions -/

namespace Services

variable {τ : Type}

/-- The services, with a note of the hosts the system resolver is asked for. -/
def noting (S : Services τ) : Services (List String × τ) :=
  { S.beside with
    systemLookup := fun host (asked, w) =>
      let (addrs, w) := S.systemLookup host w
      (addrs, (asked ++ [host], w)) }

/-- The note is of no account for the services. -/
theorem accords_noting (S : Services τ) (asked : List String) :
    S.noting.Accords S fun s w => s = (asked, w) :=
  { accords_beside S asked with
    toAgrees := { (accords_beside S asked).toAgrees with } }

end Services

namespace Client

variable {τ : Type} {S : Services τ} {c : Client} {host : String} {q : QueryType} {s : State τ}

def noted (asked : List String) (s : State τ) : State (List String × τ) :=
  (s.1, s.2.1, s.2.2.1, (asked, s.2.2.2))

theorem resolveHost_noting (asked : List String) : resolveHost S.noting c host q (noted asked s)
    = ((resolveHost S c host q s).1, (resolveHost S c host q s).2.1,
      noted asked (resolveHost S c host q s).2.2) := by
  obtain ⟨hvalue, hevents, hcache, hpool, hboot, hnote⟩ :=
    resolveHost_mirrors (S.accords_noting asked) c host q (noted asked s) s ⟨rfl, rfl, rfl, rfl⟩
  exact Prod.ext hvalue (Prod.ext hevents (Prod.ext hcache (Prod.ext hpool (Prod.ext hboot hnote))))

/-! ## Lookups with a fallback -/

/-- There is no answer, or no server was there to be asked. -/
def Unanswered (outcome : Except Error (Option Resolution)) : Prop :=
  outcome = .ok none ∨ outcome = .error .noResolverAvailable

instance : DecidablePred Unanswered :=
  fun _ => inferInstanceAs (Decidable (_ ∨ _))

/-- The type that the system resolver is asked for, and the services' state when it is settled: the
detector is asked where it is left open. -/
def localType (S : Services τ) (q : QueryType) (w : τ) : QueryType × τ :=
  if q = .auto then (.ofStack (S.stack w).1, (S.stack w).2) else (q, w)

/-- What is told as the type is settled. -/
def detections (S : Services τ) (q : QueryType) (w : τ) : List Event :=
  if q = .auto then [.detected (S.stack w).1] else []

theorem resolveLocally_apply (S : Services τ) (c : Client) (host : String) (q : QueryType)
    (s : State τ) :
    resolveLocally S c host q s
      = let settled := localType S q s.2.2.2
        let known := S.systemLookup host settled.2
        (SystemResolver.resolve c.config.localFallbackTtl host settled.1 known.1
          (S.instant known.2), detections S q s.2.2.2, (s.1, s.2.1, s.2.2.1, known.2)) := by
  cases q <;> rfl

theorem resolveLocally_noting (asked : List String) :
    resolveLocally S.noting c host q (noted asked s)
      = ((resolveLocally S c host q s).1, (resolveLocally S c host q s).2.1,
        noted (asked ++ [host]) (resolveLocally S c host q s).2.2) := by
  cases q <;> rfl

/-- A lookup with a fallback is the lookup without one, and goes on where that is unanswered. -/
theorem resolveWithFallback_eq (S : Services τ) (c : Client) (host : String) (q : QueryType)
    (s : State τ) :
    resolveWithFallback S c host q s
      = let alone := resolveHost S c host q s
        let fallback := resolveLocally S c host q alone.2.2
        if Unanswered alone.1 then (.ok fallback.1, alone.2.1 ++ fallback.2.1, fallback.2.2)
        else alone := by
  simp only [resolveWithFallback, Action.bind_apply]
  generalize resolveHost S c host q s = alone
  obtain ⟨outcome, es, s'⟩ := alone
  cases outcome with
  | ok found => cases found <;> simp [Unanswered]
  | error e => cases e <;> simp [Unanswered]

theorem resolveWithFallback_noting (asked : List String) :
    resolveWithFallback S.noting c host q (noted asked s)
      = let whole := resolveWithFallback S c host q s
        let more := if Unanswered (resolveHost S c host q s).1 then [host] else []
        (whole.1, whole.2.1, noted (asked ++ more) whole.2.2) := by
  simp only [resolveWithFallback_eq, resolveHost_noting, resolveLocally_noting]
  split
  · rfl
  · rw [List.append_nil]

/-- A lookup with a fallback leaves the cache with its counters, the servers and the boot servers as
the lookup without one leaves them. It yields what that yields unless it is unanswered; only then is
the system resolver asked, once and for this host. It is asked for the type, settled by the stack if
it was left open, and its answer has the addresses of the wanted families that it knows, if there is
one. -/
theorem fallback_frames (S : Services τ) (c : Client) (host : String) (q : QueryType)
    (s : State τ) :
    let alone := resolveHost S c host q s
    let whole := resolveWithFallback S c host q s
    (whole.2.2.1 = alone.2.2.1 ∧ whole.2.2.2.1 = alone.2.2.2.1
        ∧ whole.2.2.2.2.1 = alone.2.2.2.2.1)
      ∧ (¬ Unanswered alone.1 → whole = alone)
      ∧ (Unanswered alone.1 →
        let settled := localType S q alone.2.2.2.2.2
        let known := S.systemLookup host settled.2
        ∃ found, whole.1 = .ok found
          ∧ whole.2.1 = alone.2.1 ++ detections S q alone.2.2.2.2.2
          ∧ (∀ r, found = some r → SystemResolver.Gives c.config.localFallbackTtl host settled.1
            known.1 (S.instant known.2) r)
          ∧ (found = none ↔ SystemResolver.wantedOf true settled.1.wantsIpv4 known.1 = []
            ∧ SystemResolver.wantedOf false settled.1.wantsIpv6 known.1 = []))
      ∧ ∀ asked, resolveWithFallback S.noting c host q (noted asked s)
        = (whole.1, whole.2.1,
          noted (asked ++ if Unanswered alone.1 then [host] else []) whole.2.2) := by
  intro alone whole
  have hwhole : whole = if Unanswered alone.1
      then (.ok (resolveLocally S c host q alone.2.2).1,
        alone.2.1 ++ (resolveLocally S c host q alone.2.2).2.1,
        (resolveLocally S c host q alone.2.2).2.2)
      else alone := resolveWithFallback_eq S c host q s
  refine ⟨?_, fun h => by rw [hwhole, if_neg h], fun h => ?_, fun asked =>
    resolveWithFallback_noting asked⟩
  · rw [hwhole]
    split
    · rw [resolveLocally_apply]
      exact ⟨rfl, rfl, rfl⟩
    · exact ⟨rfl, rfl, rfl⟩
  · rw [hwhole, if_pos h, resolveLocally_apply]
    exact ⟨_, rfl, rfl, fun r hr => SystemResolver.gives_of_resolve hr,
      SystemResolver.resolve_eq_none_iff⟩

/-- No server is reached, and the system knows addresses of both families, one of them twice: a
lookup whose type is left open has those of the family that the stack routes. A blank host is not
looked up at all. -/
theorem fallback_frames_unreached :
    let known : List Literal := [.ipv6 [0x2001, 0xdb8, 0, 0, 0, 0, 0, 1], .ipv4 192 0 2 2,
      .ipv4 192 0 2 1, .ipv4 192 0 2 2]
    let S := { Services.unheard fun _ => none with systemLookup := fun _ w => (known, w) }
    let c : Client := ⟨{ accountId := "100000" }, by decide⟩
    let s : State Unit := c.initial ()
    let whole := resolveWithFallback S c "a.com" .auto s
    (Unanswered (resolveHost S c "a.com" .auto s).1 ∧ ¬ Unanswered (resolveHost S c " " .auto s).1)
      ∧ (∃ r, whole.1 = .ok (some r)
        ∧ SystemResolver.Gives c.config.localFallbackTtl "a.com" .a known 0 r
        ∧ r.ips.addrs = ["192.0.2.2", "192.0.2.1"] ∧ r.ipsv6 = [])
      ∧ whole.2.2.1 = (resolveHost S c "a.com" .auto s).2.2.1
      ∧ resolveWithFallback S.noting c "a.com" .auto (noted [] s)
        = (whole.1, whole.2.1, noted ["a.com"] whole.2.2)
      ∧ resolveWithFallback S c " " .auto s = resolveHost S c " " .auto s := by
  intro known S c s whole
  obtain ⟨hframe, -, hfallback, hnote⟩ := fallback_frames S c "a.com" .auto s
  have hunanswered : Unanswered (resolveHost S c "a.com" .auto s).1 := by decide +kernel
  have hblank : ¬ Unanswered (resolveHost S c " " .auto s).1 := by decide +kernel
  obtain ⟨found, hwhole, -, hgives, hnone⟩ := hfallback hunanswered
  have hnote' := hnote []
  rw [if_pos hunanswered] at hnote'
  refine ⟨⟨hunanswered, hblank⟩, ?_, hframe.1, hnote',
    (fallback_frames S c " " .auto s).2.1 hblank⟩
  have h4 : SystemResolver.wantedOf true true known = ["192.0.2.2", "192.0.2.1"] := by
    decide +kernel
  cases found with
  | none =>
    have hnil : SystemResolver.wantedOf true true known = [] := (hnone.1 rfl).1
    rw [h4] at hnil
    cases hnil
  | some r =>
    have hr : SystemResolver.Gives c.config.localFallbackTtl "a.com" .a known 0 r := hgives r rfl
    refine ⟨r, hwhole, hr, hr.ips_eq.trans h4, ?_⟩
    by_contra hne
    cases hr.wanted_ipsv6 hne

end Client

end HttpDns
