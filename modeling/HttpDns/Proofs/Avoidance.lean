import HttpDns.Proofs.Records
import HttpDns.Proofs.Settling
import Mathlib.Data.List.Nodup
import Mathlib.Logic.Function.Iterate

/-!
# Servers that fail

Each failed exchange gives its server a sample of the whole timeout. Such a sample is an outlier,
and dropped, while three tenths of it exceed the estimate; any other one raises the estimate, until
it is a millisecond short of the timeout. A server that fails again and again is therefore left for
another one if its estimate was three tenths of the timeout at least, and kept for good otherwise
(`pick_after_failures`).
-/

namespace HttpDns

/-! ## Estimates -/

namespace Latency

theorem estimate_of_outlier {old sample : UInt32} (h : 10 * old.toNat < 3 * sample.toNat) :
    estimate (some old) sample = old := by
  rw [estimate, if_pos]
  unfold sampleTenths
  omega

theorem toNat_estimate {old sample : UInt32} (h : 3 * sample.toNat ≤ 10 * old.toNat) :
    (estimate (some old) sample).toNat = (3 * sample.toNat + 7 * old.toNat + 5) / 10 := by
  have hnot : ¬ old.toNat * 10 < sample.toNat * sampleTenths := by
    unfold sampleTenths
    omega
  rw [estimate, if_neg hnot, UInt32.toNat_ofNat_of_lt' (weighted_div_lt old sample)]
  unfold weighted sampleTenths
  congr 1
  omega

/-- The estimate after a sample has been taken some times. -/
def repeated (sample : UInt32) (n : Nat) (old : UInt32) : UInt32 :=
  (fun e => estimate (some e) sample)^[n] old

theorem repeated_succ (sample : UInt32) (n : Nat) (old : UInt32) :
    repeated sample (n + 1) old = estimate (some (repeated sample n old)) sample :=
  Function.iterate_succ_apply' _ n old

/-- A sample that is no outlier and is taken again and again draws an estimate below it up, by one
at least each time, until it is one short of the sample. -/
theorem repeated_rises {old sample : UInt32} (hlow : old.toNat < sample.toNat)
    (hin : 3 * sample.toNat ≤ 10 * old.toNat) (n : Nat) :
    min (old.toNat + n) (sample.toNat - 1) ≤ (repeated sample n old).toNat
      ∧ (repeated sample n old).toNat < sample.toNat := by
  induction n with
  | zero =>
    show min (old.toNat + 0) (sample.toNat - 1) ≤ old.toNat ∧ old.toNat < sample.toNat
    omega
  | succ n ih =>
    obtain ⟨hge, hlt⟩ := ih
    rw [repeated_succ, toNat_estimate (by omega)]
    omega

theorem repeated_eq {old sample : UInt32} (hlow : old.toNat < sample.toNat)
    (hin : 3 * sample.toNat ≤ 10 * old.toNat) {n : Nat} (hn : sample.toNat ≤ n + old.toNat + 1) :
    (repeated sample n old).toNat + 1 = sample.toNat := by
  have hrises := repeated_rises hlow hin n
  omega

theorem repeated_of_outlier {old sample : UInt32} (h : 10 * old.toNat < 3 * sample.toNat)
    (n : Nat) : repeated sample n old = old := by
  induction n with
  | zero => rfl
  | succ n ih => rw [repeated_succ, ih, estimate_of_outlier h]

end Latency

/-! ## The fastest endpoint -/

namespace Endpoint

/-- The place of an endpoint in the order of round-trip times. -/
def rank (x : Endpoint) : Nat :=
  match x.rtt with
  | none => 0
  | some rtt => rtt.toNat + 1

theorem before_iff {x y : Endpoint} : x.before y = true ↔ x.rank < y.rank := by
  obtain ⟨a, rtt⟩ := x
  obtain ⟨b, rtt'⟩ := y
  cases rtt <;> cases rtt' <;>
    simp [before, compareRtt, rank, Std.compare_eq_lt, UInt32.lt_iff_toNat_lt]

end Endpoint

namespace Endpoints

variable {l : Endpoints} {e : Endpoint} {addr : String} {f g : Endpoint → Endpoint}

/-- The fastest endpoint is one of them, and none is placed before it. -/
theorem fastest_spec : ∀ {l : Endpoints} {e : Endpoint}, fastest l = some e →
    e ∈ l ∧ ∀ x ∈ l, e.rank ≤ x.rank
  | [], _, h => by cases h
  | y :: rest, e, h => by
    rw [fastest] at h
    cases hrest : fastest rest with
    | none =>
      obtain rfl : rest = [] := Pool.fastest_eq_none.1 hrest
      rw [hrest] at h
      obtain rfl := Option.some.inj h
      simp
    | some z =>
      obtain ⟨hmem, hleast⟩ := fastest_spec hrest
      simp only [hrest] at h
      by_cases hz : z.before y = true
      · rw [if_pos hz] at h
        obtain rfl := Option.some.inj h
        rw [Endpoint.before_iff] at hz
        refine ⟨List.mem_cons_of_mem y hmem, fun x hx => ?_⟩
        rcases List.mem_cons.1 hx with rfl | hx
        · omega
        · exact hleast x hx
      · rw [if_neg hz] at h
        obtain rfl := Option.some.inj h
        rw [Endpoint.before_iff] at hz
        refine ⟨List.mem_cons_self, fun x hx => ?_⟩
        rcases List.mem_cons.1 hx with rfl | hx
        · omega
        · have hx := hleast x hx
          omega

/-! ## One endpoint changed -/

theorem modify_eq_self : ∀ {l : Endpoints}, (∀ x ∈ l, x.addr = addr → f x = x) →
    modify addr f l = l
  | [], _ => rfl
  | x :: rest, h => by
    rw [modify, modify_eq_self fun y hy => h y (List.mem_cons_of_mem x hy)]
    by_cases hx : x.addr = addr
    · rw [if_pos hx, h x List.mem_cons_self hx]
    · rw [if_neg hx]

theorem modify_modify (hf : ∀ x, (f x).addr = x.addr) : ∀ l : Endpoints,
    modify addr g (modify addr f l) = modify addr (g ∘ f) l
  | [] => rfl
  | x :: rest => by
    by_cases hx : x.addr = addr
    · simp [modify, hx, hf]
    · simp [modify, hx, modify_modify hf rest]

theorem mem_modify_of_ne {x : Endpoint} (hne : x.addr ≠ addr) : ∀ {l : Endpoints},
    x ∈ l → x ∈ modify addr f l
  | [], h => by cases h
  | y :: rest, h => by
    rw [modify]
    rcases List.mem_cons.1 h with rfl | h
    · rw [if_neg hne]
      exact List.mem_cons_self
    · split
      · exact List.mem_cons_of_mem _ h
      · exact List.mem_cons_of_mem _ (mem_modify_of_ne hne h)

/-- Where no address comes twice, what is found at the changed one has been changed. -/
theorem eq_of_mem_modify (hf : ∀ x, (f x).addr = x.addr) {y : Endpoint} (hy : y.addr = addr) :
    ∀ {l : Endpoints}, (addrs l).Nodup → y ∈ modify addr f l →
      ∃ x ∈ l, x.addr = addr ∧ y = f x
  | [], _, h => by cases h
  | x :: rest, hnodup, h => by
    obtain ⟨hnot, hrest⟩ := List.nodup_cons.1 hnodup
    rw [modify] at h
    by_cases hx : x.addr = addr
    · rw [if_pos hx] at h
      rcases List.mem_cons.1 h with rfl | h
      · exact ⟨x, List.mem_cons_self, hx, rfl⟩
      · exact absurd (List.mem_map.2 ⟨y, h, hy.trans hx.symm⟩) hnot
    · rw [if_neg hx] at h
      rcases List.mem_cons.1 h with rfl | h
      · exact absurd hy hx
      · obtain ⟨x', hmem, haddr, rfl⟩ := eq_of_mem_modify hf hy hrest h
        exact ⟨x', List.mem_cons_of_mem x hmem, haddr, rfl⟩

theorem nodup_merge : ∀ (xs : List String) {l : Endpoints}, (addrs l).Nodup →
    (addrs (l.merge xs)).Nodup
  | [], _, h => h
  | x :: rest, l, h => by
    rw [merge]
    split
    · exact nodup_merge rest h
    · rename_i hnew
      refine nodup_merge rest ?_
      have hnot : ∀ e ∈ l, e.addr ≠ x := by simpa [contains] using (not_or.1 hnew).2
      simpa [addrs, List.nodup_append] using ⟨h, hnot⟩

theorem exists_other (hnodup : (addrs l).Nodup) (hmany : 2 ≤ l.length) (addr : String) :
    ∃ y ∈ l, y.addr ≠ addr := by
  rcases l with _ | ⟨x, _ | ⟨y, rest⟩⟩
  · simp at hmany
  · simp at hmany
  · by_cases hx : x.addr = addr
    · refine ⟨y, by simp, fun hy => ?_⟩
      simp [addrs, hx, hy] at hnodup
    · exact ⟨x, by simp, hx⟩

end Endpoints

/-! ## Pools -/

namespace Pool

/-- The pools that come about as servers are added and measured; a cleared one is empty again. -/
inductive Reached : Pool → Prop
  | empty : Reached {}
  | added {p : Pool} (h : Reached p) (ipv4 ipv6 : List String) : Reached (p.add ipv4 ipv6)
  | updated {p : Pool} (h : Reached p) (addr : String) (sample : UInt32) :
      Reached (p.update addr sample)

theorem Reached.nodup {p : Pool} (h : Reached p) (stack : Stack) :
    (p.servers stack).addrs.Nodup := by
  have hboth : p.ipv4.addrs.Nodup ∧ p.ipv6.addrs.Nodup := by
    induction h with
    | empty => exact ⟨List.nodup_nil, List.nodup_nil⟩
    | added _ ipv4 ipv6 ih =>
      exact ⟨Endpoints.nodup_merge ipv4 ih.1, Endpoints.nodup_merge ipv6 ih.2⟩
    | @updated p _ addr sample ih =>
      have hsame : p.SameServers (p.update addr sample) := .update ⟨rfl, rfl⟩ addr sample
      exact ⟨hsame.1 ▸ ih.1, hsame.2 ▸ ih.2⟩
  cases stack with
  | ipv6Only => exact hboth.2
  | unknown | ipv4Only | dual => exact hboth.1

/-- A sample for an address is taken by the servers of a stack. -/
def Takes (p : Pool) (stack : Stack) (addr : String) : Prop :=
  p.ipv4.contains addr = true ↔ stack ≠ .ipv6Only

variable {p : Pool} {stack : Stack} {addr : String} {sample : UInt32}

theorem servers_update (h : p.Takes stack addr) :
    (p.update addr sample).servers stack = (p.servers stack).modify addr (measured sample) := by
  unfold Takes at h
  unfold update
  cases stack <;> simp_all [servers]

theorem takes_of_mem {e : Endpoint} (he : e ∈ p.servers stack)
    (hown : stack = .ipv6Only → p.ipv4.contains e.addr = false) : p.Takes stack e.addr := by
  by_cases hs : stack = .ipv6Only
  · simp [Takes, hs, hown hs]
  · have he4 : e ∈ p.ipv4 := by cases stack <;> first | exact he | exact absurd rfl hs
    simpa [Takes, hs, Endpoints.contains] using ⟨e, he4, rfl⟩

theorem Takes.update (h : p.Takes stack addr) : (p.update addr sample).Takes stack addr := by
  have hsame : p.SameServers (p.update addr sample) := .update ⟨rfl, rfl⟩ addr sample
  rwa [Takes, Endpoints.contains_iff, ← hsame.1, ← Endpoints.contains_iff]

theorem addr_measured (sample : UInt32) (x : Endpoint) : (measured sample x).addr = x.addr := rfl

theorem addr_iterate_measured (sample : UInt32) (n : Nat) (x : Endpoint) :
    ((measured sample)^[n] x).addr = x.addr := by
  induction n with
  | zero => rfl
  | succ n ih =>
    rw [Function.iterate_succ_apply', addr_measured, ih]

/-- Samples for one address change one endpoint. -/
theorem servers_iterate_update (sample : UInt32) (n : Nat) : ∀ {p : Pool}, p.Takes stack addr →
    ((·.update addr sample)^[n] p).servers stack
      = (p.servers stack).modify addr (measured sample)^[n] := by
  induction n with
  | zero => exact fun _ => (Endpoints.modify_eq_self fun _ _ _ => rfl).symm
  | succ n ih =>
    intro p h
    rw [Function.iterate_succ_apply, ih h.update, servers_update h,
      Endpoints.modify_modify (addr_measured sample), Function.iterate_succ]

theorem iterate_measured (addr : String) (old sample : UInt32) (n : Nat) :
    (measured sample)^[n] ⟨addr, some old⟩ = ⟨addr, some (Latency.repeated sample n old)⟩ := by
  induction n with
  | zero => rfl
  | succ n ih =>
    rw [Function.iterate_succ_apply', ih, Latency.repeated_succ]
    rfl

/-! ## One server sampled again and again -/

section

variable {l : Endpoints} {old : UInt32} (hnodup : l.addrs.Nodup) (he : ⟨addr, some old⟩ ∈ l)

include hnodup he

theorem modify_of_outlier (hout : 10 * old.toNat < 3 * sample.toNat) (n : Nat) :
    l.modify addr (measured sample)^[n] = l := by
  refine Endpoints.modify_eq_self fun x hx haddr => ?_
  rw [List.inj_on_of_nodup_map hnodup hx he haddr, iterate_measured,
    Latency.repeated_of_outlier hout]

/-- Raised to one short of the sample, the server is not the fastest any more. -/
theorem addr_fastest_ne (hmany : 2 ≤ l.length)
    (hshort : ∀ x ∈ l, ∃ rtt, x.rtt = some rtt ∧ rtt.toNat + 2 ≤ sample.toNat) {n : Nat}
    (hraised : (Latency.repeated sample n old).toNat + 1 = sample.toNat) :
    ∃ e, (l.modify addr (measured sample)^[n]).fastest = some e ∧ e.addr ≠ addr := by
  obtain ⟨y, hy, hother⟩ := Endpoints.exists_other hnodup hmany addr
  obtain ⟨rtt, hrtt, hle⟩ := hshort y hy
  have hy' := Endpoints.mem_modify_of_ne (f := (measured sample)^[n]) hother hy
  cases hfastest : (l.modify addr (measured sample)^[n]).fastest with
  | none =>
    rw [fastest_eq_none.1 hfastest] at hy'
    cases hy'
  | some e =>
    refine ⟨e, rfl, fun haddr => ?_⟩
    obtain ⟨hmem, hleast⟩ := Endpoints.fastest_spec hfastest
    obtain ⟨x, hx, hxaddr, rfl⟩ := Endpoints.eq_of_mem_modify
      (addr_iterate_measured sample n) haddr hnodup hmem
    have hrank := hleast y hy'
    rw [List.inj_on_of_nodup_map hnodup hx he hxaddr, iterate_measured] at hrank
    simp only [Endpoint.rank, hrtt] at hrank
    omega

end

end Pool

/-! ## Failed exchanges -/

namespace Job

variable {τ : Type} {S : Services τ} {server : String} {t n : Nat} {p p' : Pool} {stack : Stack}

/-- An exchange with a server fails, in a job over a pool, and its reply is read. -/
def FailedOnce (S : Services τ) (server : String) (timeoutMs : Nat) (p p' : Pool) : Prop :=
  ∃ i q out reply w, out.exchange.server = server ∧ out.request.timeoutMs.toNat = timeoutMs
    ∧ (land S.withPool i q out reply (p, w)).1.outcome = .failed out
    ∧ (land S.withPool i q out reply (p, w)).2.2.1 = p'

/-- As many exchanges with a server fail, one after the other. -/
inductive Failed (S : Services τ) (server : String) (timeoutMs : Nat) : Nat → Pool → Pool → Prop
  | none (p : Pool) : Failed S server timeoutMs 0 p p
  | more {n : Nat} {p p₁ p' : Pool} (first : FailedOnce S server timeoutMs p p₁)
      (rest : Failed S server timeoutMs n p₁ p') : Failed S server timeoutMs (n + 1) p p'

theorem usable_pool (S : Services τ) (r : Request) (reply : Reply) (p : Pool) (w : τ) :
    (usable S.withPool r reply (p, w)).2.2.1 = p := by
  have hread : ∀ body, (readBody S.withPool r body (p, w)).2.2.1 = p := by
    intro body
    unfold readBody
    split
    · rfl
    · simp only [Action.bind_apply, Action.call_apply]
      cases (S.withPool.readSingle body (p, w)).1 <;> rfl
  cases reply with
  | error fault => rfl
  | ok response =>
    simp only [usable]
    split
    · simp only [Action.bind_apply]
      cases (readBody S.withPool r response.body (p, w)).1.filter (!·.isEmpty) <;>
        exact hread response.body
    · rfl

theorem FailedOnce.pool_eq (h : FailedOnce S server t p p') :
    p' = p.update server (UInt32.ofNat (min t (UInt32.size - 1))) := by
  obtain ⟨i, q, out, reply, w, rfl, rfl, hfailed, rfl⟩ := h
  have hpool := usable_pool S out.request reply p w
  simp only [land, Action.bind_apply] at hfailed ⊢
  cases hu : (usable S.withPool out.request reply (p, w)).1 with
  | some got =>
    rw [hu] at hfailed
    cases hfailed
  | none =>
    show Pool.update (usable S.withPool out.request reply (p, w)).2.2.1 _ _ = _
    rw [hpool]
    rfl

theorem failedOnce_update (S : Services τ) (w : τ) (server : String) (timeoutMs : UInt64)
    (p : Pool) : FailedOnce S server timeoutMs.toNat p
      (p.update server (UInt32.ofNat (min timeoutMs.toNat (UInt32.size - 1)))) :=
  ⟨0, .ofRequest { host := "", accountId := "", timeoutMs } false 0,
    ⟨{ host := "", accountId := "", timeoutMs }, ⟨"", server, timeoutMs⟩⟩, .error (.timeout 0), w,
    rfl, rfl, rfl, rfl⟩

theorem failed_iterate (S : Services τ) (w : τ) (server : String) (timeoutMs : UInt64) :
    ∀ (n : Nat) (p : Pool), Failed S server timeoutMs.toNat n p
      ((·.update server (UInt32.ofNat (min timeoutMs.toNat (UInt32.size - 1))))^[n] p)
  | 0, p => .none p
  | n + 1, p => .more (failedOnce_update S w server timeoutMs p)
      (failed_iterate S w server timeoutMs n _)

theorem Failed.pool_eq (h : Failed S server t n p p') :
    p' = (·.update server (UInt32.ofNat (min t (UInt32.size - 1))))^[n] p := by
  induction h with
  | none => rfl
  | more first _ ih => rw [ih, first.pool_eq, Function.iterate_succ_apply]

theorem Failed.eq_self (h : Failed S server t n p p')
    (hdropped : p.update server (UInt32.ofNat (min t (UInt32.size - 1))) = p) : p' = p := by
  rw [h.pool_eq]
  exact Function.iterate_fixed hdropped n

/-- A server that fails again and again, on a stack with another one, all of them measured short of
the timeout: if three tenths of the timeout exceed its estimate it is handed out as before, however
often it fails; if not, another one is, as soon as it has failed once for each millisecond by which
its estimate falls short of the timeout. -/
theorem pick_after_failures {e : Endpoint} {old : UInt32} (hp : p.Reached)
    (hmany : 2 ≤ (p.servers stack).length)
    (hmeasured : ∀ x ∈ p.servers stack, ∃ rtt, x.rtt = some rtt ∧ rtt.toNat + 2 ≤ t)
    (ht : t < UInt32.size) (hpick : p.pick stack = some e) (hold : e.rtt = some old)
    (hown : stack = .ipv6Only → p.ipv4.contains e.addr = false)
    (hfailed : Failed S e.addr t n p p') :
    (10 * old.toNat < 3 * t → p'.pick stack = some e)
      ∧ (3 * t ≤ 10 * old.toNat → t ≤ n + old.toNat + 1 →
        ∃ e', p'.pick stack = some e' ∧ e'.addr ≠ e.addr) := by
  obtain ⟨hmem, -⟩ := Endpoints.fastest_spec hpick
  obtain ⟨addr, rtt⟩ := e
  obtain rfl : rtt = some old := hold
  have hnodup := hp.nodup stack
  have hservers := Pool.servers_iterate_update (UInt32.ofNat (min t (UInt32.size - 1))) n
    (Pool.takes_of_mem hmem hown)
  rw [← hfailed.pool_eq] at hservers
  have hpenalty : (UInt32.ofNat (min t (UInt32.size - 1))).toNat = t := by
    rw [UInt32.toNat_ofNat_of_lt' (by omega)]
    omega
  generalize UInt32.ofNat (min t (UInt32.size - 1)) = sample at hservers hpenalty
  subst hpenalty
  rw [Pool.pick, hservers]
  constructor
  · intro hout
    rw [Pool.modify_of_outlier hnodup hmem hout]
    exact hpick
  · intro hin hn
    obtain ⟨rtt, hrtt, hlow⟩ := hmeasured _ hmem
    cases hrtt
    exact Pool.addr_fastest_ne hnodup hmem hmany hmeasured
      (Latency.repeated_eq (by omega) hin hn)

/-- Of two servers the one at 1500 ms is left after 999 failures; one at 20 ms is kept after as
many. -/
theorem pick_after_failures_both :
    let S := Services.unheard fun _ => none
    let pool (fast slow : UInt32) : Pool :=
      ((({} : Pool).add ["192.0.2.1", "192.0.2.2"] []).update "192.0.2.1" fast).update
        "192.0.2.2" slow
    (∃ p', Failed S "192.0.2.1" 2500 999 (pool 1500 1600) p'
        ∧ ∃ e, p'.pick .ipv4Only = some e ∧ e.addr ≠ "192.0.2.1")
      ∧ ∃ p', Failed S "192.0.2.1" 2500 999 (pool 20 30) p'
        ∧ p'.pick .ipv4Only = some ⟨"192.0.2.1", some 20⟩ := by
  intro S pool
  have hreached : ∀ fast slow, (pool fast slow).Reached := fun fast slow =>
    ((Pool.Reached.empty.added _ _).updated _ fast).updated _ slow
  have hservers : ∀ fast slow, (pool fast slow).servers .ipv4Only
      = [⟨"192.0.2.1", some fast⟩, ⟨"192.0.2.2", some slow⟩] := fun _ _ => rfl
  have hmany : ∀ fast slow, 2 ≤ ((pool fast slow).servers .ipv4Only).length := fun _ _ => le_rfl
  have hmeasured : ∀ {fast slow : UInt32}, fast.toNat ≤ 2498 → slow.toNat ≤ 2498 →
      ∀ x ∈ (pool fast slow).servers .ipv4Only, ∃ rtt, x.rtt = some rtt ∧ rtt.toNat + 2 ≤ 2500 := by
    intro fast slow hfast hslow x hx
    rw [hservers] at hx
    rcases List.mem_cons.1 hx with rfl | hx
    · exact ⟨fast, rfl, by omega⟩
    · rw [List.mem_singleton.1 hx]
      exact ⟨slow, rfl, by omega⟩
  have hfailed := fun p => failed_iterate S () "192.0.2.1" 2500 999 p
  have hleft := pick_after_failures (e := ⟨"192.0.2.1", some 1500⟩) (hreached 1500 1600)
    (hmany 1500 1600) (hmeasured (by decide) (by decide)) (by decide) (by decide) rfl
    (by simp) (hfailed _)
  have hkept := pick_after_failures (e := ⟨"192.0.2.1", some 20⟩) (hreached 20 30)
    (hmany 20 30) (hmeasured (by decide) (by decide)) (by decide) (by decide) rfl
    (by simp) (hfailed _)
  exact ⟨⟨_, hfailed _, hleft.2 (by decide) (by decide)⟩, ⟨_, hfailed _, hkept.1 (by decide)⟩⟩

theorem ipv6_iterate_update {addr : String} {sample : UInt32} : ∀ (n : Nat) {p : Pool},
    p.ipv4.contains addr = true → ((·.update addr sample)^[n] p).ipv6 = p.ipv6
  | 0, _, _ => rfl
  | n + 1, p, h => by
    have htakes : p.Takes .ipv4Only addr := iff_of_true h (by decide)
    have hnext : (p.update addr sample).Takes .ipv4Only addr := htakes.update
    rw [Function.iterate_succ_apply, ipv6_iterate_update n (hnext.2 (by decide)), Pool.update,
      if_pos h]

/-- A server is kept however often it fails where it is much faster than the timeout, and on an
IPv6-only stack where its address is listed among the IPv4 servers, too, which take its samples. -/
theorem kept_though_failing :
    let quick := (((({} : Pool).add ["192.0.2.1", "192.0.2.2"] []).update "192.0.2.1" 20).update
      "192.0.2.2" 30)
    let shadowed := (((({} : Pool).add [] ["2001:db8::1", "2001:db8::2"]).update
      "2001:db8::1" 1500).update "2001:db8::2" 1600).add ["2001:db8::1"] []
    (quick.Reached ∧ quick.servers .ipv4Only = [⟨"192.0.2.1", some 20⟩, ⟨"192.0.2.2", some 30⟩]
        ∧ ∀ {τ : Type} {S : Services τ} {n : Nat} {p' : Pool},
          Failed S "192.0.2.1" 2500 n quick p' →
            p'.pick .ipv4Only = some ⟨"192.0.2.1", some 20⟩)
      ∧ shadowed.Reached
        ∧ shadowed.servers .ipv6Only = [⟨"2001:db8::1", some 1500⟩, ⟨"2001:db8::2", some 1600⟩]
        ∧ ∀ {τ : Type} {S : Services τ} {n : Nat} {p' : Pool},
          Failed S "2001:db8::1" 2500 n shadowed p' →
            p'.pick .ipv6Only = some ⟨"2001:db8::1", some 1500⟩ := by
  intro quick shadowed
  refine ⟨⟨((Pool.Reached.empty.added _ _).updated _ _).updated _ _, rfl, fun hfailed => ?_⟩,
    (((Pool.Reached.empty.added _ _).updated _ _).updated _ _).added _ _, rfl, fun hfailed => ?_⟩
  · rw [hfailed.eq_self (by decide)]
    decide
  · have htaken : shadowed.ipv4.contains "2001:db8::1" = true := by decide
    rw [hfailed.pool_eq, Pool.pick, Pool.servers, ipv6_iterate_update _ htaken]
    decide

end Job

end HttpDns
