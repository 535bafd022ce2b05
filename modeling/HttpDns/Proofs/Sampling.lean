import HttpDns.Proofs.Enlisting
import HttpDns.Proofs.Selection

/-!
# Samples of the server that was drawn

Servers are drawn from the list of the stack, while a sample goes to the IPv4 server at an address
if there is one. So a sample of the server drawn reaches the estimate that it was drawn by, unless
the stack is IPv6-only and the address is listed in both families: then none ever does, and a server
that is not measured is drawn as such again (`sample_reaches_iff`).
-/

namespace HttpDns

namespace Endpoints

variable {l l' : Endpoints} {e : Endpoint} {addr : String} {f : Endpoint → Endpoint}

theorem find_of_mem (hnodup : l.addrs.Nodup) (he : e ∈ l) : l.find e.addr = some e := by
  cases h : l.find e.addr with
  | none => simpa using List.find?_eq_none.1 h e he
  | some x =>
    have haddr : x.addr = e.addr := by simpa using List.find?_some h
    rw [List.inj_on_of_nodup_map hnodup (List.mem_of_find?_eq_some h) he haddr]

theorem find_modify (hf : ∀ x, (f x).addr = x.addr) : ∀ l : Endpoints,
    (l.modify addr f).find addr = (l.find addr).map f
  | [] => rfl
  | x :: rest => by
    by_cases hx : x.addr = addr
    · simp [modify, find, hx, hf]
    · simpa [modify, find, hx] using find_modify hf rest

/-- A server that is measured is found, and measured, wherever it stays. -/
theorem Stays.find (h : l.Stays l') (hnodup : l'.addrs.Nodup) (he : e ∈ l) :
    ∃ e', l'.find e.addr = some e' ∧ (e.rtt.isSome → e'.rtt.isSome) := by
  obtain ⟨k, hk⟩ := List.getElem?_of_mem he
  obtain ⟨e', hk', haddr, hrtt⟩ := h k e hk
  exact ⟨e', haddr ▸ find_of_mem hnodup (List.mem_of_getElem? hk'), hrtt⟩

theorem Extends.mem (h : l.Extends l') (he : e ∈ l) : e ∈ l' := by
  obtain ⟨added, rfl, -⟩ := h
  exact List.mem_append_left _ he

end Endpoints

namespace Pool

variable {τ : Type} {S : Services τ} {c : ClientConfig} {p : Pool} {stack : Stack} {e : Endpoint}
  {addr : String}

theorem mem_of_pick (h : p.pick stack = some e) : e ∈ p.servers stack :=
  (Endpoints.foremost_of_fastest h).mem

theorem mem_of_pickOther (h : p.pickOther stack addr = some e) : e ∈ p.servers stack := by
  rw [pickOther_eq] at h
  split at h
  · exact mem_of_pick h
  · have hleft := mem_of_pick h
    rw [servers_without] at hleft
    exact List.mem_of_mem_filter hleft

/-- Samples for an address go to an IPv4 server, on a stack that does not use it. -/
def Misses (p : Pool) (stack : Stack) (addr : String) : Prop :=
  stack = .ipv6Only ∧ p.ipv4.contains addr = true

/-- An IPv6 server whose address is listed among the IPv4 servers, too. -/
structure Shadowed (p : Pool) (e : Endpoint) : Prop where
  listed : e ∈ p.ipv6
  taken : p.ipv4.contains e.addr = true

theorem Misses.shadowed (h : p.Misses stack e.addr) (he : e ∈ p.servers stack) : p.Shadowed e := by
  obtain ⟨rfl, htaken⟩ := h
  exact ⟨he, htaken⟩

theorem Shadowed.update (h : p.Shadowed e) (addr : String) (sample : UInt32) :
    (p.update addr sample).Shadowed e := by
  have hsame : p.SameServers (p.update addr sample) := .update ⟨rfl, rfl⟩ addr sample
  refine ⟨?_, ?_⟩
  · unfold Pool.update
    split
    · exact h.listed
    · rename_i hnot
      refine Endpoints.mem_modify_of_ne (fun haddr => hnot ?_) h.listed
      exact haddr ▸ h.taken
  · rw [Endpoints.contains_iff, ← hsame.1, ← Endpoints.contains_iff]
    exact h.taken

theorem Shadowed.extends {p' : Pool} (h : p.Shadowed e) (h4 : p.ipv4.Extends p'.ipv4)
    (h6 : p.ipv6.Extends p'.ipv6) : p'.Shadowed e := by
  obtain ⟨x, hx, haddr⟩ := List.mem_map.1 (Endpoints.contains_iff.1 h.taken)
  exact ⟨h6.mem h.listed, Endpoints.contains_iff.2 (List.mem_map.2 ⟨x, h4.mem hx, haddr⟩)⟩

/-- No call but a clearing changes the estimate of a server whose samples another one takes. -/
theorem Shadowed.apply {s : Pool × τ} (h : s.1.Shadowed e) {op : Op} (hop : op ≠ .clear) :
    (apply S c s op).1.Shadowed e := by
  have hchanges : op.Changes s.1 (Pool.apply S c s op).1 := apply_changes s op
  cases op with
  | add | bootstrap => exact h.extends hchanges.1 hchanges.2
  | update addr sample => exact h.update addr sample
  | pick | pickOther => exact h
  | clear => exact absurd rfl hop

theorem Shadowed.foldl : ∀ (ops : List Op) {s : Pool × τ}, s.1.Shadowed e → .clear ∉ ops →
    (ops.foldl (Pool.apply S c) s).1.Shadowed e
  | [], _, h, _ => h
  | _ :: ops, _, h, hops => by
    obtain ⟨hop, hops⟩ := List.ne_and_not_mem_of_not_mem_cons hops
    exact (h.apply (Ne.symm hop)).foldl ops hops

theorem nodup_run (ops : List Op) (w : τ) (stack : Stack) :
    ((run S c ops w).1.servers stack).addrs.Nodup := by
  have hlists : (run S c ops w).1.Lists (offered S c {} ({}, w) ops) := lists_foldl ops ⟨rfl, rfl⟩
  cases stack with
  | ipv6Only => exact hlists.2 ▸ nodup_firstMentions _
  | unknown | ipv4Only | dual => exact hlists.1 ▸ nodup_firstMentions _

theorem Stays.servers {p' : Pool} (h : p.Stays p') (stack : Stack) :
    (p.servers stack).Stays (p'.servers stack) := by
  cases stack with
  | ipv6Only => exact h.2
  | unknown | ipv4Only | dual => exact h.1

section

variable {ops more : List Op} {w : τ}

/-- Of a server that misses its samples, the estimate stays what it is until the pool is cleared. -/
theorem find_of_misses (hmisses : (run S c ops w).1.Misses stack e.addr)
    (he : e ∈ (run S c ops w).1.servers stack) (hmore : .clear ∉ more) :
    ((run S c (ops ++ more) w).1.servers stack).find e.addr = some e := by
  refine Endpoints.find_of_mem (nodup_run _ w stack) ?_
  have hkept := (hmisses.shadowed he).foldl (S := S) (c := c) more hmore
  rw [run, List.foldl_append, hmisses.1]
  exact hkept.listed

/-- A sample that is not missed is folded into the estimate that the server was drawn by. -/
theorem find_update (hmisses : ¬ p.Misses stack e.addr) (he : e ∈ p.servers stack)
    (hnodup : (p.servers stack).addrs.Nodup) (x : UInt32) :
    ((p.update e.addr x).servers stack).find e.addr = some (measured x e) := by
  have htakes : p.Takes stack e.addr := takes_of_mem he fun hstack => by
    simpa [Misses, hstack] using hmisses
  rw [servers_update htakes, Endpoints.find_modify (addr_measured x),
    Endpoints.find_of_mem hnodup he, Option.map_some]

/-- What is measured stays so until the pool is cleared. -/
theorem find_of_measured (he : e ∈ (run S c ops w).1.servers stack) (hrtt : e.rtt.isSome)
    (hmore : .clear ∉ more) :
    ∃ e', ((run S c (ops ++ more) w).1.servers stack).find e.addr = some e' ∧ e'.rtt.isSome := by
  have hstays : (run S c ops w).1.Stays (run S c (ops ++ more) w).1 := by
    rw [run, run, List.foldl_append]
    exact stays_foldl more _ hmore
  obtain ⟨e', hfind, hmeasured⟩ := (hstays.servers stack).find (nodup_run _ w stack) he
  exact ⟨e', hfind, hmeasured hrtt⟩

end

/-- A sample of the server that was drawn for a stack is folded into the estimate that it was drawn
by, and the server is measured from then on until the pool is cleared, exactly unless the stack is
IPv6-only and the address listed among the IPv4 servers, too. There the entry that was drawn stays
as it is until the pool is cleared: it shows the sample only where that makes no difference, and it
is measured later only if it was before. -/
theorem sample_reaches_iff (S : Services τ) (c : ClientConfig) (ops : List Op) (w : τ) (x : UInt32)
    (hdrawn : (run S c ops w).1.pick stack = some e
      ∨ ∃ addr, (run S c ops w).1.pickOther stack addr = some e) :
    let misses := (run S c ops w).1.Misses stack e.addr
    let found (more : List Op) :=
      ((run S c (ops ++ .update e.addr x :: more) w).1.servers stack).find e.addr
    (found [] = some (measured x e) ↔ ¬ misses ∨ e.rtt = some (Latency.estimate e.rtt x))
      ∧ ((∀ more, .clear ∉ more → ∃ e', found more = some e' ∧ e'.rtt.isSome)
        ↔ ¬ misses ∨ e.rtt.isSome)
      ∧ (misses → ∀ more, .clear ∉ more → found more = some e) := by
  intro misses found
  have he : e ∈ (run S c ops w).1.servers stack := by
    rcases hdrawn with h | ⟨addr, h⟩
    · exact mem_of_pick h
    · exact mem_of_pickOther h
  have hmissed : misses → ∀ more, .clear ∉ more → found more = some e := by
    intro hmisses more hmore
    exact find_of_misses hmisses he (by simpa using hmore)
  have hreached : ¬ misses → found [] = some (measured x e) := by
    intro hmisses
    show ((run S c (ops ++ [.update e.addr x]) w).1.servers stack).find e.addr = _
    rw [run, List.foldl_append]
    exact find_update hmisses he (nodup_run ops w stack) x
  refine ⟨⟨fun h => ?_, fun h => ?_⟩, ⟨fun h => ?_, fun h more hmore => ?_⟩, hmissed⟩
  · by_cases hmisses : misses
    · rw [hmissed hmisses [] List.not_mem_nil] at h
      exact .inr (congrArg Endpoint.rtt (Option.some.inj h))
    · exact .inl hmisses
  · by_cases hmisses : misses
    · rw [hmissed hmisses [] List.not_mem_nil, measured, ← h.resolve_left (not_not.2 hmisses)]
    · exact hreached hmisses
  · by_cases hmisses : misses
    · obtain ⟨e', hfound, hrtt⟩ := h [] List.not_mem_nil
      rw [hmissed hmisses [] List.not_mem_nil] at hfound
      obtain rfl := Option.some.inj hfound
      exact .inr hrtt
    · exact .inl hmisses
  · by_cases hmisses : misses
    · exact ⟨e, hmissed hmisses more hmore, h.resolve_left (not_not.2 hmisses)⟩
    · -- measured by this sample, and so ever after
      have hmeasured : measured x e ∈
          (run S c (ops ++ [.update e.addr x]) w).1.servers stack :=
        List.mem_of_find?_eq_some (hreached hmisses)
      have hlater := find_of_measured hmeasured rfl hmore
      rwa [List.append_assoc] at hlater

/-- Of two IPv6 servers that are not measured, the sample of the one that is listed among the IPv4
servers, too, is missed, and that of the other one is not. -/
theorem sample_reaches_other :
    let S := Services.unheard fun _ => none
    let c : ClientConfig := { accountId := "100000" }
    let ops : List Op := [.add ["2001:db8::1"] ["2001:db8::1", "2001:db8::2"]]
    let p := (run S c ops ()).1
    let found (addr : String) (more : List Op) :=
      ((run S c (ops ++ .update addr 20 :: more) ()).1.servers .ipv6Only).find addr
    p.pick .ipv6Only = some ⟨"2001:db8::1", none⟩
      ∧ p.pickOther .ipv6Only "2001:db8::1" = some ⟨"2001:db8::2", none⟩
      ∧ p.Misses .ipv6Only "2001:db8::1" ∧ ¬ p.Misses .ipv6Only "2001:db8::2"
      ∧ (∀ more, .clear ∉ more → found "2001:db8::1" more = some ⟨"2001:db8::1", none⟩)
      ∧ found "2001:db8::2" [] = some ⟨"2001:db8::2", some 20⟩ := by
  intro S c ops p found
  have hpick : p.pick .ipv6Only = some ⟨"2001:db8::1", none⟩ := by decide
  have hother : p.pickOther .ipv6Only "2001:db8::1" = some ⟨"2001:db8::2", none⟩ := by decide
  have hmisses : p.Misses .ipv6Only "2001:db8::1" := ⟨rfl, by decide⟩
  have hheard : ¬ p.Misses .ipv6Only "2001:db8::2" := fun h => absurd h.2 (by decide)
  exact ⟨hpick, hother, hmisses, hheard,
    (sample_reaches_iff S c ops () 20 (.inl hpick)).2.2 hmisses,
    (sample_reaches_iff S c ops () 20 (.inr ⟨_, hother⟩)).1.2 (.inl hheard)⟩

/-- A schedule may list one address in both families. On an IPv6-only stack the server is drawn, and
sampled, and is drawn as not measured again. -/
theorem sampled_unmeasured :
    let S := Services.unheard fun _ => none
    let c : ClientConfig := { accountId := "100000" }
    let ops : List Op := [.add ["2001:db8::53"] ["2001:db8::53"]]
    let e : Endpoint := ⟨"2001:db8::53", none⟩
    let later := (run S c (ops ++ [.update e.addr 20]) ()).1
    (run S c ops ()).1.pick .ipv6Only = some e
      ∧ ¬ (later.servers .ipv6Only).find e.addr = some (measured 20 e)
      ∧ later.pick .ipv6Only = some e := by
  decide

end Pool

end HttpDns
