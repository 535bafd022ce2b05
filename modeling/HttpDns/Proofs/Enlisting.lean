import HttpDns.Proofs.Avoidance
import HttpDns.Proofs.BootServers
import HttpDns.Proofs.Supply

/-!
# The servers of a pool

A pool lists each server once, in the order in which they were first offered since it was cleared
(`lists_foldl`). An addition and a bootstrap append servers that are not measured and leave the
others alone; a sample measures one server at its place, or none (`apply_changes`). So a server
stays where it is, and once it is measured it stays measured, until the pool is cleared
(`servers_kept`).
-/

namespace HttpDns

/-! ## Addresses in the order of their first mention -/

/-- The addresses that are not empty, each where it is first mentioned. -/
def firstMentions (addrs : List String) : List String :=
  (addrs.filter (· ≠ "")).eraseDups

theorem firstMentions_eq (addrs : List String) : firstMentions addrs = newcomers [] addrs :=
  (newcomers_nil addrs).symm

theorem appendUnique_nil (xs : List String) : appendUnique [] xs = firstMentions xs := by
  rw [firstMentions_eq, appendUnique_eq, List.nil_append]

theorem firstMentions_append (xs ys : List String) :
    firstMentions (xs ++ ys) = appendUnique (firstMentions xs) ys := by
  rw [← appendUnique_nil, ← appendUnique_nil, appendUnique_append]

theorem nodup_firstMentions (xs : List String) : (firstMentions xs).Nodup := by
  rw [firstMentions_eq]
  exact nodup_newcomers [] xs

theorem empty_not_mem_firstMentions (xs : List String) : "" ∉ firstMentions xs := by
  simp [firstMentions]

/-! ## One list of servers, earlier and later -/

namespace Endpoints

variable {l l' l'' : Endpoints} {addr : String}

/-- The list with endpoints appended that are not measured. -/
def Extends (l l' : Endpoints) : Prop :=
  ∃ added, l' = l ++ added ∧ ∀ e ∈ added, e.rtt = none

/-- The list with one endpoint of an address measured at its place. -/
def Remeasures (addr : String) (l l' : Endpoints) : Prop :=
  ∃ before e after rtt, e.addr = addr ∧ l = before ++ e :: after
    ∧ l' = before ++ { e with rtt := some rtt } :: after

/-- Each endpoint stays at its place, measured if it has been. -/
def Stays (l l' : Endpoints) : Prop :=
  ∀ (k : Nat) (e : Endpoint), l[k]? = some e →
    ∃ e' : Endpoint, l'[k]? = some e' ∧ e'.addr = e.addr ∧ (e.rtt.isSome → e'.rtt.isSome)

theorem extends_merge (xs : List String) (l : Endpoints) : l.Extends (l.merge xs) :=
  ⟨_, merge_eq xs l, by simp⟩

/-- A sample for an address measures the first endpoint that has it. -/
theorem remeasures_modify (sample : UInt32) : ∀ {l : Endpoints}, addr ∈ l.addrs →
    l.Remeasures addr (l.modify addr (Pool.measured sample))
  | [], h => by simp [addrs] at h
  | x :: rest, h => by
    rw [modify]
    split
    · rename_i hx
      exact ⟨[], x, rest, _, hx, rfl, rfl⟩
    · rename_i hx
      have hrest : addr ∈ addrs rest := by simpa [addrs, Ne.symm hx] using h
      obtain ⟨before, e, after, rtt, haddr, heq, heq'⟩ := remeasures_modify sample hrest
      exact ⟨x :: before, e, after, rtt, haddr, by simp [heq], by simp [heq']⟩

theorem Stays.refl (l : Endpoints) : l.Stays l := fun _ e h => ⟨e, h, rfl, id⟩

theorem Stays.trans (h : l.Stays l') (h' : l'.Stays l'') : l.Stays l'' := by
  intro k e he
  obtain ⟨e', he', haddr, hrtt⟩ := h k e he
  obtain ⟨e'', he'', haddr', hrtt'⟩ := h' k e' he'
  exact ⟨e'', he'', haddr'.trans haddr, hrtt' ∘ hrtt⟩

theorem Extends.stays (h : l.Extends l') : l.Stays l' := by
  obtain ⟨added, rfl, -⟩ := h
  intro k e he
  obtain ⟨hk, -⟩ := List.getElem?_eq_some_iff.1 he
  exact ⟨e, by rw [List.getElem?_append_left hk, he], rfl, id⟩

theorem Remeasures.stays (h : l.Remeasures addr l') : l.Stays l' := by
  obtain ⟨before, x, after, rtt, -, rfl, rfl⟩ := h
  intro k e he
  by_cases hk : k = before.length
  · subst hk
    rw [List.getElem?_append_right le_rfl, Nat.sub_self] at he
    obtain rfl : x = e := Option.some.inj he
    exact ⟨{ x with rtt := some rtt }, by simp, rfl, fun _ => rfl⟩
  · refine ⟨e, ?_, rfl, id⟩
    rw [← he, List.getElem?_append, List.getElem?_append]
    split
    · rfl
    · obtain ⟨m, hm⟩ : ∃ m, k - before.length = m + 1 :=
        ⟨k - before.length - 1, by omega⟩
      rw [hm, List.getElem?_cons_succ, List.getElem?_cons_succ]

end Endpoints

/-! ## Calls on a pool -/

/-- A roster and, in each family, what another one lists behind it. -/
def Roster.append (r other : Roster) : Roster :=
  ⟨r.ipv4 ++ other.ipv4, r.ipv6 ++ other.ipv6⟩

namespace Pool

variable {τ : Type}

/-- A call on a pool. -/
inductive Op
  | add (ipv4 ipv6 : List String)
  /-- asks the boot servers for a list of servers -/
  | bootstrap (boot : Roster)
  | update (addr : String) (sample : UInt32)
  | pick
  | pickOther (addr : String)
  | clear
  deriving DecidableEq, Repr

section

variable (S : Services τ) (c : ClientConfig)

/-- The pool after a call, and the services' own state. -/
def apply (s : Pool × τ) : Op → Pool × τ
  | .add ipv4 ipv6 => (s.1.add ipv4 ipv6, s.2)
  | .bootstrap boot => (Bootstrap.bootstrap S c boot s).2.2
  | .update addr sample => S.withPool.sample addr sample s
  | .pick => (S.withPool.pick s).2
  | .pickOther addr => (S.withPool.pickOther addr s).2
  | .clear => ({}, s.2)

/-- A new pool after some calls. -/
def run (ops : List Op) (w : τ) : Pool × τ :=
  ops.foldl (apply S c) ({}, w)

/-- The servers offered to a pool since it was cleared, after one more call. -/
def Op.record (s : Pool × τ) (offered : Roster) : Op → Roster
  | .add ipv4 ipv6 => offered.append ⟨ipv4, ipv6⟩
  | .bootstrap boot => offered.append ((Bootstrap.offer S c boot s.2).getD {})
  | .update .. | .pick | .pickOther _ => offered
  | .clear => {}

/-- The servers offered to a pool since it was cleared, after some more calls. -/
def offered : Roster → Pool × τ → List Op → Roster
  | r, _, [] => r
  | r, s, op :: rest => offered (op.record S c s r) (apply S c s op) rest

end

/-- What a call does to a pool. -/
def Op.Changes (p p' : Pool) : Op → Prop
  | .add .. | .bootstrap _ => p.ipv4.Extends p'.ipv4 ∧ p.ipv6.Extends p'.ipv6
  | .update addr _ => p' = p
      ∨ p.ipv4.Remeasures addr p'.ipv4 ∧ p'.ipv6 = p.ipv6
      ∨ p'.ipv4 = p.ipv4 ∧ p.ipv6.Remeasures addr p'.ipv6
  | .pick | .pickOther _ => p' = p
  | .clear => p' = {}

variable {S : Services τ} {c : ClientConfig}

/-- A bootstrap adds the servers it is offered, if it is offered any. -/
theorem pool_bootstrap (boot : Roster) (s : Pool × τ) :
    (Bootstrap.bootstrap S c boot s).2.2.1
      = let listed := (Bootstrap.offer S c boot s.2).getD {}
        s.1.add listed.ipv4 listed.ipv6 := by
  obtain ⟨p, w⟩ := s
  simp only [Bootstrap.bootstrap, Bootstrap.offer, Action.bind_apply, Action.beside_apply,
    Bootstrap.walk_eq_findSome]
  cases (Bootstrap.offers S c (Bootstrap.order S boot w).1 _).findSome? id <;> rfl

theorem update_changes (p : Pool) (addr : String) (sample : UInt32) :
    (Op.update addr sample).Changes p (p.update addr sample) := by
  unfold Pool.update
  split
  · rename_i h4
    exact .inr (.inl ⟨Endpoints.remeasures_modify sample (Endpoints.contains_iff.1 h4), rfl⟩)
  · by_cases h6 : addr ∈ p.ipv6.addrs
    · exact .inr (.inr ⟨rfl, Endpoints.remeasures_modify sample h6⟩)
    · -- the address is in neither list
      have hsame : p.ipv6.modify addr (measured sample) = p.ipv6 :=
        Endpoints.modify_eq_self fun x hx haddr =>
          absurd (List.mem_map.2 ⟨x, hx, haddr⟩) h6
      exact .inl (by rw [hsame])

theorem apply_changes (s : Pool × τ) (op : Op) : op.Changes s.1 (apply S c s op).1 := by
  cases op with
  | add ipv4 ipv6 => exact ⟨Endpoints.extends_merge _ _, Endpoints.extends_merge _ _⟩
  | bootstrap boot =>
    show s.1.ipv4.Extends (Bootstrap.bootstrap S c boot s).2.2.1.ipv4
      ∧ s.1.ipv6.Extends (Bootstrap.bootstrap S c boot s).2.2.1.ipv6
    rw [pool_bootstrap]
    exact ⟨Endpoints.extends_merge _ _, Endpoints.extends_merge _ _⟩
  | update addr sample => exact update_changes s.1 addr sample
  | pick | pickOther | clear => rfl

/-! ## The order of the servers -/

/-- The pool lists the servers that were offered to it, in the order of their first mention. -/
def Lists (offered : Roster) (p : Pool) : Prop :=
  p.ipv4.addrs = firstMentions offered.ipv4 ∧ p.ipv6.addrs = firstMentions offered.ipv6

theorem Lists.add {r : Roster} {p : Pool} (h : p.Lists r) (other : Roster) :
    (p.add other.ipv4 other.ipv6).Lists (r.append other) := by
  obtain ⟨h4, h6⟩ := h
  unfold Lists Pool.add Roster.append
  rw [Endpoints.addrs_merge, Endpoints.addrs_merge, firstMentions_append, firstMentions_append,
    h4, h6]
  exact ⟨rfl, rfl⟩

theorem Lists.apply {r : Roster} {s : Pool × τ} (h : s.1.Lists r) (op : Op) :
    (apply S c s op).1.Lists (op.record S c s r) := by
  cases op with
  | add ipv4 ipv6 => exact h.add ⟨ipv4, ipv6⟩
  | bootstrap boot =>
    show (Bootstrap.bootstrap S c boot s).2.2.1.Lists _
    rw [pool_bootstrap]
    exact h.add _
  | update addr sample =>
    have hsame : s.1.SameServers (s.1.update addr sample) := .update ⟨rfl, rfl⟩ addr sample
    exact ⟨hsame.1.symm.trans h.1, hsame.2.symm.trans h.2⟩
  | pick | pickOther => exact h
  | clear => exact ⟨rfl, rfl⟩

theorem lists_foldl : ∀ (ops : List Op) {r : Roster} {s : Pool × τ}, s.1.Lists r →
    (ops.foldl (Pool.apply S c) s).1.Lists (offered S c r s ops)
  | [], _, _, h => h
  | op :: ops, _, _, h => lists_foldl ops (h.apply op)

/-! ## Servers that stay -/

/-- Each server stays at its place, measured if it has been. -/
def Stays (p p' : Pool) : Prop :=
  p.ipv4.Stays p'.ipv4 ∧ p.ipv6.Stays p'.ipv6

theorem Stays.refl (p : Pool) : p.Stays p := ⟨.refl _, .refl _⟩

theorem Stays.trans {p p' p'' : Pool} (h : p.Stays p') (h' : p'.Stays p'') : p.Stays p'' :=
  ⟨h.1.trans h'.1, h.2.trans h'.2⟩

theorem Op.Changes.stays {p p' : Pool} {op : Op} (h : op.Changes p p') (hop : op ≠ .clear) :
    p.Stays p' := by
  cases op with
  | add | bootstrap => exact ⟨h.1.stays, h.2.stays⟩
  | update =>
    rcases h with rfl | ⟨h4, h6⟩ | ⟨h4, h6⟩
    · exact .refl _
    · exact ⟨h4.stays, h6 ▸ .refl _⟩
    · exact ⟨h4 ▸ .refl _, h6.stays⟩
  | pick | pickOther =>
    obtain rfl := h
    exact .refl _
  | clear => exact absurd rfl hop

theorem stays_foldl : ∀ (ops : List Op) (s : Pool × τ), .clear ∉ ops →
    s.1.Stays (ops.foldl (Pool.apply S c) s).1
  | [], s, _ => .refl s.1
  | op :: ops, s, h => by
    obtain ⟨hop, hops⟩ := List.ne_and_not_mem_of_not_mem_cons h
    exact ((apply_changes s op).stays (Ne.symm hop)).trans (stays_foldl ops _ hops)

/-- However a pool is used, each of its lists has the servers offered since it was last cleared,
without empty and repeated ones, in the order of their first mention. An addition and a bootstrap
only append servers that are not measured, a sample measures at most one server and moves none, and
what is measured stays so until the pool is cleared. -/
theorem servers_kept (S : Services τ) (c : ClientConfig) (ops : List Op) (w : τ) :
    let s := run S c ops w
    let known := offered S c {} ({}, w) ops
    (s.1.ipv4.addrs = firstMentions known.ipv4 ∧ s.1.ipv6.addrs = firstMentions known.ipv6)
      ∧ (∀ l ∈ [s.1.ipv4, s.1.ipv6], l.addrs.Nodup ∧ "" ∉ l.addrs)
      ∧ (∀ op : Op, op.Changes s.1 (run S c (ops ++ [op]) w).1)
      ∧ ∀ more, .clear ∉ more → s.1.Stays (run S c (ops ++ more) w).1 := by
  intro s known
  have hlists : s.1.Lists known := lists_foldl ops ⟨rfl, rfl⟩
  refine ⟨hlists, fun l hl => ?_, fun op => ?_, fun more hmore => ?_⟩
  · simp only [List.mem_cons, List.not_mem_nil, or_false] at hl
    rcases hl with rfl | rfl
    · rw [hlists.1]
      exact ⟨nodup_firstMentions _, empty_not_mem_firstMentions _⟩
    · rw [hlists.2]
      exact ⟨nodup_firstMentions _, empty_not_mem_firstMentions _⟩
  · rw [run, List.foldl_append]
    exact apply_changes s op
  · rw [run, List.foldl_append]
    exact stays_foldl more s hmore

/-- Of two servers offered after a clearing, one of them twice, the second is measured; it keeps its
place and its estimate through a bootstrap that lists it once more. -/
theorem servers_kept_relisted :
    let S := Client.listing.withJson
    let c : ClientConfig := { accountId := "100000" }
    let ops : List Op := [.add ["192.0.2.9"] [], .clear,
      .add ["192.0.2.1", "", "192.0.2.53", "192.0.2.1"] [], .update "192.0.2.53" 20]
    let more : List Op := [.bootstrap (Roster.ofConfig c), .update "192.0.2.1" 7, .pick]
    let s := run S c ops ()
    (.clear ∉ more ∧ Bootstrap.offer S c (Roster.ofConfig c) () = some ⟨["192.0.2.53"], []⟩)
      ∧ s.1 = ⟨[⟨"192.0.2.1", none⟩, ⟨"192.0.2.53", some 20⟩], []⟩
      ∧ s.1.ipv4.addrs = firstMentions ["192.0.2.1", "", "192.0.2.53", "192.0.2.1"]
      ∧ s.1.ipv4.addrs.Nodup
      ∧ (Op.bootstrap (Roster.ofConfig c)).Changes s.1
        (run S c (ops ++ [.bootstrap (Roster.ofConfig c)]) ()).1
      ∧ s.1.Stays (run S c (ops ++ more) ()).1 := by
  intro S c ops more s
  obtain ⟨⟨hmentions, -⟩, htidy, hchanges, hstays⟩ := servers_kept S c ops ()
  have hmore : .clear ∉ more := by decide
  exact ⟨⟨hmore, by decide +kernel⟩, by decide +kernel, hmentions,
    (htidy s.1.ipv4 List.mem_cons_self).1, hchanges _, hstays more hmore⟩

end Pool

end HttpDns
