import Mathlib.Data.List.Chain
import HttpDns.Proofs.Persistence

/-!
# How old a cached address may be

An entry expires with the last answer that came in under its key, whether it carried the entry's
addresses or not, because a merge keeps the addresses and takes over the lifetimes. So an address
that a lookup finds comes from an answer that has not expired, or it was handed on: answers without
it came in one after the other, each while the one before it was live, and the last of them has not
expired (`lookup_relayed`). An address that was handed on may be older than its own answer allowed
(`served_past_expiry`).
-/

namespace HttpDns

/-! ## Addresses that are handed on -/

/-- An answer carries an address, none of the later ones does, and each of them was learned before
the one before it had expired. -/
structure Handed (family : Resolution → Endpoints) (a : String) (e : Resolution)
    (later : List Resolution) : Prop where
  carries : a ∈ (family e).addrs
  without : ∀ l ∈ later, a ∉ (family l).addrs
  live : (e :: later).IsChain fun x y => y.learnedAt < x.expiresAt

/-- Some answers have handed an address on to the last of them. -/
def Relayed (family : Resolution → Endpoints) (answers : List Resolution) (a : String) : Prop :=
  ∃ before e later, answers = before ++ e :: later ∧ Handed family a e later

namespace Relayed

variable {family : Resolution → Endpoints} {answers : List Resolution} {a : String}
  {r stored update : Resolution}

theorem of_carries (answers : List Resolution) (h : a ∈ (family r).addrs) :
    Relayed family (answers ++ [r]) a :=
  ⟨answers, r, [], rfl, h, by simp, .singleton r⟩

theorem snoc (h : Relayed family answers a) (hr : a ∉ (family r).addrs)
    (hlive : ∀ e ∈ answers.getLast?, r.learnedAt < e.expiresAt) :
    Relayed family (answers ++ [r]) a := by
  obtain ⟨before, e, later, rfl, hcarries, hwithout, hchain⟩ := h
  rw [List.getLast?_append_of_ne_nil _ (List.cons_ne_nil e later)] at hlive
  refine ⟨before, e, later ++ [r], by simp, hcarries, fun l hl => ?_, ?_⟩
  · rcases List.mem_append.1 hl with hl | hl
    · exact hwithout l hl
    · exact List.mem_singleton.1 hl ▸ hr
  · rw [← List.cons_append, List.isChain_append]
    refine ⟨hchain, .singleton r, fun x hx y hy => ?_⟩
    obtain rfl : r = y := by simpa using hy
    exact hlive x hx

/-- A merge keeps a family that it finds, whatever the update carries, so the update hands on the
addresses it does not carry itself. -/
theorem merge (hstored : ∀ a ∈ (family stored).addrs, Relayed family answers a)
    (hlive : ∀ e ∈ answers.getLast?, update.learnedAt < e.expiresAt)
    (ha : a ∈ (if (family stored).isEmpty then family update else family stored).addrs) :
    Relayed family (answers ++ [update]) a := by
  by_cases hu : a ∈ (family update).addrs
  · -- it starts anew, also where the merge has kept the other family
    exact .of_carries answers hu
  · split at ha
    · exact absurd ha hu
    · exact (hstored a ha).snoc hu hlive

end Relayed

namespace Cache

/-! ## The answers under a key -/

/-- The answer that an operation brings in under a key, given the entry there is. -/
def Op.brings (key : String) (x : Option Resolution) : Op → Option Resolution
  | .add r => if r.cacheKey = key ∧ key ≠ "" ∧ x = none then some r else none
  | .update r => if r.cacheKey = key ∧ key ≠ "" then some r else none
  | .lookup .. | .delete _ | .rotate _ | .clear => none

/-- The answers added or updated under a key, in the order they came in. -/
def brought (key : String) : Cache → List Op → List Resolution
  | _, [] => []
  | c, op :: rest =>
    (op.brings key (c.entries.get? key)).toList ++ brought key (c.apply op) rest

/-- An entry expires with the last answer under its key, and the answers have handed on each of its
addresses. -/
structure Backed (answers : List Resolution) (r : Resolution) : Prop where
  last : ∃ e, answers.getLast? = some e ∧ r.expiresAt = e.expiresAt
  ips : ∀ a ∈ r.ips.addrs, Relayed (·.ips) answers a
  ipsv6 : ∀ a ∈ r.ipsv6.addrs, Relayed (·.ipsv6) answers a

namespace Backed

variable {answers : List Resolution} {r : Resolution}

theorem of_brought (answers : List Resolution) (r : Resolution) : Backed (answers ++ [r]) r where
  last := ⟨r, by simp, rfl⟩
  ips _ ha := .of_carries answers ha
  ipsv6 _ ha := .of_carries answers ha

theorem mem_addrs_rotate {l : Endpoints} {a : String} :
    a ∈ (Endpoints.rotate l).addrs ↔ a ∈ l.addrs :=
  ((Endpoints.rotate_isRotated l).map (·.addr)).mem_iff

theorem rotate (h : Backed answers r) : Backed answers r.rotate where
  last := h.last
  ips a ha := h.ips a (mem_addrs_rotate.1 ha)
  ipsv6 a ha := h.ipsv6 a (mem_addrs_rotate.1 ha)

theorem refresh (h : Backed answers r) {update : Resolution}
    (hlive : r.isExpiredAt update.learnedAt = false) :
    Backed (answers ++ [update]) (Cache.refresh r update) := by
  have hlast : ∀ e ∈ answers.getLast?, update.learnedAt < e.expiresAt := by
    obtain ⟨l, hl, hexpires⟩ := h.last
    intro e he
    obtain rfl : l = e := by simpa [hl] using he
    simpa [Resolution.isExpiredAt, hexpires] using hlive
  exact
    { last := ⟨update, by simp, rfl⟩
      ips := fun a ha => .merge h.ips hlast ha
      ipsv6 := fun a ha => .merge h.ipsv6 hlast ha }

/-- What an operation leaves under a key is backed by the answers so far and the one it brings
in. -/
theorem next {key : String} {x : Option Resolution} (h : ∀ r ∈ x, Backed answers r) (op : Op) :
    ∀ r ∈ op.next key x, Backed (answers ++ (op.brings key x).toList) r := by
  intro r hr
  cases op with
  | lookup k type now =>
    have hx : x = some r := by
      rw [Op.next] at hr
      split at hr
      · exact (Option.filter_eq_some_iff.1 hr).1
      · exact hr
    simpa [Op.brings] using h r hx
  | add e =>
    cases x with
    | some s =>
      have hs : s = r := by
        rw [Op.next] at hr
        split at hr <;> simpa using hr
      simpa [Op.brings, hs] using h s rfl
    | none =>
      by_cases hk : e.cacheKey = key ∧ key ≠ ""
      · obtain rfl : e = r := by simpa [Op.next, hk] using hr
        simpa [Op.brings, hk] using of_brought answers e
      · simp [Op.next, hk] at hr
  | update e =>
    by_cases hk : e.cacheKey = key ∧ key ≠ ""
    · obtain rfl : renewed e x = r := by simpa [Op.next, hk] using hr
      have hb : (Op.update e).brings key x = some e := by simp [Op.brings, hk]
      rw [hb, Option.toList_some]
      cases x with
      | none => exact of_brought answers e
      | some stored =>
        cases he : stored.isExpiredAt e.learnedAt with
        | true => simpa [renewed, he] using of_brought answers e
        | false => simpa [renewed, he] using (h stored rfl).refresh he
    · simp only [Op.next, hk, if_false] at hr
      simpa [Op.brings, hk] using h r hr
  | delete k =>
    have hx : x = some r := by
      rw [Op.next] at hr
      split at hr
      · cases hr
      · exact hr
    simpa [Op.brings] using h r hx
  | rotate k =>
    rw [Op.next] at hr
    split at hr
    · obtain ⟨s, hs, rfl⟩ := Option.map_eq_some_iff.1 hr
      simpa [Op.brings] using (h s hs).rotate
    · simpa [Op.brings] using h r hr
  | clear => cases hr

end Backed

/-- However the operations come, the answers brought in under a key back the entry there. -/
theorem backed_foldl (key : String) : ∀ (ops : List Op) {c : Cache} {answers : List Resolution},
    c.WellKept → (∀ r ∈ c.entries.get? key, Backed answers r) →
    ∀ r ∈ (ops.foldl apply c).entries.get? key, Backed (answers ++ brought key c ops) r
  | [], c, answers, _, h => by simpa [brought] using h
  | op :: ops, c, answers, hc, h => by
    rw [brought, ← List.append_assoc]
    refine backed_foldl key ops (hc.apply op) ?_
    rw [get?_apply hc]
    exact Backed.next h op

/-! ## What a lookup finds -/

theorem lookup_eq_some {c : Cache} {key : String} {type : QueryType} {now : Nat}
    {v : Resolution} (h : (c.lookup key type now).1 = some v) :
    c.entries.get? key = some v ∧ now < v.expiresAt := by
  unfold lookup at h
  cases hg : c.entries.get? key with
  | none => simp [hg] at h
  | some r =>
    cases he : r.isExpiredAt now with
    | true => simp [hg, he] at h
    | false =>
      have hv : r = v := by
        cases hu : usable r type <;> simp [hg, he, hu] at h
        exact h
      exact ⟨by rw [hv], by simpa [Resolution.isExpiredAt, hv] using he⟩

/-- A lookup finds only addresses of answers that were brought in under its key: the latest answer
under the key has not expired, and an address that it does not carry was handed on to it by the
latest one that does, each answer in between and the last learned while the one before it was
live. -/
theorem lookup_relayed (ops : List Op) {key : String} {type : QueryType} {now : Nat}
    {v : Resolution} (h : ((run ops).lookup key type now).1 = some v) :
    (∃ l, (brought key {} ops).getLast? = some l ∧ now < l.expiresAt) ∧
      ∀ family ∈ [Resolution.ips, Resolution.ipsv6], ∀ a ∈ (family v).addrs,
        ∃ before e later, brought key {} ops = before ++ e :: later ∧
          Handed family a e later ∧ (now < e.expiresAt ∨ later ≠ []) := by
  obtain ⟨hg, hlive⟩ := lookup_eq_some h
  have hstart : ∀ r ∈ ({} : Cache).entries.get? key, Backed [] r := by simp [Entries.get?]
  have hb : Backed (brought key {} ops) v := backed_foldl key ops (run_wellKept []) hstart v hg
  obtain ⟨l, hl, hexpires⟩ := hb.last
  rw [hexpires] at hlive
  have hrelayed : ∀ family ∈ [Resolution.ips, Resolution.ipsv6], ∀ a ∈ (family v).addrs,
      Relayed family (brought key {} ops) a := by
    intro family hf a ha
    simp only [List.mem_cons, List.not_mem_nil, or_false] at hf
    rcases hf with rfl | rfl
    · exact hb.ips a ha
    · exact hb.ipsv6 a ha
  refine ⟨⟨l, hl, hlive⟩, fun family hf a ha => ?_⟩
  obtain ⟨before, e, later, hsplit, hhanded⟩ := hrelayed family hf a ha
  refine ⟨before, e, later, hsplit, hhanded, ?_⟩
  by_cases hlater : later = []
  · obtain rfl : e = l := by simpa [hsplit, hlater] using hl
    exact .inl hlive
  · exact .inr hlater

/-- `192.0.2.1` was learned for ten seconds; after twenty it is found as the merge handed it on. -/
theorem lookup_relayed_merged :
    let ops : List Op := [.update shortAnswer, .update longAnswer]
    let v := refresh shortAnswer longAnswer
    ((run ops).lookup "a.com" .a 20000).1 = some v ∧
      (∃ l, (brought "a.com" {} ops).getLast? = some l ∧ 20000 < l.expiresAt) ∧
      ∀ family ∈ [Resolution.ips, Resolution.ipsv6], ∀ a ∈ (family v).addrs,
        ∃ before e later, brought "a.com" {} ops = before ++ e :: later ∧
          Handed family a e later ∧ (20000 < e.expiresAt ∨ later ≠ []) := by
  intro ops v
  have h : ((run ops).lookup "a.com" .a 20000).1 = some v := by decide +kernel
  exact ⟨h, lookup_relayed ops h⟩

/-- A merge hands on addresses beyond the expiry of every answer that carried them, also where no
instant comes before an earlier one. -/
theorem served_past_expiry :
    let ops : List Op := [.update shortAnswer, .update longAnswer]
    (shortAnswer.learnedAt ≤ longAnswer.learnedAt ∧ longAnswer.learnedAt ≤ 20000) ∧
      (∃ v, ((run ops).lookup "a.com" .a 20000).1 = some v ∧ "192.0.2.1" ∈ v.ips.addrs) ∧
      ∀ e ∈ brought "a.com" {} ops, "192.0.2.1" ∈ e.ips.addrs → ¬ 20000 < e.expiresAt := by
  intro ops
  refine ⟨by decide, ⟨refresh shortAnswer longAnswer, ?_, ?_⟩, ?_⟩ <;> decide +kernel

end Cache

end HttpDns
