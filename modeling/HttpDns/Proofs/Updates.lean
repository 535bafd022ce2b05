import HttpDns.Proofs.Cells

/-!
# What an update leaves

An update finds its key free, or an expired entry, or a live one. Whichever it is, the entry it
leaves lives as long as the answer does and has every family that the answer has; a live entry
besides keeps what it had (`update_renews`). So an answer with a lifetime, stored once more, finds
an entry that is live and has all of the answer already, and changes no entry (`update_repeats`).
-/

namespace HttpDns

/-! ## Putting twice -/

namespace Entries

theorem put_put (key : String) (r s : Resolution) : ∀ es : Entries,
    (es.put key r).put key s = es.put key s
  | [] => by simp [put]
  | (k, x) :: rest => by
    by_cases hk : k = key
    · simp [put, hk]
    · simp [put, hk, put_put key r s rest]

end Entries

/-! ## The entry after an update -/

namespace Resolution

theorem satisfies_mono {r x : Resolution} (h4 : r.ips ≠ [] → x.ips ≠ [])
    (h6 : r.ipsv6 ≠ [] → x.ipsv6 ≠ []) {q : QueryType} (hr : r.satisfies q = true) :
    x.satisfies q = true := by
  unfold satisfies at hr ⊢
  simp only [Bool.and_eq_true, Bool.or_eq_true, Bool.not_eq_true', List.isEmpty_eq_false_iff]
    at hr ⊢
  exact ⟨hr.1.imp_right h4, hr.2.imp_right h6⟩

end Resolution

namespace Cache

/-- A live entry has been updated by an answer: what it had of addresses stays as it was, and so do
its host and what else it tells; who asked is told anew if the answer tells it. -/
structure Keeps (stored r x : Resolution) : Prop where
  ips : x.ips = if stored.ips = [] then r.ips else stored.ips
  ipsv6 : x.ipsv6 = if stored.ipsv6 = [] then r.ipsv6 else stored.ipsv6
  host : x.host = stored.host
  extra : x.extra = stored.extra
  clientIp : x.clientIp = if r.clientIp.isSome then r.clientIp else stored.clientIp

/-- The entry that an answer leaves under its key: it is of the answer's age and expires with it,
and has all that the answer has. An entry that was live then is kept; else this is the answer. -/
structure Renews (stored : Option Resolution) (r x : Resolution) : Prop where
  ttl : x.ttl = r.ttl
  originTtl : x.originTtl = r.originTtl
  learnedAt : x.learnedAt = r.learnedAt
  expires : ∀ now, x.isExpiredAt now = r.isExpiredAt now
  satisfies : ∀ q, r.satisfies q = true → x.satisfies q = true
  keeps : ∀ s, stored = some s → s.isExpiredAt r.learnedAt = false → Keeps s r x
  replaces : (∀ s, stored = some s → s.isExpiredAt r.learnedAt = true) → x = r

theorem Renews.of_replaced {stored : Option Resolution} {r : Resolution}
    (h : ∀ s, stored = some s → s.isExpiredAt r.learnedAt = true) : Renews stored r r where
  ttl := rfl
  originTtl := rfl
  learnedAt := rfl
  expires _ := rfl
  satisfies _ hq := hq
  keeps s hs hlive := by
    rw [h s hs] at hlive
    cases hlive
  replaces _ := rfl

theorem keeps_refresh (stored r : Resolution) : Keeps stored r (refresh stored r) where
  ips := by cases h : stored.ips <;> simp [refresh, Resolution.fillGaps, h]
  ipsv6 := by cases h : stored.ipsv6 <;> simp [refresh, Resolution.fillGaps, h]
  host := rfl
  extra := rfl
  clientIp := by cases h : r.clientIp <;> simp [refresh, h]

/-- No family of the answer is lacking afterwards. -/
theorem Keeps.satisfies {stored r x : Resolution} (h : Keeps stored r x) {q : QueryType}
    (hr : r.satisfies q = true) : x.satisfies q = true := by
  refine Resolution.satisfies_mono (fun h4 => ?_) (fun h6 => ?_) hr
  · rw [h.ips]
    split
    · exact h4
    · assumption
  · rw [h.ipsv6]
    split
    · exact h6
    · assumption

theorem Renews.of_refreshed {stored r : Resolution}
    (hlive : stored.isExpiredAt r.learnedAt = false) :
    Renews (some stored) r (refresh stored r) where
  ttl := rfl
  originTtl := rfl
  learnedAt := rfl
  expires _ := rfl
  satisfies _ hq := (keeps_refresh stored r).satisfies hq
  keeps s hs _ := by
    cases hs
    exact keeps_refresh stored r
  replaces h := by
    rw [h stored rfl] at hlive
    cases hlive

theorem Renews.expiresAt_eq {stored : Option Resolution} {r x : Resolution}
    (h : Renews stored r x) : x.expiresAt = r.expiresAt := by
  rw [Resolution.expiresAt, Resolution.effectiveTtl, h.ttl, h.originTtl, h.learnedAt]
  rfl

/-- An update puts the answer there as it is, or refreshes a live entry. -/
theorem renewed_cases (r : Resolution) (stored : Option Resolution) :
    (renewed r stored = r ∧ ∀ s, stored = some s → s.isExpiredAt r.learnedAt = true)
      ∨ ∃ s, stored = some s ∧ s.isExpiredAt r.learnedAt = false
        ∧ renewed r stored = refresh s r := by
  cases stored with
  | none => exact .inl ⟨rfl, fun _ hs => nomatch hs⟩
  | some s =>
    cases hexpired : s.isExpiredAt r.learnedAt with
    | true =>
      refine .inl ⟨if_pos hexpired, fun s' hs => ?_⟩
      cases hs
      exact hexpired
    | false => exact .inr ⟨s, rfl, hexpired, if_neg (by simp [hexpired])⟩

theorem renews_renewed (r : Resolution) (stored : Option Resolution) :
    Renews stored r (renewed r stored) := by
  rcases renewed_cases r stored with ⟨heq, hexpired⟩ | ⟨s, rfl, hlive, heq⟩
  · rw [heq]
    exact .of_replaced hexpired
  · rw [heq]
    exact .of_refreshed hlive

theorem get?_update_self (c : Cache) {r : Resolution} (hkey : r.cacheKey ≠ "") :
    (c.update r).entries.get? r.cacheKey = some (renewed r (c.entries.get? r.cacheKey)) := by
  rw [entries_update, if_neg hkey, Entries.get?_put, if_pos rfl]

theorem get?_update_of_ne (c : Cache) {r : Resolution} {key : String} (hne : key ≠ r.cacheKey) :
    (c.update r).entries.get? key = c.entries.get? key := by
  rw [entries_update]
  split
  · rfl
  · rw [Entries.get?_put, if_neg hne.symm]

theorem update_of_keyless (c : Cache) {r : Resolution} (hkey : r.cacheKey = "") :
    c.update r = c := by
  rw [update, if_pos hkey]

/-- Whatever is in a cache, an update with a key leaves under it an entry that is of the answer's
age, expires with it and has all that it has. If the entry before was live when the answer was
learned it is kept, with its gaps filled; if it had expired, or there was none, the answer stands
there as it is. The entries of other keys stay, and an answer without a key changes nothing. -/
theorem update_renews (c : Cache) (r : Resolution) :
    (r.cacheKey ≠ "" → ∃ x, (c.update r).entries.get? r.cacheKey = some x
        ∧ Renews (c.entries.get? r.cacheKey) r x)
      ∧ (∀ key, key ≠ r.cacheKey → (c.update r).entries.get? key = c.entries.get? key)
      ∧ (r.cacheKey = "" → c.update r = c) :=
  ⟨fun hkey => ⟨_, c.get?_update_self hkey, renews_renewed r _⟩,
    fun _ hne => c.get?_update_of_ne hne, c.update_of_keyless⟩

/-- An entry with one family, about to expire, is given the other one and the lifetime of the
answer; it keeps its own addresses although the answer has others. -/
theorem update_renews_live :
    let stored : Resolution :=
      { host := "a.com", cacheKey := "k", clientIp := some "198.51.100.1", extra := some "x"
        ips := [⟨"192.0.2.1", none⟩], ttl := 10 }
    let r : Resolution :=
      { host := "b.com", cacheKey := "k", ips := [⟨"192.0.2.2", none⟩]
        ipsv6 := [⟨"2001:db8::1", none⟩], ttl := 3600, originTtl := 5, learnedAt := 9999 }
    let other : Resolution := { host := "c.com", cacheKey := "c.com" }
    let c : Cache := { entries := [("k", stored), ("c.com", other)] }
    ∃ x, (c.update r).entries = [("k", x), ("c.com", other)] ∧ Keeps stored r x
      ∧ x.satisfies .both = true ∧ x.isExpiredAt 14998 = false ∧ x.isExpiredAt 14999 = true
      ∧ (c.update r).entries.get? "c.com" = some other
      ∧ c.update { r with cacheKey := "" } = c := by
  intro stored r other c
  obtain ⟨hrenews, hothers, -⟩ := update_renews c r
  obtain ⟨-, -, hkeyless⟩ := update_renews c { r with cacheKey := "" }
  obtain ⟨x, hget, h⟩ := hrenews (by decide)
  have hentries : ∃ y, (c.update r).entries = [("k", y), ("c.com", other)] :=
    ⟨refresh stored r, by decide +kernel⟩
  obtain ⟨y, hy⟩ := hentries
  obtain rfl : y = x := by
    rw [hy] at hget
    exact Option.some.inj hget
  refine ⟨y, hy, h.keeps stored rfl (by decide), h.satisfies .both (by decide), ?_, ?_,
    hothers "c.com" (by decide), hkeyless rfl⟩
  · rw [h.expires]
    decide
  · rw [h.expires]
    decide

/-! ## The same answer again -/

theorem refresh_self (r : Resolution) : refresh r r = r := by
  simp [refresh, Resolution.fillGaps]

theorem refresh_refresh (stored r : Resolution) :
    refresh (refresh stored r) r = refresh stored r := by
  simp only [refresh, Resolution.fillGaps, Resolution.mk.injEq, true_and, and_true]
  refine ⟨?_, ?_, ?_⟩
  · cases r.clientIp <;> rfl
  · split <;> simp_all
  · split <;> simp_all

theorem refresh_renewed (r : Resolution) (stored : Option Resolution) :
    refresh (renewed r stored) r = renewed r stored := by
  rcases renewed_cases r stored with ⟨heq, -⟩ | ⟨s, -, -, heq⟩
  · rw [heq, refresh_self]
  · rw [heq, refresh_refresh]

theorem isExpiredAt_learnedAt {r : Resolution} (h : 0 < r.effectiveTtl) :
    r.isExpiredAt r.learnedAt = false := by
  have hpos : 0 < r.effectiveTtl.toNat := UInt32.lt_iff_toNat_lt.1 h
  unfold Resolution.isExpiredAt Resolution.expiresAt
  refine decide_eq_false ?_
  omega

theorem update_of_live {c : Cache} {r stored : Resolution} (hkey : r.cacheKey ≠ "")
    (hget : c.entries.get? r.cacheKey = some stored)
    (hlive : stored.isExpiredAt r.learnedAt = false) : c.update r =
      { entries := c.entries.put r.cacheKey (refresh stored r)
        counters := { c.counters with merges := c.counters.merges + 1 } } := by
  simp [update, hkey, hget, hlive]

/-- The second time, the answer meets its own entry: live, and lacking nothing that it has. -/
theorem update_update (c : Cache) {r : Resolution} (hkey : r.cacheKey ≠ "")
    (httl : 0 < r.effectiveTtl) :
    let once := c.update r
    once.update r =
      { once with counters := { once.counters with merges := once.counters.merges + 1 } } := by
  intro once
  have hget := c.get?_update_self hkey
  have hlive := (renews_renewed r (c.entries.get? r.cacheKey)).expires r.learnedAt
  rw [isExpiredAt_learnedAt httl] at hlive
  rw [update_of_live hkey hget hlive, refresh_renewed]
  congr 1
  show (c.update r).entries.put _ _ = (c.update r).entries
  rw [entries_update, if_neg hkey, Entries.put_put]

theorem add_of_taken {c : Cache} {r stored : Resolution} (hkey : r.cacheKey ≠ "")
    (hget : c.entries.get? r.cacheKey = some stored) : c.add r = .error (.exists r.cacheKey) := by
  rw [add, if_neg hkey, hget]

/-- Whatever is in a cache, storing an answer that has a key and a lifetime once more changes no
entry and counts as one merge, and adding it is refused, which changes nothing at all. -/
theorem update_repeats (c : Cache) {r : Resolution} (hkey : r.cacheKey ≠ "")
    (httl : 0 < r.effectiveTtl) :
    let once := c.update r
    (once.update r).entries = once.entries
      ∧ (once.update r).counters = { once.counters with merges := once.counters.merges + 1 }
      ∧ once.add r = .error (.exists r.cacheKey)
      ∧ once.apply (.add r) = once := by
  intro once
  have hadd : once.add r = .error (.exists r.cacheKey) :=
    add_of_taken hkey (c.get?_update_self hkey)
  rw [show once.update r = _ from c.update_update hkey httl]
  exact ⟨rfl, rfl, hadd, by rw [apply, hadd]⟩

/-- An answer that meets a live entry with other addresses, stored three times over. -/
theorem update_repeats_live :
    let stored : Resolution :=
      { host := "b.com", cacheKey := "k", ips := [⟨"192.0.2.1", none⟩], ttl := 10 }
    let r : Resolution :=
      { host := "a.com", cacheKey := "k", clientIp := some "198.51.100.1"
        ips := [⟨"192.0.2.2", none⟩], ipsv6 := [⟨"2001:db8::1", none⟩]
        ttl := 60, learnedAt := 5 }
    let c : Cache := { entries := [("k", stored)] }
    let once := c.update r
    r.cacheKey ≠ "" ∧ 0 < r.effectiveTtl
      ∧ once.entries = [("k", { r with host := "b.com", ips := stored.ips })]
      ∧ (once.update r).entries = once.entries
      ∧ (once.update r).counters.merges = 2
      ∧ once.add r = .error (.exists "k")
      ∧ once.apply (.add r) = once := by
  intro stored r c once
  have hkey : r.cacheKey ≠ "" := by decide
  have httl : 0 < r.effectiveTtl := by decide
  obtain ⟨hentries, hcounters, hadd, happly⟩ := update_repeats c hkey httl
  refine ⟨hkey, httl, by decide +kernel, hentries, ?_, hadd, happly⟩
  rw [hcounters]
  decide +kernel

end Cache

end HttpDns
