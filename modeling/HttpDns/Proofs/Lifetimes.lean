import HttpDns.Proofs.Duplicates

/-!
# Lifetimes of merged resolutions

A merge keeps the greatest of the origins' lifetimes and the greatest of the others, each for itself
(`greatest_of_mem_merge`). An origin's lifetime takes precedence, so what is merged may be over
before one of the resolutions it stands for: a resolution without a lifetime of its origin is cut
short exactly where another one has such a lifetime and none of these is as long as its own
(`merge_outlives_iff`).
-/

namespace HttpDns.Resolution

/-! ## The greatest lifetimes -/

/-- What is merged for a host stands for the resolutions given for it. -/
theorem condenses_of_mem_merge {rs : List Resolution} {r : Resolution} (hr : r ∈ merge rs) :
    ∃ first rest, ofHost r.host rs = first :: rest ∧ Condenses first rest r := by
  have hfold : fold (ofHost r.host rs) = some r := mem_merge.1 hr
  cases hrun : ofHost r.host rs with
  | nil =>
    rw [hrun] at hfold
    cases hfold
  | cons first rest =>
    rw [hrun] at hfold
    exact ⟨first, rest, rfl, Option.some.inj hfold ▸ condenses_foldl first rest⟩

/-- No resolution has a greater value, and one of them has this one. -/
structure Greatest (value : Resolution → UInt32) (rs : List Resolution) (n : UInt32) : Prop where
  attained : ∃ s ∈ rs, value s = n
  le : ∀ s ∈ rs, value s ≤ n

theorem greatest_of_max? {value : Resolution → UInt32} {rs : List Resolution} {n : UInt32}
    (h : (rs.map value).max? = some n) : Greatest value rs n := by
  obtain ⟨hmem, hle⟩ := List.max?_eq_some_iff.1 h
  exact ⟨List.mem_map.1 hmem, fun s hs => hle _ (List.mem_map_of_mem hs)⟩

theorem greatest_of_mem_merge {rs : List Resolution} {r : Resolution} (hr : r ∈ merge rs) :
    Greatest (·.ttl) (ofHost r.host rs) r.ttl
      ∧ Greatest (·.originTtl) (ofHost r.host rs) r.originTtl := by
  obtain ⟨first, rest, hrun, h⟩ := condenses_of_mem_merge hr
  rw [hrun]
  exact ⟨greatest_of_max? h.ttl_eq, greatest_of_max? h.originTtl_eq⟩

/-! ## The lifetime that counts -/

theorem effectiveTtl_of_origin {r : Resolution} (h : 0 < r.originTtl) :
    r.effectiveTtl = r.originTtl := if_pos h

theorem effectiveTtl_of_no_origin {r : Resolution} (h : r.originTtl = 0) :
    r.effectiveTtl = r.ttl := by
  unfold effectiveTtl
  exact if_neg (h ▸ UInt32.lt_irrefl 0)

theorem zero_or_pos (n : UInt32) : n = 0 ∨ 0 < n :=
  (em (n = 0)).imp_right UInt32.pos_iff_ne_zero.2

/-- A resolution with the greatest lifetimes of some outlives one of these, unless that one has no
lifetime of its origin, others have one, and its own lifetime is longer than all of theirs. -/
theorem effectiveTtl_le_iff {rs : List Resolution} {r s : Resolution}
    (httl : Greatest (·.ttl) rs r.ttl) (horigin : Greatest (·.originTtl) rs r.originTtl)
    (hs : s ∈ rs) :
    s.effectiveTtl ≤ r.effectiveTtl
      ↔ 0 < s.originTtl ∨ (∀ t ∈ rs, t.originTtl = 0) ∨ ∃ t ∈ rs, s.ttl ≤ t.originTtl := by
  rcases zero_or_pos s.originTtl with hs0 | hspos
  · rw [effectiveTtl_of_no_origin hs0]
    rcases zero_or_pos r.originTtl with hr0 | hrpos
    · rw [effectiveTtl_of_no_origin hr0]
      have hnone : ∀ t ∈ rs, t.originTtl = 0 := fun t ht =>
        UInt32.le_zero_iff.1 (hr0 ▸ horigin.le t ht)
      exact iff_of_true (httl.le s hs) (.inr (.inl hnone))
    · rw [effectiveTtl_of_origin hrpos]
      obtain ⟨longest, hlongest, heq⟩ := horigin.attained
      refine ⟨fun hle => .inr (.inr ⟨longest, hlongest, heq ▸ hle⟩), ?_⟩
      rintro (hpos | hnone | ⟨t, ht, hle⟩)
      · exact absurd hpos (hs0 ▸ UInt32.lt_irrefl 0)
      · exact absurd hrpos ((hnone longest hlongest ▸ heq) ▸ UInt32.lt_irrefl 0)
      · exact UInt32.le_trans hle (horigin.le t ht)
  · have hle : s.originTtl ≤ r.originTtl := horigin.le s hs
    rw [effectiveTtl_of_origin hspos, effectiveTtl_of_origin (UInt32.lt_of_lt_of_le hspos hle)]
    exact iff_of_true hle (.inl hspos)

/-- What is merged for a host has the greatest of either lifetime among the resolutions given for
it, and it is valid as long as each of these, but for those without a lifetime of their origin that
are valid longer than what the origins of the others say. -/
theorem merge_outlives_iff {rs : List Resolution} {r : Resolution} (hr : r ∈ merge rs) :
    let given := rs.filter (·.host = r.host)
    Greatest (·.ttl) given r.ttl ∧ Greatest (·.originTtl) given r.originTtl
      ∧ ∀ s ∈ given, s.effectiveTtl ≤ r.effectiveTtl
        ↔ 0 < s.originTtl ∨ (∀ t ∈ given, t.originTtl = 0) ∨ ∃ t ∈ given, s.ttl ≤ t.originTtl := by
  obtain ⟨httl, horigin⟩ := greatest_of_mem_merge hr
  exact ⟨httl, horigin, fun s hs => effectiveTtl_le_iff httl horigin hs⟩

/-- Of three answers for a host the first has no lifetime of its origin; the second does not outlast
it, the third does. -/
theorem merge_outlives_three :
    let long : Resolution := { host := "a.com", cacheKey := "a.com", ttl := 3600 }
    let short : Resolution := { host := "a.com", cacheKey := "a.com", ttl := 60, originTtl := 30 }
    let longer : Resolution := { host := "a.com", cacheKey := "a.com", originTtl := 4000 }
    let other : Resolution := { host := "b.com", cacheKey := "b.com", ttl := 9000 }
    let r := { long with originTtl := 4000 }
    r ∈ merge [other, long, short, longer] ∧ long.effectiveTtl ≤ r.effectiveTtl := by
  intro long short longer other r
  have hr : r ∈ merge [other, long, short, longer] := by decide +kernel
  have hgiven : [other, long, short, longer].filter (·.host = r.host) = [long, short, longer] := by
    decide +kernel
  have houtlives := (merge_outlives_iff hr).2.2
  rw [hgiven] at houtlives
  refine ⟨hr, (houtlives long List.mem_cons_self).2 (.inr (.inr ⟨longer, by simp, ?_⟩))⟩
  decide

/-- A duplicate with a short lifetime of its origin cuts the hour of the first answer to half a
minute. -/
theorem shortened_by_duplicate :
    let long : Resolution :=
      { host := "a.com", cacheKey := "a.com", ips := [⟨"192.0.2.1", none⟩], ttl := 3600 }
    let short : Resolution :=
      { host := "a.com", cacheKey := "a.com", ips := [⟨"192.0.2.2", none⟩], ttl := 60
        originTtl := 30 }
    let r := { long with originTtl := 30 }
    merge [long, short] = [r] ∧ ¬ long.effectiveTtl ≤ r.effectiveTtl := by
  decide +kernel

end HttpDns.Resolution
