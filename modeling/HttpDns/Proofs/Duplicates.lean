import HttpDns.Proofs.Merge

/-!
# Duplicates of a host

A list of resolutions in strictly ascending order of hosts is determined by what it holds for each
host (`eq_of_ofHost`). So a merge is the one list in that order that holds, for each host, what the
resolutions for it fold into, and for a host nothing counts but these (`ofHost_merge_alone`). What
they fold into is told field by field (`Condenses`): one merge does all of it (`merge_condenses`).
-/

namespace HttpDns.Resolution

/-! ## Lists by host -/

section

variable {l l' rs : List Resolution} {h k : String}

theorem mem_ofHost_self {r : Resolution} : r ∈ ofHost r.host l ↔ r ∈ l := by
  simp [ofHost]

theorem nodup_of_ascending (hl : (l.map (·.host)).Pairwise (· < ·)) : l.Nodup :=
  (List.pairwise_map.1 hl).imp fun hrs heq => absurd (congrArg _ heq) (ne_of_lt hrs)

/-- Resolutions in ascending order of hosts are determined by what they are for each host. -/
theorem eq_of_ofHost (hl : (l.map (·.host)).Pairwise (· < ·))
    (hl' : (l'.map (·.host)).Pairwise (· < ·)) (hsame : ∀ h, ofHost h l = ofHost h l') :
    l = l' := by
  have hmem : ∀ r, r ∈ l ↔ r ∈ l' := fun r => by
    rw [← mem_ofHost_self, hsame, mem_ofHost_self]
  refine List.Perm.eq_of_pairwise (fun r s _ _ hrs hsr => absurd hrs (lt_asymm hsr))
    (List.pairwise_map.1 hl) (List.pairwise_map.1 hl') ?_
  exact (List.perm_ext_iff_of_nodup (nodup_of_ascending hl) (nodup_of_ascending hl')).2 hmem

theorem ofHost_ofHost_eq : ofHost h (ofHost h l) = ofHost h l := by
  simp [ofHost, List.filter_filter]

theorem ofHost_ofHost_ne (hne : k ≠ h) : ofHost k (ofHost h l) = [] :=
  ofHost_eq_nil fun _ hr => (host_of_mem_ofHost hr).2 ▸ hne.symm

theorem ascending_ofHost (h : String) (hl : (l.map (·.host)).Pairwise (· < ·)) :
    ((ofHost h l).map (·.host)).Pairwise (· < ·) :=
  hl.sublist (List.filter_sublist.map _)

/-- The only list in ascending order of hosts that holds for each host what its resolutions fold
into. -/
theorem eq_merge (hl : (l.map (·.host)).Pairwise (· < ·))
    (hfold : ∀ h, ofHost h l = (fold (ofHost h rs)).toList) : l = merge rs :=
  eq_of_ofHost hl (hosts_merge_pairwise rs) fun h => by rw [hfold, ofHost_merge]

/-- What a merge holds for a host is the merge of the resolutions for this host alone. -/
theorem ofHost_merge_alone (h : String) (rs : List Resolution) :
    ofHost h (merge rs) = merge (ofHost h rs) := by
  refine eq_merge (ascending_ofHost h (hosts_merge_pairwise rs)) fun k => ?_
  by_cases hk : k = h
  · subst hk
    rw [ofHost_ofHost_eq, ofHost_ofHost_eq, ofHost_merge]
  · rw [ofHost_ofHost_ne hk, ofHost_ofHost_ne hk]
    rfl

end

/-! ## What a host's resolutions come to -/

/-- A resolution stands for the resolutions of a host, in their order: each family is the first one
that is not empty, each lifetime the greatest, what is told of the caller is what is told first, and
the rest is of the first of them. -/
structure Condenses (first : Resolution) (rest : List Resolution) (r : Resolution) : Prop where
  host_eq : r.host = first.host
  cacheKey_eq : r.cacheKey = first.cacheKey
  learnedAt_eq : r.learnedAt = first.learnedAt
  hitCache_eq : r.hitCache = first.hitCache
  ips_eq : r.ips = (((first :: rest).map (·.ips)).find? (· ≠ [])).getD []
  ipsv6_eq : r.ipsv6 = (((first :: rest).map (·.ipsv6)).find? (· ≠ [])).getD []
  ttl_eq : ((first :: rest).map (·.ttl)).max? = some r.ttl
  originTtl_eq : ((first :: rest).map (·.originTtl)).max? = some r.originTtl
  clientIp_eq : r.clientIp = (first :: rest).findSome? (·.clientIp)
  extra_eq : r.extra = (first :: rest).findSome? (·.extra)

theorem condenses_foldl (first : Resolution) (rest : List Resolution) :
    Condenses first rest (rest.foldl absorb first) := by
  rw [foldl_absorb]
  exact ⟨rfl, rfl, rfl, rfl, firstNonEmpty_eq_find? _, firstNonEmpty_eq_find? _,
    List.max?_cons', List.max?_cons', rfl, rfl⟩

/-- However the resolutions of several hosts are mixed, a merge has one resolution for each host
among them and no other, in strictly ascending order of hosts: the resolutions of the host absorbed
one after the other into the first of them, just as if those of the other hosts were not there. No
other list is like this. -/
theorem merge_condenses (rs : List Resolution) :
    ((merge rs).map (·.host)).Pairwise (· < ·)
      ∧ (∀ h, h ∈ (merge rs).map (·.host) ↔ h ∈ rs.map (·.host))
      ∧ (∀ r ∈ merge rs, ∃ first rest, rs.filter (·.host = r.host) = first :: rest
        ∧ r = rest.foldl absorb first ∧ Condenses first rest r)
      ∧ (∀ h, (merge rs).filter (·.host = h) = merge (rs.filter (·.host = h)))
      ∧ ∀ l, (l.map (·.host)).Pairwise (· < ·) →
        (∀ h, l.filter (·.host = h) = (fold (rs.filter (·.host = h))).toList) → l = merge rs := by
  refine ⟨hosts_merge_pairwise rs, fun h => hosts_merge, fun r hr => ?_,
    fun h => ofHost_merge_alone h rs, fun l hl hfold => eq_merge hl hfold⟩
  have hfold : fold (ofHost r.host rs) = some r := mem_merge.1 hr
  cases hrun : ofHost r.host rs with
  | nil =>
    rw [hrun] at hfold
    cases hfold
  | cons first rest =>
    rw [hrun] at hfold
    obtain rfl := Option.some.inj hfold
    exact ⟨first, rest, hrun, rfl, condenses_foldl first rest⟩

/-- Of two answers for one host, apart from each other, the second fills the gap of the first. -/
theorem merge_condenses_apart :
    let a : Resolution := { host := "a.com", cacheKey := "a", ttl := 5 }
    let b : Resolution :=
      { host := "b.com", cacheKey := "b", ips := [⟨"192.0.2.1", none⟩], ttl := 60 }
    let more : Resolution :=
      { host := "b.com", cacheKey := "k", ips := [⟨"192.0.2.2", none⟩],
        ipsv6 := [⟨"2001:db8::1", none⟩], ttl := 30, originTtl := 7 }
    let whole := { b with ipsv6 := [⟨"2001:db8::1", none⟩], originTtl := 7 }
    merge [b, a, more] = [a, whole] ∧ Condenses b [more] whole := by
  intro a b more whole
  obtain ⟨-, -, hcondenses, -, hunique⟩ := merge_condenses [b, a, more]
  have hmerge : [a, whole] = merge [b, a, more] := by
    refine hunique _ (by decide +kernel) fun h => ?_
    by_cases ha : h = "a.com"
    · subst ha
      decide +kernel
    · by_cases hb : h = "b.com"
      · subst hb
        decide +kernel
      · have hne : ∀ host ∈ ["a.com", "b.com"], ¬ host = h := by simp [Ne.symm ha, Ne.symm hb]
        simp [a, b, more, whole, fold, hne]
  obtain ⟨first, rest, hfilter, -, hwhole⟩ :=
    hcondenses whole (hmerge ▸ List.mem_cons_of_mem a List.mem_cons_self)
  have hrun : [b, a, more].filter (·.host = whole.host) = [b, more] := by decide +kernel
  obtain ⟨rfl, rfl⟩ := List.cons.inj (hrun.symm.trans hfilter)
  exact ⟨hmerge.symm, hwhole⟩

end HttpDns.Resolution
