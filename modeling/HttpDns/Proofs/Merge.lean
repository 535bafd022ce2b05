import HttpDns.Resolution
import Mathlib.Data.String.Basic

/-!
# What a merge keeps of each host

Sorting keeps the resolutions of each host in their order (`ofHost_sortByHost`), and the runs that
are then folded are exactly these, so a merge holds for each host the fold of the resolutions it was
given for that host and nothing else (`ofHost_merge`). The hosts come in strictly ascending order
(`hosts_merge_pairwise`).

A fold takes each family from the first resolution that has it, the greatest lifetimes, and what is
told of the caller from the first one that tells it (`foldl_absorb`).
-/

namespace HttpDns.Resolution

/-- The resolutions of a host, in their order. -/
def ofHost (h : String) (rs : List Resolution) : List Resolution :=
  rs.filter (·.host = h)

/-- All resolutions folded into the first one. -/
def fold : List Resolution → Option Resolution
  | [] => none
  | r :: rest => some (rest.foldl absorb r)

@[simp] theorem host_absorb (r s : Resolution) : (r.absorb s).host = r.host := rfl

theorem ofHost_cons (h : String) (r : Resolution) (rs : List Resolution) :
    ofHost h (r :: rs) = if r.host = h then r :: ofHost h rs else ofHost h rs := by
  unfold ofHost
  rw [List.filter_cons]
  split_ifs <;> simp_all

/-! ## The greater of two lifetimes -/

theorem toNat_max (a b : UInt32) : (max a b).toNat = max a.toNat b.toNat := by
  show (if a ≤ b then b else a).toNat = _
  split
  · rename_i h
    rw [Nat.max_eq_right (UInt32.le_iff_toNat_le.1 h)]
  · rename_i h
    rw [Nat.max_eq_left (Nat.le_of_not_le (mt UInt32.le_iff_toNat_le.2 h))]

instance : Std.LawfulOrderMax UInt32 where
  max_eq_or a b := by
    show (if a ≤ b then b else a) = a ∨ (if a ≤ b then b else a) = b
    split
    · exact .inr rfl
    · exact .inl rfl
  max_le_iff a b c := by
    rw [UInt32.le_iff_toNat_le, toNat_max, UInt32.le_iff_toNat_le, UInt32.le_iff_toNat_le]
    exact Nat.max_le

/-! ## Sorting -/

theorem ofHost_insertByHost (h : String) (r : Resolution) : ∀ rs : List Resolution,
    ofHost h (insertByHost r rs) = ofHost h (r :: rs)
  | [] => rfl
  | s :: rest => by
    simp only [insertByHost]
    split_ifs with hs
    · rw [ofHost_cons, ofHost_insertByHost h r rest]
      have hne : s.host ≠ r.host := ne_of_lt hs
      simp only [ofHost_cons]
      split_ifs with h1 h2
      · exact absurd (h1.trans h2.symm) hne
      · rfl
      · rfl
      · rfl
    · rfl

/-- Sorting keeps the resolutions of each host in their order. -/
theorem ofHost_sortByHost (h : String) : ∀ rs : List Resolution,
    ofHost h (sortByHost rs) = ofHost h rs
  | [] => rfl
  | r :: rest => by
    rw [sortByHost, ofHost_insertByHost, ofHost_cons, ofHost_sortByHost h rest, ← ofHost_cons]

theorem mem_insertByHost {r x : Resolution} : ∀ {rs : List Resolution},
    x ∈ insertByHost r rs ↔ x = r ∨ x ∈ rs
  | [] => by simp only [insertByHost, List.mem_singleton, List.not_mem_nil, or_false]
  | s :: rest => by
    simp only [insertByHost]
    split_ifs with hs
    · rw [List.mem_cons, mem_insertByHost, List.mem_cons]
      tauto
    · rw [List.mem_cons]

theorem insertByHost_pairwise (r : Resolution) : ∀ {rs : List Resolution},
    rs.Pairwise (fun x y => x.host ≤ y.host) →
      (insertByHost r rs).Pairwise fun x y => x.host ≤ y.host
  | [], _ => List.pairwise_singleton _ _
  | s :: rest, hp => by
    obtain ⟨hs, hrest⟩ := List.pairwise_cons.1 hp
    simp only [insertByHost]
    split_ifs with hlt
    · refine List.pairwise_cons.2 ⟨fun x hx => ?_, insertByHost_pairwise r hrest⟩
      rcases mem_insertByHost.1 hx with rfl | hx
      · exact hlt.le
      · exact hs x hx
    · refine List.pairwise_cons.2 ⟨fun x hx => ?_, hp⟩
      rcases List.mem_cons.1 hx with rfl | hx
      · exact not_lt.1 hlt
      · exact (not_lt.1 hlt).trans (hs x hx)

theorem sortByHost_pairwise : ∀ rs : List Resolution,
    (sortByHost rs).Pairwise fun x y => x.host ≤ y.host
  | [] => List.Pairwise.nil
  | r :: rest => insertByHost_pairwise r (sortByHost_pairwise rest)

/-! ## Folding the runs -/

theorem ofHost_eq_nil {h : String} {rs : List Resolution} (hne : ∀ r ∈ rs, r.host ≠ h) :
    ofHost h rs = [] := by
  unfold ofHost
  rw [List.filter_eq_nil_iff]
  intro r hr
  simpa using hne r hr

theorem ofHost_collapse (h : String) : ∀ (rest : List Resolution) (r : Resolution),
    (r :: rest).Pairwise (fun x y => x.host ≤ y.host) →
      ofHost h (collapse r rest) = (fold (ofHost h (r :: rest))).toList
  | [], r, _ => by
    simp only [collapse, ofHost_cons]
    split_ifs <;> rfl
  | s :: rest, r, hp => by
    obtain ⟨hr, hp'⟩ := List.pairwise_cons.1 hp
    obtain ⟨hs, hrest⟩ := List.pairwise_cons.1 hp'
    simp only [collapse]
    split_ifs with heq
    · have hp'' : (r.absorb s :: rest).Pairwise fun x y => x.host ≤ y.host :=
        List.pairwise_cons.2 ⟨fun x hx => hr x (List.mem_cons_of_mem _ hx), hrest⟩
      rw [ofHost_collapse h rest _ hp'']
      by_cases hh : r.host = h
      · have hs' : s.host = h := heq ▸ hh
        rw [ofHost_cons, ofHost_cons, ofHost_cons, if_pos (by exact hh), if_pos hh, if_pos hs']
        rfl
      · have hs' : s.host ≠ h := heq ▸ hh
        rw [ofHost_cons, ofHost_cons, ofHost_cons, if_neg (by exact hh), if_neg hh, if_neg hs']
    · have hlt : r.host < s.host := lt_of_le_of_ne (hr s List.mem_cons_self) heq
      rw [ofHost_cons, ofHost_collapse h rest s hp', ofHost_cons h r (s :: rest)]
      split_ifs with hh
      · have hnil : ofHost h (s :: rest) = [] := by
          refine ofHost_eq_nil fun x hx => ?_
          rcases List.mem_cons.1 hx with rfl | hx
          · exact (hh ▸ hlt).ne'
          · exact (hh ▸ hlt.trans_le (hs x hx)).ne'
        rw [hnil]
        rfl
      · rfl

/-- A merge holds for each host the fold of the resolutions given for it. -/
theorem ofHost_merge (h : String) (rs : List Resolution) :
    ofHost h (merge rs) = (fold (ofHost h rs)).toList := by
  rw [← ofHost_sortByHost h rs]
  have hp := sortByHost_pairwise rs
  unfold merge
  cases hs : sortByHost rs with
  | nil => rfl
  | cons r rest => exact ofHost_collapse h rest r (hs ▸ hp)

theorem hosts_collapse_pairwise : ∀ (rest : List Resolution) (r : Resolution),
    (r :: rest).Pairwise (fun x y => x.host ≤ y.host) →
      ((collapse r rest).map (·.host)).Pairwise (· < ·)
        ∧ ∀ x ∈ collapse r rest, r.host ≤ x.host
  | [], r, _ => by
    refine ⟨List.pairwise_singleton _ _, fun x hx => ?_⟩
    rw [collapse, List.mem_singleton] at hx
    exact hx ▸ le_rfl
  | s :: rest, r, hp => by
    obtain ⟨hr, hp'⟩ := List.pairwise_cons.1 hp
    simp only [collapse]
    split_ifs with heq
    · exact hosts_collapse_pairwise rest (r.absorb s)
        (List.pairwise_cons.2
          ⟨fun x hx => hr x (List.mem_cons_of_mem _ hx), (List.pairwise_cons.1 hp').2⟩)
    · have hlt : r.host < s.host := lt_of_le_of_ne (hr s List.mem_cons_self) heq
      obtain ⟨h1, h2⟩ := hosts_collapse_pairwise rest s hp'
      refine ⟨?_, fun x hx => ?_⟩
      · rw [List.map_cons, List.pairwise_cons]
        refine ⟨fun h hh => ?_, h1⟩
        obtain ⟨x, hx, rfl⟩ := List.mem_map.1 hh
        exact hlt.trans_le (h2 x hx)
      · rcases List.mem_cons.1 hx with rfl | hx
        · exact le_rfl
        · exact hlt.le.trans (h2 x hx)

theorem hosts_merge_pairwise (rs : List Resolution) :
    ((merge rs).map (·.host)).Pairwise (· < ·) := by
  have hp := sortByHost_pairwise rs
  unfold merge
  cases hs : sortByHost rs with
  | nil => exact List.Pairwise.nil
  | cons r rest => exact (hosts_collapse_pairwise rest r (hs ▸ hp)).1

theorem host_of_mem_ofHost {h : String} {rs : List Resolution} {r : Resolution}
    (hr : r ∈ ofHost h rs) : r ∈ rs ∧ r.host = h := by
  unfold ofHost at hr
  simpa using hr

theorem mem_merge {rs : List Resolution} {r : Resolution} :
    r ∈ merge rs ↔ fold (ofHost r.host rs) = some r := by
  have hmem : r ∈ merge rs ↔ r ∈ ofHost r.host (merge rs) := by
    unfold ofHost
    simp
  rw [hmem, ofHost_merge, Option.mem_toList]

theorem fold_ne_none {rs : List Resolution} (h : rs ≠ []) : ∃ r, fold rs = some r := by
  cases rs with
  | nil => exact absurd rfl h
  | cons r rest => exact ⟨_, rfl⟩

theorem exists_mem_merge {rs : List Resolution} {r : Resolution} (hr : r ∈ rs) :
    ∃ m ∈ merge rs, m.host = r.host := by
  have hmem : r ∈ ofHost r.host rs := by
    unfold ofHost
    simpa using hr
  obtain ⟨m, hm⟩ := fold_ne_none (List.ne_nil_of_mem hmem)
  have hin : m ∈ ofHost r.host (merge rs) := by
    rw [ofHost_merge, hm]
    exact List.mem_singleton_self m
  exact ⟨m, host_of_mem_ofHost hin⟩

theorem hosts_merge {rs : List Resolution} {host : String} :
    host ∈ (merge rs).map (·.host) ↔ host ∈ rs.map (·.host) := by
  simp only [List.mem_map]
  constructor
  · rintro ⟨y, hy, rfl⟩
    have hfold := mem_merge.1 hy
    cases hrun : ofHost y.host rs with
    | nil =>
      rw [hrun] at hfold
      cases hfold
    | cons first rest =>
      have hfirst : first ∈ ofHost y.host rs := hrun ▸ List.mem_cons_self
      exact ⟨first, host_of_mem_ofHost hfirst⟩
  · rintro ⟨x, hx, rfl⟩
    exact exists_mem_merge hx

/-! ## What a fold holds -/

/-- The first list that is not empty; empty if all are. -/
def firstNonEmpty {α : Type} : List (List α) → List α
  | [] => []
  | [] :: rest => firstNonEmpty rest
  | (x :: xs) :: _ => x :: xs

theorem firstNonEmpty_cons_cons {α : Type} (l m : List α) (ls : List (List α)) :
    firstNonEmpty (l :: m :: ls) = firstNonEmpty ((if l.isEmpty then m else l) :: ls) := by
  cases l <;> rfl

theorem firstNonEmpty_singleton {α : Type} (l : List α) : firstNonEmpty [l] = l := by
  cases l <;> rfl

theorem firstNonEmpty_mem {α : Type} : ∀ {ls : List (List α)}, firstNonEmpty ls ≠ [] →
    firstNonEmpty ls ∈ ls
  | [], h => absurd rfl h
  | [] :: ls, h => List.mem_cons_of_mem _ (@firstNonEmpty_mem _ ls h)
  | (_ :: _) :: _, _ => List.mem_cons_self

theorem firstNonEmpty_eq_nil_iff {α : Type} : ∀ {ls : List (List α)},
    firstNonEmpty ls = [] ↔ ∀ l ∈ ls, l = []
  | [] => by simp [firstNonEmpty]
  | [] :: ls => by
    rw [List.forall_mem_cons, ← @firstNonEmpty_eq_nil_iff _ ls]
    exact (and_iff_right rfl).symm
  | (x :: xs) :: _ => by simp [firstNonEmpty]

theorem firstNonEmpty_eq_find? {α : Type} [DecidableEq α] : ∀ ls : List (List α),
    firstNonEmpty ls = (ls.find? (· ≠ [])).getD []
  | [] => rfl
  | [] :: ls => by rw [firstNonEmpty, firstNonEmpty_eq_find? ls, List.find?_cons_of_neg (by simp)]
  | (_ :: _) :: _ => rfl

theorem findSome?_cons_cons {α β : Type} (f : α → Option β) (x y : α) (l : List α) :
    (x :: y :: l).findSome? f = ((f x).or (f y)).or (l.findSome? f) := by
  simp only [List.findSome?_cons]
  cases f x <;> cases f y <;> rfl

/-- A fold takes each family and what is told of the caller from the first resolution that has it,
the greatest lifetimes, and the rest from the first one. -/
theorem foldl_absorb : ∀ (rest : List Resolution) (r : Resolution),
    rest.foldl absorb r =
      { r with
        ips := firstNonEmpty ((r :: rest).map (·.ips))
        ipsv6 := firstNonEmpty ((r :: rest).map (·.ipsv6))
        ttl := (rest.map (·.ttl)).foldl max r.ttl
        originTtl := (rest.map (·.originTtl)).foldl max r.originTtl
        clientIp := (r :: rest).findSome? (·.clientIp)
        extra := (r :: rest).findSome? (·.extra) }
  | [], r => by
    simp only [List.foldl_nil, List.map_cons, List.map_nil, firstNonEmpty_singleton,
      List.findSome?_singleton]
  | s :: rest, r => by
    rw [List.foldl_cons, foldl_absorb rest (r.absorb s)]
    simp only [List.map_cons, firstNonEmpty_cons_cons, findSome?_cons_cons, List.foldl_cons]
    simp only [absorb, fillGaps, List.findSome?_cons]
    cases r.clientIp <;> cases s.clientIp <;> cases r.extra <;> cases s.extra <;> rfl

/-- A merge has each family that one of the resolutions for the host has. -/
theorem family_of_mem_merge {rs : List Resolution} {x y : Resolution} (hx : x ∈ rs)
    (hy : y ∈ merge rs) (hhost : y.host = x.host) :
    (x.ips ≠ [] → y.ips ≠ []) ∧ (x.ipsv6 ≠ [] → y.ipsv6 ≠ []) := by
  have hfold := mem_merge.1 hy
  have hmem : x ∈ ofHost y.host rs := List.mem_filter.2 ⟨hx, decide_eq_true hhost.symm⟩
  cases hrun : ofHost y.host rs with
  | nil =>
    rw [hrun] at hmem
    cases hmem
  | cons first rest =>
    rw [hrun] at hfold hmem
    have hform : rest.foldl absorb first = y := Option.some.inj hfold
    rw [foldl_absorb rest first] at hform
    have hips : y.ips = firstNonEmpty ((first :: rest).map (·.ips)) := by rw [← hform]
    have hipsv6 : y.ipsv6 = firstNonEmpty ((first :: rest).map (·.ipsv6)) := by rw [← hform]
    rw [hips, hipsv6]
    exact ⟨fun hne h => hne (firstNonEmpty_eq_nil_iff.1 h _ (List.mem_map_of_mem hmem)),
      fun hne h => hne (firstNonEmpty_eq_nil_iff.1 h _ (List.mem_map_of_mem hmem))⟩

end HttpDns.Resolution
