import HttpDns.Proofs.BatchAnswers
import HttpDns.Proofs.Confinement
import HttpDns.Proofs.Duplicates

/-!
# Merging in parts

Absorbing is associative (`absorb_assoc`), so what the resolutions of a host fold into may be folded
in parts (`fold_append`). A merge is determined by these folds, one for each host (`merge_eq_iff`),
so parts of a list may be merged before the whole, and the resolutions of different hosts may be
mixed in any way.

A lookup of many hosts merges twice: each round merges its answers, and in the end the results of
all batches are merged. This comes to one merge of what the rounds brought the batches
(`merge_regroups`).
-/

namespace HttpDns

namespace Resolution

/-! ## Folding in parts -/

theorem fillGaps_assoc (r s t : Resolution) :
    (r.fillGaps s).fillGaps t = r.fillGaps (s.fillGaps t) := by
  cases h4 : r.ips <;> cases h6 : r.ipsv6 <;> simp [fillGaps, h4, h6]

/-- Absorbing one after the other is absorbing what the later ones come to. -/
theorem absorb_assoc (r s t : Resolution) : (r.absorb s).absorb t = r.absorb (s.absorb t) := by
  have hmax : ∀ a b c : UInt32, max (max a b) c = max a (max b c) := Std.Associative.assoc
  have hips := congrArg (·.ips) (fillGaps_assoc r s t)
  have hipsv6 := congrArg (·.ipsv6) (fillGaps_assoc r s t)
  simp only [absorb, hmax, Option.or_assoc]
  congr 1

instance : Std.Associative absorb := ⟨absorb_assoc⟩

theorem fold_append (xs ys : List Resolution) :
    fold (xs ++ ys) = (fold xs).merge absorb (fold ys) := by
  cases xs with
  | nil => cases ys <;> rfl
  | cons x xs =>
    cases ys with
    | nil => rw [List.append_nil]; rfl
    | cons y ys =>
      show some ((xs ++ y :: ys).foldl absorb x) = some ((xs.foldl absorb x).absorb _)
      rw [List.foldl_append, List.foldl_cons, List.foldl_assoc]

theorem fold_toList : ∀ o : Option Resolution, fold o.toList = o
  | none => rfl
  | some _ => rfl

/-! ## Merging in parts -/

section

variable {xs xs' ys ys' : List Resolution}

theorem ofHost_append (h : String) (xs ys : List Resolution) :
    ofHost h (xs ++ ys) = ofHost h xs ++ ofHost h ys :=
  List.filter_append ..

theorem fold_ofHost_merge (h : String) (rs : List Resolution) :
    fold (ofHost h (merge rs)) = fold (ofHost h rs) := by
  rw [ofHost_merge, fold_toList]

/-- A merge is determined by what the resolutions of each host fold into. -/
theorem merge_eq_iff :
    merge xs = merge ys ↔ ∀ h, fold (ofHost h xs) = fold (ofHost h ys) := by
  constructor
  · intro heq h
    rw [← fold_ofHost_merge, heq, fold_ofHost_merge]
  · exact fun hfold => eq_merge (hosts_merge_pairwise xs) fun h => by rw [ofHost_merge, hfold]

theorem merge_merge (rs : List Resolution) : merge (merge rs) = merge rs :=
  merge_eq_iff.2 fun h => fold_ofHost_merge h rs

theorem merge_append_congr (hxs : merge xs = merge xs') (hys : merge ys = merge ys') :
    merge (xs ++ ys) = merge (xs' ++ ys') := by
  refine merge_eq_iff.2 fun h => ?_
  rw [ofHost_append, ofHost_append, fold_append, fold_append, merge_eq_iff.1 hxs,
    merge_eq_iff.1 hys]

/-- Each part of a list may be put in the place of another one with the same merge. -/
theorem merge_flatten_congr : ∀ {parts parts' : List (List Resolution)},
    parts.map merge = parts'.map merge → merge parts.flatten = merge parts'.flatten
  | [], [], _ => rfl
  | [], _ :: _, h => nomatch h
  | _ :: _, [], h => nomatch h
  | _ :: _, _ :: _, h => by
    obtain ⟨hhead, htail⟩ := List.cons.inj h
    exact merge_append_congr hhead (merge_flatten_congr htail)

theorem merge_flatten_map (parts : List (List Resolution)) :
    merge (parts.map merge).flatten = merge parts.flatten := by
  refine merge_flatten_congr ?_
  rw [List.map_map]
  exact List.map_congr_left fun part _ => merge_merge part

/-- Lists that have the resolutions of each host in the same order are permutations of each
other. -/
theorem perm_of_ofHost (hsame : ∀ h, ofHost h xs = ofHost h ys) : xs.Perm ys := by
  refine List.perm_iff_count.2 fun r => ?_
  have hcount : ∀ rs, (ofHost r.host rs).count r = rs.count r := fun rs =>
    List.count_filter (decide_eq_true rfl)
  rw [← hcount xs, hsame, hcount]

theorem merge_congr (hsame : ∀ h, ofHost h xs = ofHost h ys) : merge xs = merge ys :=
  merge_eq_iff.2 fun h => by rw [hsame]

theorem ofHost_filter (keep : String → Bool) (h : String) (rs : List Resolution) :
    ofHost h (rs.filter fun x => keep x.host) = if keep h then ofHost h rs else [] := by
  unfold ofHost
  rw [List.filter_filter]
  split
  · rename_i hkeep
    refine List.filter_congr fun x _ => ?_
    by_cases hx : x.host = h <;> simp [hx, hkeep]
  · rename_i hdrop
    refine List.filter_eq_nil_iff.2 fun x _ => ?_
    by_cases hx : x.host = h <;> simp [hx, hdrop]

/-- Merging the resolutions of some hosts only is merging all and keeping those hosts. -/
theorem merge_filter_host (keep : String → Bool) (rs : List Resolution) :
    merge (rs.filter fun x => keep x.host) = (merge rs).filter fun x => keep x.host := by
  refine (eq_merge ?_ fun h => ?_).symm
  · exact (hosts_merge_pairwise rs).sublist (List.filter_sublist.map _)
  · rw [ofHost_filter, ofHost_filter, ofHost_merge]
    split <;> rfl

/-- A merge of what is kept under the names of its hosts is kept so too. -/
theorem cacheKey_of_mem_merge {rs : List Resolution} (hkey : ∀ x ∈ rs, x.cacheKey = x.host)
    {x : Resolution} (hx : x ∈ merge rs) : x.cacheKey = x.host := by
  have hfold := mem_merge.1 hx
  cases hrun : ofHost x.host rs with
  | nil =>
    rw [hrun] at hfold
    cases hfold
  | cons first rest =>
    obtain ⟨hmem, hhost⟩ := host_of_mem_ofHost (hrun ▸ List.mem_cons_self : first ∈ _)
    rw [hrun] at hfold
    have hform : rest.foldl absorb first = x := Option.some.inj hfold
    calc x.cacheKey = first.cacheKey := by rw [← hform, foldl_absorb]
      _ = x.host := by rw [hkey first hmem, hhost]

end

end Resolution

/-! ## One merge for a round and its batches -/

namespace Job

variable {σ : Type} (S : Services σ) (settings : JobSettings)

/-- The resolutions of a round's answers, in the order of its exchanges, before they are merged. -/
def Round.unmerged (r : Round σ) : List Resolution :=
  (r.landings S settings).flatMap (Landing.resolutions (r.instant S settings))

/-- What a round has for the hosts that the exchange of the query at a position is answered for,
before it is merged. -/
def Round.brings (r : Round σ) (k : Nat) : List Resolution :=
  (r.unmerged S settings).filter fun x =>
    (r.landings S settings)[k]?.any fun l => l.answers.any (·.host = x.host)

variable {S settings}

theorem Round.merge_brings (r : Round σ) {k : Nat} {l : Landing}
    (hl : (r.landings S settings)[k]? = some l) :
    Resolution.merge (r.brings S settings k)
      = (r.merged S settings).filter fun x => l.answers.any (·.host = x.host) := by
  unfold brings
  rw [hl]
  exact Resolution.merge_filter_host (fun host => l.answers.any (·.host = host)) _

variable {r : Round σ} {j : Job} {w : σ} {rs : List (Request × Bool)} {k : Nat} {l : Landing}
  {out : Outgoing} {answers : List Answer}

/-- An answered query goes by the names of hosts, and has nothing of its own to add to what the
round has for them. -/
structure Landing.Bare (l : Landing) (out : Outgoing) : Prop where
  asked : ∀ host, out.request.cacheKeyFor host = host
  key : ∀ host, l.query.request.cacheKeyFor host = host
  whole : l.query.partialHit = none
  results : l.query.results = []

/-- A query of a batch neither names a key nor asks the cache. -/
theorem InRun.bare (hr : InRun S j w r) (life : Life S settings rs j [] w)
    (hmulti : ∀ ra ∈ rs, ra.1.usingMulti = true) (hl : (r.landings S j.settings)[k]? = some l)
    (ho : l.outcome = .answered out answers) : l.Bare out := by
  obtain ⟨seat, hs⟩ := (r.landings_pass S j.settings).get_before hl
  obtain ⟨q, hq⟩ := (r.seats_pass S j.settings).get_before hs
  have hboard := (r.seats_pass S j.settings).each hq hs
  obtain ⟨hrun, hquery, hsent, -⟩ :=
    answered_cases hboard ((r.landings_pass S j.settings).each hs hl) ho
  obtain ⟨server, attempts, failed, hc⟩ := hboard.carry_eq
  have hpend := (Query.isRunnable_iff.1 hrun).1
  obtain ⟨ra, hra, hrooted⟩ := hr.rooted life hq hpend
  have hbatched := hmulti ra (List.mem_of_getElem? hra)
  have hkey : ∀ host, q.request.cacheKeyFor host = host := by
    intro host
    rw [hrooted.stems.cacheKeyFor_eq, Request.cacheKeyFor, hbatched]
    split <;> rfl
  have hwhole : q.partialHit = none := by
    refine Option.eq_none_iff_forall_ne_some.2 fun p hp => ?_
    obtain ⟨type, he⟩ := hrooted.half p hp
    obtain ⟨ra', hra', hsingle, -⟩ := prepare_key_eq life (mem_of_mem_about he) rfl
    rw [hmulti ra' hra'] at hsingle
    cases hsingle
  rw [hc] at hsent
  obtain ⟨_, -, rfl⟩ := Option.map_eq_some_iff.1 hsent
  have hnil : q.results = [] := hr.results_nil life hq hpend
  rw [hc] at hquery
  exact ⟨hkey, fun host => hquery ▸ hkey host, hquery ▸ hwhole, hquery ▸ hnil⟩

/-- What a round of batches has is under the names of its hosts. -/
theorem InRun.cacheKey_unmerged (hr : InRun S j w r) (life : Life S settings rs j [] w)
    (hmulti : ∀ ra ∈ rs, ra.1.usingMulti = true) :
    ∀ x ∈ r.unmerged S j.settings, x.cacheKey = x.host := by
  intro x hx
  obtain ⟨l, hl, hx⟩ := List.mem_flatMap.1 hx
  obtain ⟨k, hk⟩ := List.getElem?_of_mem hl
  unfold Landing.resolutions at hx
  split at hx
  · rename_i out answers ho
    obtain ⟨a, -, rfl⟩ := List.mem_map.1 hx
    exact (hr.bare life hmulti hk ho).asked a.host
  · cases hx
  · cases hx

/-- A batch that is answered has in the end what the round brings it, merged. -/
theorem InRun.results_eq_merge (hr : InRun S j w r) (life : Life S settings rs j [] w)
    (hmulti : ∀ ra ∈ rs, ra.1.usingMulti = true) (hgiven : ∃ a, r.Gives S j.settings k a) :
    ∃ q, (run S j w).1.1.queries[k]? = some q
      ∧ q.results = Resolution.merge (r.brings S j.settings k) := by
  obtain ⟨a, ha⟩ := hgiven
  obtain ⟨l, hl, hmem⟩ := ha.landing
  cases ho : l.outcome with
  | idle | failed =>
    rw [Landing.answers, ho] at hmem
    cases hmem
  | answered out answers =>
    have hbare := hr.bare life hmulti hl ho
    refine ⟨_, hr.completes hl ho, ?_⟩
    show l.query.results ++ share (r.merged S j.settings) l.query answers = _
    rw [r.merge_brings hl, hbare.results, List.nil_append, share, hbare.whole,
      show l.answers = answers by rw [Landing.answers, ho]]
    refine (List.map_congr_left fun x hx => ?_).trans (List.map_id _)
    have hkey : x.cacheKey = x.host :=
      Resolution.cacheKey_of_mem_merge (hr.cacheKey_unmerged life hmulti) (List.mem_filter.1 hx).1
    exact congrArg (fun key => { x with cacheKey := key }) ((hbare.key x.host).trans hkey.symm)

variable (S j w) in
/-- What comes to the query at a position in a run, before anything is merged: what the round has
for it that it is answered in, or nothing. -/
inductive Brought (k : Nat) : List Resolution → Prop
  | answered (r : Round σ) (hr : InRun S j w r) (given : ∃ a, r.Gives S j.settings k a) :
      Brought k (r.brings S j.settings k)
  | unanswered (h : ∀ r, InRun S j w r → ∀ a, ¬ r.Gives S j.settings k a) : Brought k []

theorem Ends.brought {q : Query} (h : Ends S j w k q) (life : Life S settings rs j [] w)
    (hmulti : ∀ ra ∈ rs, ra.1.usingMulti = true) (hq : (run S j w).1.1.queries[k]? = some q) :
    ∃ raw, Brought S j w k raw ∧ q.results = Resolution.merge raw := by
  cases h with
  | completed _ r hin =>
    obtain ⟨q', hq', hresults⟩ := hin.inRun.results_eq_merge life hmulti hin.given
    obtain rfl := Option.some.inj (hq.symm.trans hq')
    exact ⟨_, .answered r hin.inRun hin.given, hresults⟩
  | exhausted _ results unanswered =>
    exact ⟨[], .unanswered fun _ hr _ => unanswered hr, results⟩

end Job

namespace Client

open Job Resolution

theorem life_addAll {σ : Type} {S : Services σ} {settings : JobSettings} {w : σ} :
    ∀ {asks : List Request} {rs : List (Request × Bool)} {j j' : Job},
      Life S settings rs j [] w → addAll j asks = .ok j' →
        Life S settings (rs ++ asks.map (·, false)) j' [] w
  | [], rs, j, j', life, h => by
    cases h
    rwa [List.map_nil, List.append_nil]
  | ask :: asks, rs, j, j', life, h => by
    rw [addAll] at h
    split at h
    · cases h
    · rename_i j₁ hadd
      have hrest := life_addAll (life.queued hadd) h
      rwa [List.append_assoc] at hrest

/-- One merge of what comes to the queries of a job, in their order. -/
def MergesOnce {τ : Type} (S : Services τ) (j : Job) (w : State τ) (results : List Resolution) :
    Prop :=
  ∃ raws : List (List Resolution), raws.length = j.queries.length
    ∧ (∀ k raw, raws[k]? = some raw → Brought (services S) j w k raw)
    ∧ results = merge raws.flatten

section

variable {τ : Type} {S : Services τ} {c : Client} {hosts : List String} {q : QueryType}
  {s : State τ} {results : List Resolution} {j : Job} {w : State τ}

/-- The results of all queries, each of them a merge, come to one merge. -/
theorem Gathers.mergesOnce (h : Gathers S j w results)
    (hbrought : ∀ {k q}, (run S j w).1.1.queries[k]? = some q →
      ∃ raw, Brought (services S) j w k raw ∧ q.results = merge raw) :
    MergesOnce S j w results := by
  let qs := (run S j w).1.1.queries
  have heach : ∀ k : Fin qs.length,
      ∃ raw, Brought (services S) j w k raw ∧ qs[k].results = merge raw :=
    fun k => hbrought (List.getElem?_eq_getElem k.isLt)
  choose raw hraw hmerge using heach
  have hresults : qs.map (·.results) = (List.ofFn raw).map merge := by
    rw [List.map_ofFn]
    refine List.ext_getElem (by simp) fun k hk _ => ?_
    rw [List.getElem_map, List.getElem_ofFn]
    exact hmerge ⟨k, by simpa using hk⟩
  refine ⟨List.ofFn raw, (List.length_ofFn).trans (length_run S j w), fun k part hk => ?_, ?_⟩
  · rw [List.getElem?_ofFn] at hk
    split at hk
    · cases hk
      exact hraw ⟨k, _⟩
    · cases hk
  · calc results = merge (qs.map (·.results)).flatten := by
          rw [h.merged, flatMap_completed h.ends]
          rfl
      _ = merge ((List.ofFn raw).map merge).flatten := by rw [hresults]
      _ = merge (List.ofFn raw).flatten := merge_flatten_map _

theorem mergesOnce_of_resolveBatch (h : (resolveBatch S c hosts q s).1 = .ok results) : ∃ j,
    addAll c.job (c.batchRequests hosts q) = .ok j
      ∧ MergesOnce S j (ensureServers S c s).2.2 results := by
  obtain ⟨j, hadd, -, hgathers⟩ := resolveBatch_gathers h
  have life := life_addAll (.made (ensureServers S c s).2.2 (S := services S)) hadd
  refine ⟨j, hadd, hgathers.mergesOnce fun hq => (hgathers.ends hq).brought life ?_ hq⟩
  intro ra hra
  obtain ⟨ask, hask, rfl⟩ := List.mem_map.1 hra
  exact usingMulti_batchRequests ask hask

end

/-- Two lists may be merged each on its own before they are merged together, and so may any number
of them; merging twice is merging once; and a list may be permuted in any way that keeps the order
of the resolutions of each host. A lookup of many hosts, which merges in each round and then
merges the results of all batches, comes to one merge of what the rounds brought the batches. -/
theorem merge_regroups :
    (∀ xs ys, merge (merge xs ++ merge ys) = merge (xs ++ ys))
      ∧ (∀ xs, merge (merge xs) = merge xs)
      ∧ (∀ xs zs, (∀ h, ofHost h zs = ofHost h xs) → zs.Perm xs ∧ merge zs = merge xs)
      ∧ (∀ rounds : List (List Resolution), merge (rounds.flatMap merge) = merge rounds.flatten)
      ∧ ∀ {τ : Type} {S : Services τ} {c : Client} {hosts : List String} {q : QueryType}
          {s : State τ} {results : List Resolution},
        (resolveBatch S c hosts q s).1 = .ok results → ∃ j,
          addAll c.job (c.batchRequests hosts q) = .ok j
            ∧ MergesOnce S j (ensureServers S c s).2.2 results :=
  ⟨fun xs ys => merge_append_congr (merge_merge xs) (merge_merge ys), merge_merge,
    fun _ _ hsame => ⟨perm_of_ofHost hsame, merge_congr hsame⟩, merge_flatten_map,
    mergesOnce_of_resolveBatch⟩

/-- The families of one host stay in their order as another host moves; and the hosts of two batches
that are answered in different rounds. -/
theorem merge_regroups_families :
    let a4 : Resolution := { host := "a.com", cacheKey := "k", ips := [⟨"192.0.2.1", none⟩] }
    let a6 : Resolution := { host := "a.com", cacheKey := "", ipsv6 := [⟨"2001:db8::1", none⟩] }
    let b : Resolution := { host := "b.com", cacheKey := "b.com", ttl := 60 }
    let S := scripted familyAnswers
    let fault : Reply := .error (.timeout 2500)
    let s : State (List Reply × Unit) := ({}, { ipv4 := [⟨"203.0.113.7", none⟩] }, {},
      [.ok ⟨statusOk, "ipv4", 8⟩, fault, fault, .ok ⟨statusOk, "ipv6", 8⟩], ())
    let hosts := ["a.com", "b.com", "c.com", "d.com", "e.com", "a.com", "b.com", "f.com", "g.com",
      "h.com", "i.com"]
    (merge [b, a4, a6] = merge [a4, b, a6]
        ∧ merge (merge [b, a4] ++ merge [a6]) = [{ a4 with ipsv6 := a6.ipsv6 }, b])
      ∧ ∃ results j, (resolveBatch S plain hosts .both s).1 = .ok results
        ∧ results.map (·.host) = ["a.com", "b.com"]
        ∧ addAll plain.job (plain.batchRequests hosts .both) = .ok j
        ∧ MergesOnce S j s results := by
  intro a4 a6 b S fault s hosts
  obtain ⟨happend, -, hperm, -, hbatch⟩ := merge_regroups
  have hsame : ∀ h, ofHost h [b, a4, a6] = ofHost h [a4, b, a6] := by
    intro h
    by_cases ha : "a.com" = h
    · subst ha
      rfl
    · simp [ofHost, List.filter_cons, a4, a6, ha]
  refine ⟨⟨(hperm _ _ hsame).2, ?_⟩, ?_⟩
  · rw [happend]
    decide +kernel
  · have hhosts : (resolveBatch S plain hosts .both s).1.map (·.map (·.host))
        = .ok ["a.com", "b.com"] := by
      decide +kernel
    cases h : (resolveBatch S plain hosts .both s).1 with
    | error e =>
      rw [h] at hhosts
      cases hhosts
    | ok results =>
      rw [h] at hhosts
      obtain ⟨j, hadd, honce⟩ := hbatch h
      exact ⟨results, j, rfl, Except.ok.inj hhosts, hadd, honce⟩

end Client

end HttpDns
