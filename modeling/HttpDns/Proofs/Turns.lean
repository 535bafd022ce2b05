import HttpDns.Proofs.Confinement
import HttpDns.Proofs.Reuse
import Mathlib.Data.List.Rotate
import Mathlib.Order.Interval.Finset.Nat

/-!
# Addresses in turn

A full hit reports the entry as it is and then advances its addresses. As long as nothing else is
done under a key, the hits on it, in however many runs, report the addresses of each family in turn:
the next one comes first each time, and all of them have been first when as many hits are over
(`hits_turn`). Nothing but the order of the addresses changes in the entry meanwhile.
-/

namespace HttpDns

/-! ## Turned lists -/

theorem Endpoints.rotate_eq (l : Endpoints) : Endpoints.rotate l = List.rotate l 1 := by
  cases l <;> simp [Endpoints.rotate]

/-- While a list is turned on as many times as it is long, each element comes first once. -/
theorem first_once {α : Type} {l : List α} (h : l.Nodup) (start : Nat) {a : α} (ha : a ∈ l) :
    ∃! i, (start ≤ i ∧ i < start + l.length) ∧ (l.rotate i).head? = some a := by
  obtain ⟨p, hp, rfl⟩ := List.getElem_of_mem ha
  have hfirst : ∀ i, (l.rotate i).head? = some l[p] ↔ i % l.length = p := by
    intro i
    have hi : i % l.length < l.length := Nat.mod_lt i (by omega)
    rw [← List.rotate_mod, List.head?_rotate hi, List.getElem?_eq_getElem hi, Option.some.injEq]
    exact h.getElem_inj_iff
  have hmem : p ∈ (Finset.Ico start (start + l.length)).image (· % l.length) := by
    rw [Nat.image_Ico_mod]
    exact Finset.mem_range.2 hp
  obtain ⟨i, hi, hip⟩ := Finset.mem_image.1 hmem
  refine ⟨i, ⟨Finset.mem_Ico.1 hi, (hfirst i).2 hip⟩, fun i' ⟨hi', hfirst'⟩ => ?_⟩
  have hsame : i' % l.length = i % l.length := ((hfirst i').1 hfirst').trans hip.symm
  exact Nat.mod_injOn_Ico start l.length (Finset.mem_coe.2 (Finset.mem_Ico.2 hi'))
    (Finset.mem_coe.2 hi) hsame

/-- The resolution with the addresses of each family turned on a number of times. -/
def Resolution.turned (r : Resolution) (n : Nat) : Resolution :=
  { r with
    ips := List.rotate r.ips (n % r.ips.length)
    ipsv6 := List.rotate r.ipsv6 (n % r.ipsv6.length) }

theorem Resolution.iterate_rotate (r : Resolution) (n : Nat) :
    Resolution.rotate^[n] r = r.turned n := by
  simp only [turned, List.rotate_mod]
  induction n with
  | zero => simp
  | succ n ih =>
    rw [Function.iterate_succ_apply', ih]
    simp [Resolution.rotate, Endpoints.rotate_eq, List.rotate_rotate]

theorem Resolution.satisfies_turned (r : Resolution) (n : Nat) (type : QueryType) :
    (r.turned n).satisfies type = r.satisfies type := by
  have hempty : ∀ (l : Endpoints) k, (List.rotate l k).isEmpty = l.isEmpty := fun l k => by
    rw [Bool.eq_iff_iff, List.isEmpty_iff, List.isEmpty_iff, List.rotate_eq_nil_iff]
  simp only [satisfies, turned, hempty]

theorem Family.kept_turned (f : Family) (r : Resolution) (n : Nat) :
    f.kept (r.turned n) = List.rotate (f.kept r) n := by
  cases f <;> exact List.rotate_mod _ _

/-! ## Full hits -/

/-- A query is told all that it asks for by the cache. -/
structure Hit where
  query : Nat
  type : QueryType
  found : Resolution
  deriving DecidableEq, Repr

/-- What is told of a hit: the look-up, and that the addresses are advanced. -/
def Hit.events (key : String) (h : Hit) : List Event :=
  [.probed h.query key h.type (some h.found), .rotated h.query key]

/-- The full hit on a key that an event tells of. -/
def Event.hit? (key : String) : Event → Option Hit
  | .probed k key' type (some x) =>
    if key' = key ∧ x.satisfies type = true then some ⟨k, type, x⟩ else none
  | .probed _ _ _ none | .detected _ | .drew .. | .rotated .. | .switched .. | .sent ..
  | .sampled .. | .stored .. | .fired .. | .asked _ => none

/-- The full hits on a key that some events tell of, in order. -/
def hitsOn (key : String) (es : List Event) : List Hit :=
  es.filterMap (Event.hit? key)

/-- The events that are about a key. -/
def keyed (key : String) (es : List Event) : List Event :=
  es.filter (·.key? = some key)

def Event.isRotation : Event → Bool
  | .rotated .. => true
  | .probed .. | .detected _ | .drew .. | .switched .. | .sent .. | .sampled .. | .stored ..
  | .fired .. | .asked _ => false

/-- Nothing is done under a key but full hits. -/
def OnlyHits (key : String) (es : List Event) : Prop :=
  ∀ e ∈ es, e.key? = some key → (e.hit? key).isSome = true ∨ e.isRotation = true

instance (key : String) (es : List Event) : Decidable (OnlyHits key es) :=
  inferInstanceAs (Decidable (∀ e ∈ es, _))

/-- The events about a key tell of full hits on it, one after the other. -/
def Paired (key : String) (es : List Event) : Prop :=
  keyed key es = (hitsOn key es).flatMap (Hit.events key)

variable {key : String} {es fs : List Event}

theorem Event.hit?_eq_some {e : Event} {h : Hit} (he : e.hit? key = some h) :
    e = .probed h.query key h.type (some h.found) ∧ h.found.satisfies h.type = true := by
  unfold hit? at he
  split at he
  · split at he
    · rename_i hwhole
      obtain ⟨rfl, hsat⟩ := hwhole
      cases he
      exact ⟨rfl, hsat⟩
    · cases he
  all_goals cases he

theorem mem_hitsOn {h : Hit} (hh : h ∈ hitsOn key es) :
    .probed h.query key h.type (some h.found) ∈ es ∧ h.found.satisfies h.type = true := by
  obtain ⟨e, he, heq⟩ := List.mem_filterMap.1 hh
  obtain ⟨rfl, hsat⟩ := Event.hit?_eq_some heq
  exact ⟨he, hsat⟩

theorem OnlyHits.of_subset (h : OnlyHits key fs) (hsub : es ⊆ fs) : OnlyHits key es :=
  fun e he => h e (hsub he)

theorem Event.hit?_of_key? {e : Event} (he : e.key? ≠ some key) : e.hit? key = none := by
  cases hh : e.hit? key with
  | none => rfl
  | some h =>
    obtain ⟨rfl, -⟩ := hit?_eq_some hh
    exact absurd rfl he

namespace Paired

theorem append (h : Paired key es) (h' : Paired key fs) : Paired key (es ++ fs) := by
  unfold Paired keyed hitsOn at *
  rw [List.filter_append, List.filterMap_append, List.flatMap_append, h, h']

/-- Events about nothing of the key are no hits on it. -/
theorem aside (h : ∀ e ∈ es, e.key? ≠ some key) : Paired key es := by
  have hkeyed : keyed key es = [] := List.filter_eq_nil_iff.2 fun e he => by simpa using h e he
  have hhits : hitsOn key es = [] :=
    List.filterMap_eq_nil_iff.2 fun e he => Event.hit?_of_key? (h e he)
  unfold Paired
  rw [hkeyed, hhits]
  rfl

/-- Only the events about the key matter. -/
theorem of_filter {p : Event → Bool} (hp : ∀ e ∈ es, e.key? = some key → p e = true)
    (h : Paired key (es.filter p)) : Paired key es := by
  have hkeyed : keyed key (es.filter p) = keyed key es := by
    unfold keyed
    rw [List.filter_filter]
    refine List.filter_congr fun e he => ?_
    by_cases hkey : e.key? = some key
    · simp [hkey, hp e he hkey]
    · simp [hkey]
  have hhits : hitsOn key (es.filter p) = hitsOn key es := by
    unfold hitsOn
    rw [List.filterMap_filter]
    refine List.filterMap_congr fun e he => ?_
    by_cases hkey : e.key? = some key
    · rw [if_pos (hp e he hkey)]
    · rw [Event.hit?_of_key? hkey]
      exact ite_self none
  unfold Paired at h ⊢
  rwa [hkeyed, hhits] at h

end Paired

/-! ## What hits do to an entry -/

namespace Follows

variable {c c' : Cache} {e : Event} {rest : List Event}

/-- Up to the first event about a key, its entry stays as it is. -/
theorem upto (h : Follows c es c') (hc : c.WellKept) (hkeyed : keyed key es = e :: rest) :
    ∃ (c₁ : Cache) (now : Nat) (after : List Event), c₁.WellKept
      ∧ c₁.entries.get? key = c.entries.get? key
      ∧ (∀ {k key type x}, e = .probed k key type x → x = (c₁.lookup key type now).1)
      ∧ Follows (c₁.heed now e) after c' ∧ keyed key after = rest := by
  obtain ⟨before, after, rfl, hbefore, -, hafter⟩ := List.filter_eq_cons_iff.1 hkeyed
  obtain ⟨c₁, hfirst, hrest⟩ := h.split
  cases hrest with
  | cons now found hrest =>
    refine ⟨c₁, now, after, hfirst.wellKept hc, ?_, found, hrest, hafter⟩
    exact hfirst.get?_eq hc fun e he hkey => hbefore e he (by simpa using hkey)

/-- Each hit finds the entry as the hits before have turned it. -/
theorem turned {hits : List Hit} {r : Resolution} (h : Follows c es c') (hc : c.WellKept)
    (hget : c.entries.get? key = some r) (hkeyed : keyed key es = hits.flatMap (Hit.events key)) :
    (∀ (i : Nat) (x : Hit), hits[i]? = some x → x.found = Resolution.rotate^[i] r)
      ∧ c'.entries.get? key = some (Resolution.rotate^[hits.length] r) := by
  induction hits generalizing c es r with
  | nil =>
    have hnone : ∀ e ∈ es, e.key? ≠ some key := fun e he => by
      simpa using List.filter_eq_nil_iff.1 hkeyed e he
    exact ⟨by simp, (h.get?_eq hc hnone).trans hget⟩
  | cons x hits ih =>
    -- the look-up, which finds the entry as it is
    obtain ⟨c₁, now, after, hc₁, hget₁, hfound, h₁, hkeyed₁⟩ := h.upto hc hkeyed
    have hlookup := (hfound rfl).symm
    obtain ⟨hhere, hlive⟩ := Cache.lookup_eq_some hlookup
    rw [hget₁, hget] at hhere
    obtain rfl : r = x.found := Option.some.inj hhere
    have hkept : (c₁.heed now (.probed x.query key x.type (some x.found))).entries.get? key
        = some x.found := by
      rw [Cache.get?_heed hc₁, hget₁, hget]
      simpa [Event.op?, Cache.Op.next, Option.filter, Resolution.isExpiredAt] using hlive
    -- the rotation that follows it
    obtain ⟨c₂, now', after', hc₂, hget₂, -, h₂, hkeyed₂⟩ := h₁.upto (hc₁.heed now _) hkeyed₁
    have hturned : (c₂.heed now' (.rotated x.query key)).entries.get? key
        = some x.found.rotate := by
      rw [Cache.get?_heed hc₂, hget₂, hkept]
      simp [Event.op?, Cache.Op.next]
    obtain ⟨hrest, hend⟩ := ih h₂ (hc₂.heed now' _) hturned hkeyed₂
    refine ⟨fun i y hy => ?_, hend⟩
    cases i with
    | zero =>
      obtain rfl : x = y := by simpa using hy
      rfl
    | succ i => exact hrest i y (by simpa using hy)

end Follows

namespace Job

variable {σ : Type} {S : Services σ}

/-! ## The hits of a run -/

theorem Probed.paired {i : Nat} {q q' : Query} (h : Probed i q q' es) (hes : OnlyHits key es) :
    Paired key es := by
  by_cases hkey : q.ownKey = key
  · subst hkey
    cases h with
    | skipped => exact .aside (by simp)
    | missed =>
      have hsome := hes _ List.mem_cons_self rfl
      simp [Event.hit?, Event.isRotation] at hsome
    | half _ r type hr =>
      have hpart : r.satisfies q.queryType = false := by
        rw [← Bool.not_eq_true, ← Resolution.missing_eq_none_iff, hr]
        exact Option.some_ne_none type
      have hsome := hes _ List.mem_cons_self rfl
      simp [Event.hit?, Event.isRotation, hpart] at hsome
    | whole _ r hr =>
      have hsat := Resolution.missing_eq_none_iff.1 hr
      refine .append ?_ (.aside fun e he => ?_)
      · simp [Paired, keyed, hitsOn, Event.key?, Event.hit?, hsat, Hit.events]
      · rw [key?_callback he]
        exact Option.some_ne_none _ ∘ Eq.symm
  · refine .aside fun e he hown => hkey ?_
    cases h with
    | skipped => cases he
    | missed | half => simp_all [Event.key?]
    | whole =>
      rcases List.mem_append.1 he with he | he
      · simp only [List.mem_cons, List.not_mem_nil, or_false] at he
        rcases he with rfl | rfl <;> exact Option.some.inj hown
      · rw [key?_callback he] at hown
        cases hown

theorem Prepared.paired {i : Nat} {q q' : Query} (h : Prepared i q q' es)
    (hes : OnlyHits key es) : Paired key es := by
  cases h with
  | passed => exact .aside (by simp)
  | readied _ served _ probed =>
    refine .append (.aside fun e he => ?_) (probed.paired (hes.of_subset (by simp)))
    cases served with
    | named => cases he
    | drawn =>
      rw [List.mem_singleton.1 he]
      exact Option.some_ne_none _ ∘ Eq.symm

theorem prepare_paired : ∀ (i : Nat) (seen : Option Stack) (qs : List Query) (w : σ),
    OnlyHits key (prepare S i seen qs w).2.1 → Paired key (prepare S i seen qs w).2.1
  | _, _, [], _, _ => .aside (by simp [prepare])
  | i, seen, q :: rest, w, h => by
    rcases prepare_cons S i seen q rest w with ⟨-, w', heq⟩ | ⟨q', es, seen', w', hp, hown, heq⟩
    · rw [heq]
      exact .aside (by simp [Event.key?])
    · rw [heq] at h ⊢
      refine .append (.of_filter (fun e he hkey => ?_) (hp.paired ?_))
        (prepare_paired (i + 1) seen' rest w' (h.of_subset (by simp)))
      · rcases hown e he with hquery | ⟨stack, rfl⟩
        · simpa using hquery
        · cases hkey
      · exact h.of_subset fun e he => List.mem_append_left _ (mem_of_mem_about he)

/-- Where nothing is done under a key but full hits, the events of a run about it tell of these. -/
theorem run_paired {j : Job} {w : σ} (h : OnlyHits key (run S j w).2.1) :
    Paired key (run S j w).2.1 := by
  have hrun := executes_run S j w
  generalize run S j w = out at hrun h ⊢
  cases hrun with
  | refused => exact prepare_paired 0 none j.queries w h
  | settled hok hs =>
    refine .append (prepare_paired 0 none j.queries w (h.of_subset (by simp)))
      (.aside fun e he hkey => ?_)
    -- the rounds only cache, which is no hit
    obtain ⟨k, x, -, -, -, -, rfl, -⟩ := hs.stores he hkey
    rcases h _ (List.mem_append_right _ he) hkey with hhit | hrotation
    · cases hhit
    · cases hrotation

/-- The results of the query at a position. -/
def reported (j : Job) (k : Nat) : List Resolution :=
  j.queries[k]?.elim [] (·.results)

theorem Prepared.whole {i : Nat} {q q' : Query} (h : Prepared i q q' es) {type : QueryType}
    {x : Resolution} (he : Event.probed i key type (some x) ∈ es)
    (hsat : x.satisfies type = true) : q.state = .pending ∧ q'.state = .completed
      ∧ q'.results = q.results ++ [{ x with hitCache := true }] := by
  cases h with
  | passed => cases he
  | @readied hpend q₁ q₂ _ es fs served typed probed =>
    refine ⟨hpend, ?_⟩
    have hfs : Event.probed i key type (some x) ∈ fs := by
      rcases List.mem_append.1 he with he | he
      · cases served with
        | named => cases he
        | drawn => simp at he
      · exact he
    cases probed with
    | skipped => cases hfs
    | missed => simp at hfs
    | whole _ r hr =>
      obtain rfl : x = r := by
        rcases List.mem_append.1 hfs with hfs | hfs
        · simp_all
        · have hnone := key?_callback hfs
          cases hnone
      refine ⟨rfl, ?_⟩
      rw [Query.complete, (served.readies typed).results]
    | half _ r type' hr =>
      obtain ⟨-, rfl, rfl⟩ : key = q₂.ownKey ∧ type = q₂.queryType ∧ x = r := by simpa using hfs
      rw [Resolution.missing_eq_none_iff.2 hsat] at hr
      cases hr

/-- A full hit is what its query has for a result when the run is over. -/
theorem Life.reported_eq {settings : JobSettings} {rs : List (Request × Bool)} {j : Job}
    {gs : List Event} {w : σ} (life : Life S settings rs j gs w) {h : Hit}
    (hh : h ∈ hitsOn key (run S j w).2.1) :
    (run S j w).1.1.reported h.query = [{ h.found with hitCache := true }] := by
  obtain ⟨hprobed, hsat⟩ := mem_hitsOn hh
  obtain ⟨hmem, q, q₁, hq, hq₁, hprepared⟩ := prepared_of_probed hprobed
  obtain ⟨ra, hra⟩ := life.sound.get_before hq
  obtain ⟨hpend, hdone, hresults⟩ := hprepared.whole hmem hsat
  obtain ⟨hfinal, -⟩ := run_of_prepared hq₁ hdone
  rw [reported, hfinal, Option.elim_some, hresults, ((life.sound.each hra hq).pending hpend).1]
  rfl

/-! ## Hits of any number of runs -/

variable {τ : Type}

/-- Jobs over one cache are run one after the other, and other things are done between them. Under a
key nothing is done but full hits, which report these results, in order. -/
inductive Turns (S : Services τ) (key : String) :
    Cache × τ → List (List Resolution) → Cache × τ → Prop
  | done (s : Cache × τ) : Turns S key s [] s
  | elsewhere {s s' : Cache × τ} {xs : List (List Resolution)} (ops : List Cache.Op) (w : τ)
      (aside : ∀ op ∈ ops, ¬ op.IsOn key)
      (rest : Turns S key (ops.foldl Cache.apply s.1, w) xs s') : Turns S key s xs s'
  | ran {settings : JobSettings} {rs : List (Request × Bool)} {j : Job} {es : List Event}
      {s s' : Cache × τ} {xs : List (List Resolution)} (life : Life S.withCache settings rs j es s)
      (hits : OnlyHits key (run S.withCache j s).2.1)
      (rest : Turns S key (run S.withCache j s).2.2 xs s') :
      Turns S key s ((hitsOn key (run S.withCache j s).2.1).map
        (fun h => (run S.withCache j s).1.1.reported h.query) ++ xs) s'

variable {S : Services τ} {s s' : Cache × τ} {r : Resolution} {xs : List (List Resolution)}

theorem Turns.turned (h : Turns S key s xs s') (hc : s.1.WellKept)
    (hget : s.1.entries.get? key = some r) :
    (∀ (i : Nat) (x : List Resolution), xs[i]? = some x →
        x = [{ Resolution.rotate^[i] r with hitCache := true }])
      ∧ s'.1.entries.get? key = some (Resolution.rotate^[xs.length] r) := by
  induction h generalizing r with
  | done => exact ⟨by simp, hget⟩
  | elsewhere ops w haside _ ih =>
    have hkept := Cache.get?_foldl_of_not_isOn haside hc
    exact ih (List.foldlRecOn ops Cache.apply hc fun _ h op _ => h.apply op) (hkept.trans hget)
  | @ran settings rs j es s s' xs life hits _ ih =>
    have hfollows := run_follows S j s.1 s.2
    obtain ⟨hfound, hlast⟩ := hfollows.turned hc hget (run_paired hits)
    obtain ⟨hrest, hend⟩ := ih (hfollows.wellKept hc) hlast
    refine ⟨fun i x hx => ?_, ?_⟩
    · rw [List.getElem?_append] at hx
      split at hx
      · rw [List.getElem?_map] at hx
        obtain ⟨h, hh, rfl⟩ := Option.map_eq_some_iff.1 hx
        rw [life.reported_eq (List.mem_of_getElem? hh), hfound i h hh]
      · rename_i hlater
        rw [hrest _ x hx, ← Function.iterate_add_apply]
        rw [List.length_map] at hlater ⊢
        rw [Nat.sub_add_cancel (Nat.le_of_not_lt hlater)]
    · rw [hend, ← Function.iterate_add_apply, List.length_append, List.length_map, Nat.add_comm]

/-- While nothing is done under a key but full hits, in any number of runs and with anything done
elsewhere between them, each hit reports the entry with the addresses of each family turned on once
more; so among as many hits in a row as there are distinct addresses each one comes first once. The
entry keeps its addresses, its lifetimes and the instant at which it expires, and until then every
look-up for families that it has finds it. -/
theorem hits_turn (h : Turns S key s xs s') (hc : s.1.WellKept)
    (hget : s.1.entries.get? key = some r) :
    (∀ (i : Nat) (x : List Resolution), xs[i]? = some x → x = [{ r with
        ips := List.rotate r.ips (i % r.ips.length)
        ipsv6 := List.rotate r.ipsv6 (i % r.ipsv6.length)
        hitCache := true }])
      ∧ (∀ (f : Family) (start : Nat) (addr : String), (f.kept r).addrs.Nodup →
        start + (f.kept r).length ≤ xs.length → addr ∈ (f.kept r).addrs →
          ∃! i, (start ≤ i ∧ i < start + (f.kept r).length)
            ∧ ∃ x, xs[i]? = some [x] ∧ (f.kept x).addrs.head? = some addr)
      ∧ ∃ r', s'.1.entries.get? key = some r'
        ∧ r' = { r with ips := r'.ips, ipsv6 := r'.ipsv6 }
        ∧ (r'.ips.Perm r.ips ∧ r'.ipsv6.Perm r.ipsv6) ∧ r'.expiresAt = r.expiresAt
        ∧ ∀ type now, r.satisfies type = true → now < r.expiresAt →
          (s'.1.lookup key type now).1 = some r' := by
  obtain ⟨hreports, hlast⟩ := h.turned hc hget
  simp only [Resolution.iterate_rotate] at hreports hlast
  refine ⟨hreports, fun f start addr hnodup hlen haddr => ?_, _, hlast, rfl,
    ⟨List.rotate_perm _ _, List.rotate_perm _ _⟩, rfl, fun type now hsat hlive => ?_⟩
  · have hlength : (f.kept r).addrs.length = (f.kept r).length := List.length_map _
    -- the hit at a position of the stretch has the list turned on so often
    have hfirst : ∀ i < start + (f.kept r).length,
        (∃ x, xs[i]? = some [x] ∧ (f.kept x).addrs.head? = some addr)
          ↔ ((f.kept r).addrs.rotate i).head? = some addr := by
      intro i hi
      have hsome : xs[i]? = some xs[i] := List.getElem?_eq_getElem (by omega)
      have hkept : (f.kept { r.turned i with hitCache := true }).addrs
          = (f.kept r).addrs.rotate i := by
        have hsame : f.kept { r.turned i with hitCache := true } = f.kept (r.turned i) := by
          cases f <;> rfl
        rw [hsame, f.kept_turned, Endpoints.addrs, Endpoints.addrs, List.map_rotate]
      rw [hsome, hreports i _ hsome, ← hkept]
      simp
    obtain ⟨i, ⟨hi, hhead⟩, hunique⟩ := first_once hnodup start haddr
    rw [hlength] at hi hunique
    refine ⟨i, ⟨hi, (hfirst i hi.2).2 hhead⟩, fun i' h' => ?_⟩
    exact hunique i' ⟨h'.1, (hfirst i' h'.1.2).1 h'.2⟩
  · exact Cache.lookup_of_satisfies hlast hlive ((r.satisfies_turned _ _).trans hsat)

/-- An answer with three addresses of IPv4 and two of IPv6, for a minute. -/
def wideAnswer : Resolution where
  host := "a.com"
  cacheKey := "a.com"
  ips := [⟨"192.0.2.1", none⟩, ⟨"192.0.2.2", none⟩, ⟨"192.0.2.3", none⟩]
  ipsv6 := [⟨"2001:db8::1", none⟩, ⟨"2001:db8::2", none⟩]
  ttl := 60

def askWide (type : QueryType) : Request × Bool :=
  ({ host := "a.com", accountId := "100000", resolver := some "203.0.113.1", queryType := type },
    true)

/-- A run of a job that asks for these types of addresses. -/
def runWide (types : List QueryType) (s : Cache × Unit) :
    (Job × Except Error Unit) × List Event × (Cache × Unit) :=
  run (Services.unheard fun _ => none).withCache (holding ⟨0, "", "", 0⟩ (types.map askWide)) s

theorem runWide_turns {types : List QueryType} {s s' : Cache × Unit}
    {xs : List (List Resolution)} {ks : List Nat} (hits : OnlyHits "a.com" (runWide types s).2.1)
    (hqueries : (hitsOn "a.com" (runWide types s).2.1).map (·.query) = ks)
    (rest : Turns (Services.unheard fun _ => none) "a.com" (runWide types s).2.2 xs s') :
    Turns (Services.unheard fun _ => none) "a.com" s
      (ks.map (runWide types s).1.1.reported ++ xs) s' := by
  have hvalid : ∀ ra ∈ types.map askWide, ra.1.fault? = none := by
    intro ra hra
    obtain ⟨type, -, rfl⟩ := List.mem_map.1 hra
    cases type <;> decide
  rw [← hqueries, List.map_map]
  exact .ran (.holding hvalid s) hits rest

/-- Two runs, with another answer cached in between, hit the key three times: twice for IPv4 in the
first one, and for both families in the second one. -/
theorem hits_turn_twice :
    let other : Resolution := { wideAnswer with host := "b.com", cacheKey := "b.com" }
    let c := Cache.run [.update wideAnswer]
    let first := runWide [.a, .a] (c, ())
    let second := runWide [.both] (first.2.2.1.update other, ())
    let xs := [0, 1].map first.1.1.reported ++ ([0].map second.1.1.reported ++ [])
    Turns (Services.unheard fun _ => none) "a.com" (c, ()) xs second.2.2
      ∧ (c.WellKept ∧ c.entries.get? "a.com" = some wideAnswer)
      ∧ second.1.1.reported 0 = [{ wideAnswer with
          ips := List.rotate wideAnswer.ips (2 % 3)
          ipsv6 := List.rotate wideAnswer.ipsv6 (2 % 2)
          hitCache := true }]
      ∧ (wideAnswer.ips.addrs.Nodup ∧ 0 + 3 ≤ xs.length ∧ "192.0.2.2" ∈ wideAnswer.ips.addrs)
      ∧ ∃! i, (0 ≤ i ∧ i < 0 + 3)
        ∧ ∃ x, xs[i]? = some [x] ∧ x.ips.addrs.head? = some "192.0.2.2" := by
  intro other c first second xs
  have turns : Turns (Services.unheard fun _ => none) "a.com" (c, ()) xs second.2.2 := by
    refine runWide_turns (by decide +kernel) (by decide +kernel)
      (.elsewhere [.update other] () (fun op hop => ?_)
        (runWide_turns (by decide +kernel) (by decide +kernel) (.done _)))
    rw [List.mem_singleton.1 hop]
    show ¬ "b.com" = "a.com"
    decide
  have hget : c.entries.get? "a.com" = some wideAnswer := by decide +kernel
  obtain ⟨hreports, honce, -⟩ := hits_turn turns (Cache.run_wellKept _) hget
  have hnodup : wideAnswer.ips.addrs.Nodup := by decide
  have hmem : "192.0.2.2" ∈ wideAnswer.ips.addrs := by decide
  exact ⟨turns, ⟨Cache.run_wellKept _, hget⟩, hreports 2 _ rfl, ⟨hnodup, le_rfl, hmem⟩,
    honce .ipv4 0 _ hnodup le_rfl hmem⟩

end Job

end HttpDns
