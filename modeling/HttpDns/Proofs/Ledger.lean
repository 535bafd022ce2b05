import HttpDns.Proofs.Cells
import HttpDns.Proofs.Origins
import HttpDns.Services.Layer
import Mathlib.Logic.Function.Iterate

/-!
# What a run does to its cache

The events of a run over a cache of its own tell of every call on that cache, in order
(`run_follows`). A key that no event is about keeps its entry (`Follows.get?_eq`), and as long as
nothing is cached under a key its entry is at most advanced, or dropped (`Follows.advanced`).
-/

namespace HttpDns

open Cache (Op)

/-- The call on the cache that is told of, at an instant. -/
def Event.op? (now : Nat) : Event → Option Op
  | .probed _ key type _ => some (.lookup key type now)
  | .rotated _ key => some (.rotate key)
  | .stored _ x => some (.update x)
  | .detected _ | .drew .. | .switched .. | .sent .. | .sampled .. | .fired .. | .asked _ => none

/-- The cache after what is told of. -/
def Cache.heed (c : Cache) (now : Nat) (e : Event) : Cache :=
  (e.op? now).elim c c.apply

/-- One cache has become the other by the calls that some events tell of, each at some instant, and
look-ups have found what is told. -/
inductive Follows : Cache → List Event → Cache → Prop
  | nil (c : Cache) : Follows c [] c
  | cons {c c' : Cache} {e : Event} {es : List Event} (now : Nat)
      (found : ∀ {k key type x}, e = .probed k key type x → x = (c.lookup key type now).1)
      (rest : Follows (c.heed now e) es c') : Follows c (e :: es) c'

namespace Follows

variable {c c₁ c' : Cache} {es fs : List Event} {key : String}

theorem append (h : Follows c es c₁) (h' : Follows c₁ fs c') : Follows c (es ++ fs) c' := by
  induction h with
  | nil => exact h'
  | cons now found _ ih => exact .cons now found (ih h')

theorem split (h : Follows c (es ++ fs) c') : ∃ c₁, Follows c es c₁ ∧ Follows c₁ fs c' := by
  induction es generalizing c with
  | nil => exact ⟨c, .nil c, h⟩
  | cons e es ih =>
    cases h with
    | cons now found rest =>
      obtain ⟨c₁, h₁, h₂⟩ := ih rest
      exact ⟨c₁, .cons now found h₁, h₂⟩

theorem aside {e : Event} (h : e.key? = none) (c : Cache) : Follows c [e] c := by
  have hop : ∀ now, c.heed now e = c := by
    intro now
    cases e <;> first | rfl | cases h
  refine .cons 0 (fun he => ?_) (by rw [hop]; exact .nil c)
  subst he
  cases h

end Follows

theorem Cache.WellKept.heed {c : Cache} (h : c.WellKept) (now : Nat) (e : Event) :
    (c.heed now e).WellKept := by
  unfold Cache.heed
  cases e.op? now with
  | none => exact h
  | some op => exact h.apply op

theorem Follows.wellKept {c c' : Cache} {es : List Event} (h : Follows c es c')
    (hc : c.WellKept) : c'.WellKept := by
  induction h with
  | nil => exact hc
  | cons now _ _ ih => exact ih (hc.heed now _)

theorem Cache.get?_heed {c : Cache} (hc : c.WellKept) (now : Nat) (e : Event) (key : String) :
    (c.heed now e).entries.get? key
      = (e.op? now).elim (c.entries.get? key) (·.next key (c.entries.get? key)) := by
  unfold Cache.heed
  cases e.op? now with
  | none => rfl
  | some op => exact Cache.get?_apply hc op key

/-- The entry under a key that no event is about stays as it is. -/
theorem Follows.get?_eq {c c' : Cache} {es : List Event} (h : Follows c es c') (hc : c.WellKept)
    {key : String} (hkey : ∀ e ∈ es, e.key? ≠ some key) :
    c'.entries.get? key = c.entries.get? key := by
  induction h with
  | nil => rfl
  | @cons c c' e es now _ _ ih =>
    have he := hkey e List.mem_cons_self
    rw [ih (hc.heed now e) fun e' he' => hkey e' (List.mem_cons_of_mem _ he'),
      Cache.get?_heed hc]
    cases e with
    | probed k key' type x => simp_all [Event.op?, Event.key?, Op.next]
    | rotated k key' => simp_all [Event.op?, Event.key?, Op.next]
    | stored k x => simp_all [Event.op?, Event.key?, Op.next]
    | detected | drew | switched | sent | sampled | fired | asked => rfl

/-- The entry is an earlier one, its addresses advanced any number of times. -/
def Resolution.Advances (r r' : Resolution) : Prop :=
  ∃ n, r' = Resolution.rotate^[n] r

/-- As long as nothing is cached under a key, its entry is at most advanced, or dropped. -/
theorem Follows.advanced {c c' : Cache} {es : List Event} (h : Follows c es c') (hc : c.WellKept)
    {key : String} (hkey : StoresFit (·.cacheKey ≠ key) es) :
    ∀ r' ∈ c'.entries.get? key, ∃ r ∈ c.entries.get? key, r.Advances r' := by
  induction h with
  | nil => exact fun r' hr' => ⟨r', hr', 0, rfl⟩
  | @cons c c' e es now _ _ ih =>
    intro r' hr'
    obtain ⟨r, hr, n, rfl⟩ := ih (hc.heed now e)
      (fun k x hx => hkey k x (List.mem_cons_of_mem _ hx)) r' hr'
    rw [Cache.get?_heed hc] at hr
    cases e with
    | probed k key' type x =>
      refine ⟨r, ?_, n, rfl⟩
      simp only [Event.op?, Option.elim_some, Op.next] at hr
      split at hr
      · exact (Option.filter_eq_some_iff.1 hr).1
      · exact hr
    | rotated k key' =>
      simp only [Event.op?, Option.elim_some, Op.next] at hr
      split at hr
      · obtain ⟨r₀, hr₀, rfl⟩ := Option.map_eq_some_iff.1 hr
        exact ⟨r₀, hr₀, n + 1, rfl⟩
      · exact ⟨r, hr, n, rfl⟩
    | stored k x =>
      have hne := hkey k x List.mem_cons_self
      simp only [Event.op?, Option.elim_some, Op.next, hne, false_and, if_false] at hr
      exact ⟨r, hr, n, rfl⟩
    | detected | drew | switched | sent | sampled | fired | asked => exact ⟨r, hr, n, rfl⟩

/-! ## Runs -/

variable {τ α : Type}

/-- What is done to a cache of its own is what is told. -/
theorem Services.withCache_follows (S : Services τ) :
    S.withCache.Obeys fun s es s' => Follows s.1 es s'.1 where
  nothing s := .nil s.1
  append := .append
  stack s := .aside rfl s.1
  pick _ s := .aside rfl s.1
  lookup _ _ _ s := .cons (S.instant s.2) (fun h => by cases h; rfl) (.nil _)
  rotate _ _ _ := .cons 0 (fun h => nomatch h) (.nil _)
  pickOther _ _ s := .aside rfl s.1
  sendAll _ _ s := .aside rfl s.1
  readSingle _ s := .nil s.1
  readMulti _ s := .nil s.1
  sample _ _ _ s := .aside rfl s.1
  store _ _ _ := .cons 0 (fun h => nomatch h) (.nil _)
  fired _ _ s := .aside rfl s.1

theorem Obeying.wellKept {x : Action (Cache × τ) α}
    (h : Obeying (fun s es s' => Follows s.1 es s'.1) x) {s : Cache × τ} (hs : s.1.WellKept) :
    (x s).2.2.1.WellKept :=
  (h s).wellKept hs

/-- What the look-ups of a job do to its cache is what is told of them. -/
theorem Job.prepare_follows (S : Services τ) (i : Nat) (seen : Option Stack) (qs : List Query)
    (s : Cache × τ) :
    Follows s.1 (prepare S.withCache i seen qs s).2.1 (prepare S.withCache i seen qs s).2.2.1 :=
  prepare_obeys S.withCache_follows i seen qs s

/-- What a run does to its cache is what it tells. -/
theorem Job.run_follows (S : Services τ) (j : Job) (c : Cache) (w : τ) :
    Follows c (run S.withCache j (c, w)).2.1 (run S.withCache j (c, w)).2.2.1 :=
  run_obeys S.withCache_follows j (c, w)

end HttpDns
