import HttpDns.Proofs.Ledger

/-!
# When the cache is asked

A pending query asks the cache once as a run is prepared, with a server and a settled type by then
(`asking`), and it is prepared to what the answer makes of it (`prepare_asking`). An entry that is
gone once a run is prepared had expired when a query asked for it; all others are still there, their
addresses advanced perhaps (`prepare_drops`).
-/

namespace HttpDns

namespace Resolution.Advances

variable {r r' r'' : Resolution}

theorem trans (h : r.Advances r') (h' : r'.Advances r'') : r.Advances r'' := by
  obtain ⟨n, rfl⟩ := h
  obtain ⟨n', rfl⟩ := h'
  exact ⟨n' + n, (Function.iterate_add_apply _ n' n r).symm⟩

theorem expiresAt_eq (h : r.Advances r') : r'.expiresAt = r.expiresAt := by
  obtain ⟨n, rfl⟩ := h
  induction n with
  | zero => rfl
  | succ n ih => rw [Function.iterate_succ_apply', expiresAt_rotate, ih]

theorem isExpiredAt_eq (h : r.Advances r') (now : Nat) :
    r'.isExpiredAt now = r.isExpiredAt now := by
  rw [isExpiredAt, isExpiredAt, h.expiresAt_eq]

end Resolution.Advances

namespace Job

section

variable {σ : Type} (S : Services σ)

/-- The pending query at a position as it asks the cache, with a server and a settled type, and the
state of the services then. There is none if no server can be drawn for it or one before it. -/
def asking : (i : Nat) → (seen : Option Stack) → List Query → (k : Nat) → σ → Option (Query × σ)
  | _, _, [], _, _ => none
  | i, seen, q :: rest, k, w =>
    if q.state = .pending then
      let s := assignServer S i q w
      s.1.bind fun q =>
        let a := assignType S seen q s.2.2
        match k with
        | 0 => some (a.1.1, a.2.2)
        | k + 1 => asking (i + 1) a.1.2 rest k (probe S i a.1.1 a.2.2).2.2
    else
      match k with
      | 0 => none
      | k + 1 => asking (i + 1) seen rest k w

variable {i : Nat} {seen : Option Stack} {q q₁ : Query} {rest : List Query} {es : List Event}
  {w u : σ}

theorem asking_first (hq : q.state = .pending) (hs : assignServer S i q w = (some q₁, es, u)) :
    asking S i seen (q :: rest) 0 w
      = some ((assignType S seen q₁ u).1.1, (assignType S seen q₁ u).2.2) := by
  simp [asking, hq, hs]

theorem asking_served (hq : q.state = .pending) (hs : assignServer S i q w = (some q₁, es, u))
    (k : Nat) : asking S i seen (q :: rest) (k + 1) w =
      let a := assignType S seen q₁ u
      asking S (i + 1) a.1.2 rest k (probe S i a.1.1 a.2.2).2.2 := by
  simp [asking, hq, hs]

theorem asking_passed (hq : q.state ≠ .pending) (k : Nat) :
    asking S i seen (q :: rest) (k + 1) w = asking S (i + 1) seen rest k w := by
  simp [asking, hq]

/-- Where all queries can be prepared, each pending one comes to ask the cache, and what it is
prepared to is what the answer makes of it. -/
theorem prepare_asking : ∀ (i : Nat) (seen : Option Stack) (qs : List Query) (w : σ) {k : Nat}
    {q : Query}, (prepare S i seen qs w).1.2 = true → qs[k]? = some q → q.state = .pending →
      ∃ q₁ q₂ es u, asking S i seen qs k w = some (q₂, u) ∧ Served (i + k) q q₁ es ∧ Typed q₁ q₂
        ∧ (prepare S i seen qs w).1.1[k]? = some (probe S (i + k) q₂ u).1
  | _, _, [], _, _, _, _, hq, _ => by simp at hq
  | i, seen, first :: rest, w, k, q, hok, hq, hpend => by
    by_cases hfirst : first.state = .pending
    · have hcases := assignServer_cases S i first w
      rcases hs : assignServer S i first w with ⟨_ | q₁, es, u⟩
      · simp [prepare, hfirst, hs] at hok
      · have hserved : Served i first q₁ es := by simpa [hs] using hcases
        rw [prepare_served S hfirst hs] at hok ⊢
        cases k with
        | zero =>
          obtain rfl : first = q := by simpa using hq
          exact ⟨q₁, _, es, _, asking_first S hfirst hs, hserved, assignType_typed S seen q₁ u, rfl⟩
        | succ k =>
          obtain ⟨q₂, q₃, fs, v, hasking, hrest⟩ :=
            prepare_asking (i + 1) _ rest _ hok (by simpa using hq) hpend
          rw [Nat.succ_add_eq_add_succ] at hrest
          exact ⟨q₂, q₃, fs, v, (asking_served S hfirst hs k).trans hasking, hrest⟩
    · rw [prepare_passed S hfirst] at hok ⊢
      cases k with
      | zero =>
        obtain rfl : first = q := by simpa using hq
        exact absurd hpend hfirst
      | succ k =>
        obtain ⟨q₂, q₃, fs, v, hasking, hrest⟩ :=
          prepare_asking (i + 1) seen rest w hok (by simpa using hq) hpend
        rw [Nat.succ_add_eq_add_succ] at hrest
        exact ⟨q₂, q₃, fs, v, (asking_passed S hfirst k).trans hasking, hrest⟩

end

/-! ## What is dropped -/

section

/-- A query that uses the cache asks, as the services stand, for an entry that has expired. -/
structure AsksStale {σ : Type} (S : Services σ) (q : Query) (u : σ) (key : String)
    (e : Resolution) : Prop where
  usesProbe : q.usesProbe = true
  key : q.ownKey = key
  expired : e.isExpiredAt (S.instant u) = true

variable {τ : Type} (S : Services τ)

theorem assignServer_cache (i : Nat) (q : Query) (s : Cache × τ) :
    (assignServer S.withCache i q s).2.2.1 = s.1 := by
  unfold assignServer
  cases q.request.resolver <;> rfl

theorem assignType_cache (seen : Option Stack) (q : Query) (s : Cache × τ) :
    (assignType S.withCache seen q s).2.2.1 = s.1 := by
  unfold assignType
  split
  · cases seen <;> rfl
  · rfl

theorem probe_cache {q : Query} (huses : q.usesProbe = true) (i : Nat) (s : Cache × τ) :
    let c := (s.1.lookup q.ownKey q.queryType (S.instant s.2)).2
    (probe S.withCache i q s).2.2.1 = c ∨ (probe S.withCache i q s).2.2.1 = c.rotate q.ownKey := by
  unfold probe
  rw [if_pos huses]
  cases hl : (S.withCache.lookup q.ownKey q.queryType s).1 with
  | none =>
    left
    simp only [Action.bind_apply, Action.call_apply, hl]
    rfl
  | some x =>
    simp only [Action.bind_apply, Action.call_apply, hl]
    cases hm : x.missing q.queryType with
    | none =>
      right
      unfold complete fire
      split <;> rfl
    | some type => exact .inl rfl

/-- A query leaves an entry, advanced perhaps, unless it is for this that it asks and the entry has
expired. -/
theorem probe_drops (i : Nat) (q : Query) {s : Cache × τ} (hs : s.1.WellKept) {key : String}
    {e : Resolution} (he : s.1.entries.get? key = some e) :
    AsksStale S.withCache q s key e
      ∨ ∃ e', (probe S.withCache i q s).2.2.1.entries.get? key = some e' ∧ e.Advances e' := by
  by_cases huses : q.usesProbe = true
  · have hcache := probe_cache S huses i s
    set look : Cache.Op := .lookup q.ownKey q.queryType (S.instant s.2)
    have hlook := Cache.get?_apply hs look key
    by_cases hstale : q.ownKey = key ∧ e.isExpiredAt (S.instant s.2) = true
    · exact .inl ⟨huses, hstale.1, hstale.2⟩
    · right
      have hkept : (s.1.apply look).entries.get? key = some e := by
        rw [hlook, he, Cache.Op.next]
        split
        · rename_i hkey
          exact Option.filter_eq_some_iff.2 ⟨rfl, by simpa [hkey] using hstale⟩
        · rfl
      rcases hcache with hcache | hcache
      · exact ⟨e, by rw [hcache]; exact hkept, 0, rfl⟩
      · have hrotated := Cache.get?_apply (hs.apply look) (.rotate q.ownKey) key
        rw [hkept, Cache.Op.next] at hrotated
        rw [hcache]
        by_cases hkey : q.ownKey = key
        · exact ⟨e.rotate, hrotated.trans (if_pos hkey), 1, rfl⟩
        · exact ⟨e, hrotated.trans (if_neg hkey), 0, rfl⟩
  · refine .inr ⟨e, ?_, 0, rfl⟩
    rw [probe, if_neg huses]
    exact he

/-- An entry is still there once a run is prepared, advanced perhaps, unless a query asks for it
when it has expired. -/
theorem prepare_drops : ∀ (i : Nat) (seen : Option Stack) (qs : List Query) {s : Cache × τ},
    s.1.WellKept → ∀ {key : String} {e : Resolution}, s.1.entries.get? key = some e →
      (∃ k q u, asking S.withCache i seen qs k s = some (q, u) ∧ AsksStale S.withCache q u key e)
        ∨ ∃ e', (prepare S.withCache i seen qs s).2.2.1.entries.get? key = some e' ∧ e.Advances e'
  | _, _, [], _, _, _, e, he => .inr ⟨e, he, 0, rfl⟩
  | i, seen, first :: rest, s, hs, key, e, he => by
    by_cases hfirst : first.state = .pending
    · have hcache := assignServer_cache S i first s
      rcases hserver : assignServer S.withCache i first s with ⟨_ | q₁, es, u⟩
      · rw [hserver] at hcache
        have hstop : (prepare S.withCache i seen (first :: rest) s).2.2 = u := by
          simp [prepare, hfirst, hserver]
        exact .inr ⟨e, by rw [hstop, hcache]; exact he, 0, rfl⟩
      · rw [hserver] at hcache
        have htyped := (assignType_cache S seen q₁ u).trans hcache
        rw [prepare_served S.withCache hfirst hserver]
        rcases probe_drops S i (assignType S.withCache seen q₁ u).1.1
            (s := (assignType S.withCache seen q₁ u).2.2) (by rwa [htyped]) (by rwa [htyped])
          with hstale | ⟨e₁, he₁, hadvances⟩
        · exact .inl ⟨0, _, _, asking_first S.withCache hfirst hserver, hstale⟩
        · have hkept := probe_obeys S.withCache_follows i (assignType S.withCache seen q₁ u).1.1
            (assignType S.withCache seen q₁ u).2.2
          rcases prepare_drops (i + 1) (assignType S.withCache seen q₁ u).1.2 rest
              (hkept.wellKept (by rwa [htyped])) he₁ with ⟨k, q, v, hasking, hstale⟩ | ⟨e₂, he₂, h⟩
          · refine .inl ⟨k + 1, q, v, ?_, hstale.usesProbe, hstale.key, ?_⟩
            · exact (asking_served S.withCache hfirst hserver k).trans hasking
            · rw [← hadvances.isExpiredAt_eq]
              exact hstale.expired
          · exact .inr ⟨e₂, he₂, hadvances.trans h⟩
    · rw [prepare_passed S.withCache hfirst]
      refine (prepare_drops (i + 1) seen rest hs he).imp_left ?_
      rintro ⟨k, q, u, hasking, hstale⟩
      exact ⟨k + 1, q, u, (asking_passed S.withCache hfirst k).trans hasking, hstale⟩

end

end Job

end HttpDns
