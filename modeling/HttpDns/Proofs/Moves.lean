import HttpDns.Proofs.Voyages

/-!
# How a call moves

A poll of a call, and its being dropped, leads a session on in one of a few ways (`poll_move`,
`drop_move`): the call comes to the gate and waits or bootstraps, it goes on with its bootstrap, it
opens the gate, or it goes its way beside it. A poll keeps what lasts in a pool (`poll_upholds`),
and a call that is past the gate asks no boot server (`poll_unasked`).
-/

namespace HttpDns.Client

variable {τ : Type}

/-- Where a call stands once the gate is open. -/
def Phase.release : Phase → Phase
  | .waiting => .admitted
  | p => p

theorem Phase.ne_of_beside {p p' : Phase}
    (h : p'.isPast = true ∨ p.isPast = false ∧ ∃ search, p' = .searching search) :
    (∀ search, p' ≠ .guarding search) ∧ p' ≠ .waiting := by
  rcases h with hpast | ⟨-, search, rfl⟩
  · refine ⟨fun search he => ?_, fun he => ?_⟩ <;>
    · rw [he] at hpast
      cases hpast
  · simp

namespace Session

def phase? (s : Session) (i : Nat) : Option Phase :=
  s.calls[i]?.map (·.phase)

/-- The call runs the lazy bootstrap. -/
def Guards (s : Session) (i : Nat) : Prop :=
  ∃ search, s.phase? i = some (.guarding search)

/-- The call waits for the lazy bootstrap of another one. -/
def Waits (s : Session) (i : Nat) : Prop :=
  s.phase? i = some .waiting

instance (s : Session) (i : Nat) : Decidable (s.Guards i) :=
  decidable_of_iff ((s.phase? i).any (· matches .guarding _)) (by
    unfold Guards
    cases s.phase? i with
    | none => simp
    | some p => cases p <;> simp)

instance (s : Session) (i : Nat) : Decidable (s.Waits i) :=
  decidable_of_iff ((s.phase? i).any (· matches .waiting)) (by
    unfold Waits
    cases s.phase? i with
    | none => simp
    | some p => cases p <;> simp)

def IsPast (s : Session) (i : Nat) : Prop :=
  ∃ p, s.phase? i = some p ∧ p.isPast = true

/-- The call runs the lazy bootstrap, or it comes first and may begin one. -/
def HoldsGate (s : Session) (i : Nat) : Prop :=
  s.Guards i ∨ s.phase? i = some .arriving ∧ s.inFlight = false

/-- What a call was made for, if not for a bootstrap. -/
def job? (s : Session) (i : Nat) : Option Job :=
  s.calls[i]?.bind (·.job?)

variable {s s' : Session} {i k : Nat}

theorem calls_of_phase? {p : Phase} (h : s.phase? i = some p) :
    s.calls[i]? = some ⟨s.job? i, p⟩ := by
  obtain ⟨call, hc, rfl⟩ := Option.map_eq_some_iff.1 h
  rw [job?, hc]
  rfl

theorem phase?_setPhase (s : Session) (i : Nat) (p : Phase) (k : Nat) :
    (s.setPhase i p).phase? k = if i = k then (s.phase? k).map fun _ => p else s.phase? k := by
  unfold phase? setPhase
  rw [List.getElem?_modify]
  split <;> cases s.calls[k]? <;> rfl

theorem phase?_openGate (s : Session) (k : Nat) :
    s.openGate.phase? k = (s.phase? k).map Phase.release := by
  have hrelease : ∀ c : Call, c.release.phase = c.phase.release := by
    intro c
    unfold Call.release Phase.release
    cases hp : c.phase <;> simp [hp]
  unfold phase? openGate
  rw [List.getElem?_map]
  cases s.calls[k]? with
  | none => rfl
  | some c => exact congrArg some (hrelease c)

theorem job?_setPhase (s : Session) (i : Nat) (p : Phase) (k : Nat) :
    (s.setPhase i p).job? k = s.job? k := by
  unfold job? setPhase
  rw [List.getElem?_modify]
  split <;> cases s.calls[k]? <;> rfl

theorem guards_openGate : s.openGate.Guards k ↔ s.Guards k := by
  unfold Guards
  rw [phase?_openGate]
  cases s.phase? k with
  | none => rfl
  | some p => cases p <;> simp [Phase.release]

theorem not_waits_openGate (s : Session) (k : Nat) : ¬ s.openGate.Waits k := by
  unfold Waits
  rw [phase?_openGate]
  cases s.phase? k with
  | none => simp
  | some p => cases p <;> simp [Phase.release]

theorem phase?_setPhase_ne (s : Session) {i k : Nat} (h : i ≠ k) (p : Phase) :
    (s.setPhase i p).phase? k = s.phase? k := by
  rw [phase?_setPhase, if_neg h]

theorem phase?_setPhase_eq {s : Session} {i : Nat} {p p' : Phase}
    (h : (s.setPhase i p).phase? i = some p') : p' = p := by
  rw [phase?_setPhase, if_pos rfl] at h
  obtain ⟨_, -, rfl⟩ := Option.map_eq_some_iff.1 h
  rfl

theorem guards_setPhase_of_not (hi : ¬ s.Guards i) {p : Phase}
    (hp : ∀ search, p ≠ .guarding search) (k : Nat) : (s.setPhase i p).Guards k ↔ s.Guards k := by
  by_cases hik : i = k
  · subst hik
    refine ⟨fun ⟨search, hk⟩ => ?_, fun hk => absurd hk hi⟩
    exact absurd (phase?_setPhase_eq hk).symm (hp search)
  · unfold Guards
    rw [phase?_setPhase_ne s hik]

theorem guards_setPhase_guarding (h : ∃ p, s.phase? i = some p) (search : Search) :
    (s.setPhase i (.guarding search)).Guards i := by
  obtain ⟨p, hp⟩ := h
  exact ⟨search, by rw [phase?_setPhase, if_pos rfl, hp, Option.map_some]⟩

theorem waits_of_setPhase {p : Phase} (hp : p ≠ .waiting) (hk : (s.setPhase i p).Waits k) :
    s.Waits k := by
  by_cases hik : i = k
  · subst hik
    exact absurd (phase?_setPhase_eq hk).symm hp
  · rwa [Waits, phase?_setPhase_ne s hik] at hk

theorem not_guards_of_phase {p : Phase} (h : s.phase? i = some p)
    (hp : ∀ search, p ≠ .guarding search) : ¬ s.Guards i := by
  rintro ⟨search, hi⟩
  rw [h] at hi
  exact hp search (Option.some.inj hi)

/-! ## Moves -/

/-- What a poll of a call, or its being dropped, can do to a session. -/
inductive Move (s : Session) (i : Nat) : Session → Prop
  | stays : Move s i s
  /-- it finds the pool empty while another one bootstraps -/
  | waits (h : s.phase? i = some .arriving) (hflight : s.inFlight = true) :
      Move s i (s.setPhase i .waiting)
  | begins (h : s.phase? i = some .arriving) (hjob : (s.job? i).isSome)
      (hflight : s.inFlight = false) (search : Search) :
      Move s i ({ s with inFlight := true }.setPhase i (.guarding search))
  | goesOn (h : s.Guards i) (search : Search) : Move s i (s.setPhase i (.guarding search))
  /-- its lazy bootstrap is over, or it was dropped while it ran -/
  | opens (h : s.HoldsGate i) {p : Phase} (hp : p.isPast = true) :
      Move s i (s.openGate.setPhase i p)
  /-- it goes its way beside the gate -/
  | passes {p p' : Phase} (h : s.phase? i = some p) (hp : ∀ search, p ≠ .guarding search)
      (hp' : p'.isPast = true ∨ p.isPast = false ∧ ∃ search, p' = .searching search) :
      Move s i (s.setPhase i p')

theorem isPast_embark (S : Services τ) (delay : Delay τ) (j : Job) (w : State τ) :
    (embark S delay j w).1.isPast = true :=
  (embark_ensures (maintains_true S) delay j w trivial).2.2

theorem isPast_pollVoyage (S : Services τ) (delay : Delay τ) (v : Voyage) (w : State τ) :
    (pollVoyage S delay v w).1.isPast = true :=
  (pollVoyage_ensures (maintains_true S) delay v w trivial).2.2

theorem Move.admitted (S : Services τ) (pace : Pace τ) (j : Job) (w : State τ) {p : Phase}
    (h : s.phase? i = some p) (hp : ∀ search, p ≠ .guarding search) :
    Move s i (admitted S pace s i j w).1 :=
  .passes h hp (.inl (isPast_embark S pace.exchange j w))

theorem Move.afterBootstrap {p : Phase} (h : s.phase? i = some p)
    (hp : ∀ search, p ≠ .guarding search) (hpast : p.isPast = false)
    (step : Except (Except Error Unit) Search) : Move s i (s.afterBootstrap i step) := by
  cases step with
  | ok search => exact .passes h hp (.inr ⟨hpast, search, rfl⟩)
  | error outcome => exact .passes h hp (.inl rfl)

theorem Move.opened (S : Services τ) (pace : Pace τ) (j : Job) (w : State τ) (h : s.HoldsGate i) :
    Move s i (Session.admitted S pace s.openGate i j w).1 :=
  .opens h (isPast_embark S pace.exchange j w)

theorem Move.guardPool (S : Services τ) (c : Client) (pace : Pace τ) (j : Job) (w : State τ)
    (h : s.phase? i = some .arriving) (hjob : (s.job? i).isSome) (hflight : s.inFlight = false) :
    Move s i (guardPool S c pace { s with inFlight := true } i j w).1 := by
  unfold Session.guardPool
  simp only [Action.bind_apply]
  split
  · -- the search may be over before anything is awaited
    simp only [Action.bind_apply]
    cases (beginSearch S c pace (poolEmpty w).2.2).1 with
    | ok search => exact .begins h hjob hflight search
    | error outcome => exact .opened S pace j _ (.inr ⟨h, hflight⟩)
  · exact .opened S pace j _ (.inr ⟨h, hflight⟩)

theorem poll_move (S : Services τ) (c : Client) (pace : Pace τ) (s : Session) (i : Nat)
    (w : State τ) : Move s i (poll S c pace s i w).1 := by
  unfold poll
  cases hc : s.calls[i]? with
  | none => exact .stays
  | some call =>
    obtain ⟨job?, phase⟩ := call
    have hphase : s.phase? i = some phase := by rw [phase?, hc, Option.map_some]
    cases phase with
    | arriving =>
      cases job? with
      | none => exact Move.afterBootstrap hphase (by simp) rfl _
      | some j =>
        simp only [Action.bind_apply]
        split
        · cases hflight : s.inFlight with
          | true => exact .waits hphase hflight
          | false => exact .guardPool S c pace j _ hphase (by simp [job?, hc]) hflight
        · exact .admitted S pace j _ hphase (by simp)
    | waiting => exact .stays
    | guarding search =>
      cases job? with
      | none => exact .stays
      | some j =>
        simp only [Action.bind_apply]
        cases (pollSearch S c pace.exchange search w).1 with
        | ok search' => exact .goesOn ⟨search, hphase⟩ search'
        | error outcome => exact .opened S pace j _ (.inl ⟨search, hphase⟩)
    | searching search => exact Move.afterBootstrap hphase (by simp) rfl _
    | admitted =>
      cases job? with
      | none => exact .stays
      | some j => exact .admitted S pace j w hphase (by simp)
    | resolving voyage =>
      exact .passes hphase (by simp) (.inl (isPast_pollVoyage S pace.exchange voyage w))
    | done | dropped => exact .stays

theorem drop_move (s : Session) (i : Nat) : Move s i (s.drop i) := by
  unfold drop
  cases hc : s.calls[i]? with
  | none => exact .stays
  | some call =>
    obtain ⟨job?, phase⟩ := call
    have hphase : s.phase? i = some phase := by rw [phase?, hc, Option.map_some]
    cases phase with
    | done => exact .stays
    | guarding search => exact .opens (.inl ⟨search, hphase⟩) rfl
    | arriving | waiting | searching | admitted | resolving | dropped =>
      exact .passes hphase (by simp) (.inl rfl)

theorem drop_of_guarding {search : Search} (h : s.phase? i = some (.guarding search)) :
    s.drop i = s.openGate.setPhase i .dropped := by
  unfold drop
  rw [calls_of_phase? h]

/-- Who has passed the gate never comes back to it. -/
theorem IsPast.move (h : s.IsPast k) (hm : Move s i s') : s'.IsPast k := by
  obtain ⟨q, hq, hpast⟩ := h
  have hset : ∀ {t : Session} {p : Phase}, t.phase? k = some q → (i = k → p.isPast = true) →
      (t.setPhase i p).IsPast k := by
    intro t p ht hp
    by_cases hik : i = k
    · exact ⟨p, by rw [phase?_setPhase, if_pos hik, ht, Option.map_some], hp hik⟩
    · exact ⟨q, by rw [phase?_setPhase_ne _ hik, ht], hpast⟩
  -- a call that is past can only go on beside the gate
  have hother : ∀ {p : Phase}, s.phase? i = some p → p.isPast = false → i ≠ k := by
    rintro p hi hnot rfl
    rw [hi] at hq
    cases hq
    rw [hnot] at hpast
    cases hpast
  cases hm with
  | stays => exact ⟨q, hq, hpast⟩
  | waits hi => exact hset hq fun hik => absurd hik (hother hi rfl)
  | begins hi => exact hset hq fun hik => absurd hik (hother hi rfl)
  | goesOn hi =>
    obtain ⟨_, hi⟩ := hi
    exact hset hq fun hik => absurd hik (hother hi rfl)
  | opens _ hp =>
    have hopen : s.openGate.phase? k = some q := by
      rw [phase?_openGate, hq]
      cases q <;> first | rfl | cases hpast
    exact hset hopen fun _ => hp
  | passes hi hp hp' =>
    refine hset hq fun hik => ?_
    rcases hp' with hp' | ⟨hnot, -⟩
    · exact hp'
    · exact absurd hik (hother hi hnot)

/-! ## What a poll does beside -/

variable (S : Services τ) (c : Client) (pace : Pace τ) {P : Pool → Prop}

theorem admitted_upholds (hP : Pool.Lasting P) (s : Session) (i : Nat) (j : Job) :
    Upholds (OnPool P) (fun _ => True) (admitted S pace s i j) :=
  .bind ((embark_ensures (maintains_onPool S hP) pace.exchange j).upholds _) fun _ => .pure _

theorem afterGuard_upholds (hP : Pool.Lasting P) (s : Session) (i : Nat) (j : Job)
    (step : Except (Except Error Unit) Search) :
    Upholds (OnPool P) (fun _ => True) (afterGuard S pace s i j step) := by
  cases step with
  | ok search => exact .pure _
  | error outcome => exact admitted_upholds S pace hP s.openGate i j

/-- What lasts as servers are appended and measured, a poll keeps. -/
theorem poll_upholds (hP : Pool.Lasting P) (s : Session) (i : Nat) :
    Upholds (OnPool P) (fun _ => True) (poll S c pace s i) := by
  have hguardPool : ∀ (s : Session) (j : Job),
      Upholds (OnPool P) (fun _ => True) (guardPool S c pace s i j) := fun s j =>
    .bind (.read _) fun _ =>
      .ite (.bind (beginSearch_upholds hP S c pace) fun _ => afterGuard_upholds S pace hP s i j _)
        (admitted_upholds S pace hP s.openGate i j)
  unfold poll
  cases s.calls[i]? with
  | none => exact .pure _
  | some call =>
    obtain ⟨job?, phase⟩ := call
    cases phase with
    | arriving =>
      cases job? with
      | none => exact .bind (beginSearch_upholds hP S c pace) fun _ => .pure _
      | some j =>
        exact .bind (.read _) fun _ => .ite (.ite (.pure _) (hguardPool _ j))
          (admitted_upholds S pace hP s i j)
    | guarding search =>
      cases job? with
      | none => exact .pure _
      | some j =>
        exact .bind (pollSearch_upholds hP S c pace.exchange search) fun _ =>
          afterGuard_upholds S pace hP s i j _
    | searching search =>
      exact .bind (pollSearch_upholds hP S c pace.exchange search) fun _ => .pure _
    | admitted =>
      cases job? with
      | none => exact .pure _
      | some j => exact admitted_upholds S pace hP s i j
    | resolving voyage =>
      exact .bind ((pollVoyage_ensures (maintains_onPool S hP) pace.exchange voyage).upholds _)
        fun _ => .pure _
    | waiting | done | dropped => exact .pure _

theorem poll_unasked {s : Session} {i : Nat} (h : s.IsPast i) (w : State τ) :
    Unasked (poll S c pace s i w).2.1 := by
  obtain ⟨p, hp, hpast⟩ := h
  unfold poll
  rw [calls_of_phase? hp]
  cases p with
  | arriving | waiting | guarding | searching => cases hpast
  | admitted =>
    cases s.job? i with
    | none => exact unasked_nil
    | some j =>
      have hes := (embark_ensures (maintains_true S) pace.exchange j w trivial).2.1
      simpa [admitted] using hes
  | resolving voyage =>
    have hes := (pollVoyage_ensures (maintains_true S) pace.exchange voyage w trivial).2.1
    simpa using hes
  | done | dropped => exact unasked_nil

end Session

end HttpDns.Client
