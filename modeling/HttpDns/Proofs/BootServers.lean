import HttpDns.Proofs.Gate
import HttpDns.Proofs.Unions

/-!
# The boot servers a client knows

Each bootstrap works on the boot servers that were known when it began, and what it has learned is
united with those that are known when it ends. In the meantime these have only been appended to, so
the union appends just what the answer lists beyond them (`Roster.union_snapshot`). However many
bootstraps overlap, the boot servers known are therefore the configured ones and then, once each,
all others that an answer of a bootstrap that succeeded has listed; one that fails changes neither
them nor the pool (`boot_servers_kept`).
-/

namespace HttpDns

/-! ## Lists of servers -/

/-- A list of servers is the configured one and then, once each, all others that were told. -/
def Remembers (configured told known : List String) : Prop :=
  ∃ learned, known = configured ++ learned ∧ learned.Nodup
    ∧ ∀ addr, addr ∈ learned ↔ addr ∈ told ∧ addr ≠ "" ∧ addr ∉ configured

theorem remembers_appendUnique (xs l : List String) : Remembers l xs (appendUnique l xs) :=
  ⟨newcomers l xs, appendUnique_eq xs l, nodup_newcomers l xs, fun _ => mem_newcomers⟩

namespace Roster

/-- The roster with servers appended. -/
def Grows (r r' : Roster) : Prop :=
  r.ipv4 <+: r'.ipv4 ∧ r.ipv6 <+: r'.ipv6

theorem Grows.refl (r : Roster) : r.Grows r := ⟨List.prefix_rfl, List.prefix_rfl⟩

theorem Grows.trans {r r' r'' : Roster} (h : r.Grows r') (h' : r'.Grows r'') : r.Grows r'' :=
  ⟨h.1.trans h'.1, h.2.trans h'.2⟩

theorem grows_union (r other : Roster) : r.Grows (r.union other) :=
  ⟨prefix_appendUnique _ _, prefix_appendUnique _ _⟩

/-- What was learned on top of an earlier roster is what is appended to the present one. -/
theorem union_snapshot {old r : Roster} (h : old.Grows r) (other : Roster) :
    r.union (old.union other) = r.union other := by
  unfold union
  rw [appendUnique_snapshot _ fun x hx => h.1.subset hx,
    appendUnique_snapshot _ fun x hx => h.2.subset hx]

/-- The roster with the servers of some answers appended, one answer after the other. -/
def taught (r : Roster) (answers : List Roster) : Roster :=
  answers.foldl union r

theorem taught_append (r : Roster) (as bs : List Roster) :
    r.taught (as ++ bs) = (r.taught as).taught bs :=
  List.foldl_append

theorem grows_taught : ∀ (answers : List Roster) (r : Roster), r.Grows (r.taught answers)
  | [], r => .refl r
  | a :: answers, r => (grows_union r a).trans (grows_taught answers (r.union a))

theorem taught_eq : ∀ (answers : List Roster) (r : Roster), r.taught answers
    = ⟨appendUnique r.ipv4 (answers.flatMap (·.ipv4)),
      appendUnique r.ipv6 (answers.flatMap (·.ipv6))⟩
  | [], r => rfl
  | a :: answers, r => by
    rw [List.flatMap_cons, List.flatMap_cons, appendUnique_append, appendUnique_append]
    exact taught_eq answers (r.union a)

end Roster

namespace Client

variable {τ : Type}

/-- The boot servers that were known when a bootstrap began. -/
def Search.boot : Search → Roster
  | .detecting boot .. | .asking boot .. => boot

namespace Session

variable {S : Services τ} {c : Client} {pace : Pace τ}

/-! ## What a bootstrap does when it is polled -/

/-- The answer a search has come to. -/
def SearchStep.answer? : SearchStep → Option Roster
  | .found roster => some roster
  | .suspended .. | .failed => none

section

variable (S c)

def answerOnStack (delay : Delay τ) (boot : Roster) (stack : Stack) (w : τ) : Option Roster :=
  let servers := Bootstrap.orderOn S boot stack w
  (searchFrom S c delay servers.1 servers.2.2).1.answer?

/-- The answer with which a bootstrap succeeds at once if it begins now. -/
def answerAtOnce (pace : Pace τ) (s : State τ) : Option Roster :=
  if pace.detection s.2.2.2 = 0 then
    let stack := Bootstrap.detect S s.2.2.2
    answerOnStack S c pace.exchange s.2.2.1 stack.1 stack.2.2
  else none

/-- The answer with which a suspended bootstrap succeeds if it is polled now. -/
def answerOf (delay : Delay τ) : Search → State τ → Option Roster
  | .detecting boot stack polls, s =>
    if 1 < polls then none else answerOnStack S c delay boot stack s.2.2.2
  | .asking _ _ left reply polls, s =>
    if 1 < polls then none else (searchOn S c delay left reply s.2.2.2).1.answer?

/-- What a bootstrap makes of the pool and of the boot servers known, until it is suspended or comes
to its end: it appends an answer to both, or it leaves them as they are. -/
inductive Searched (answer : Option Roster) (pool : Pool) (known : Roster) :
    Except (Except Error Unit) Search → State τ → Prop
  | suspended {search : Search} {s : State τ} (begun : search.boot.Grows known)
      (answer_eq : answer = none) (pool_eq : s.2.1 = pool) (boot_eq : s.2.2.1 = known) :
      Searched answer pool known (.ok search) s
  | succeeded {roster : Roster} {s : State τ} (answer_eq : answer = some roster)
      (listed : Listed S roster) (pool_eq : s.2.1 = pool.add roster.ipv4 roster.ipv6)
      (boot_eq : s.2.2.1 = known.union roster) : Searched answer pool known (.error (.ok ())) s
  | failed {e : Error} {s : State τ} (answer_eq : answer = none) (pool_eq : s.2.1 = pool)
      (boot_eq : s.2.2.1 = known) : Searched answer pool known (.error (.error e)) s

end

theorem outside_apply {α : Type} (x : Action τ α) (s : State τ) : outside x s
    = ((x s.2.2.2).1, (x s.2.2.2).2.1, s.1, s.2.1, s.2.2.1, (x s.2.2.2).2.2) := rfl

theorem afterSearch_searched {boot : Roster} {step : SearchStep} {s : State τ}
    (hboot : boot.Grows s.2.2.1) (hstep : ∀ roster, step = .found roster → Listed S roster)
    (tried : Nat) : Searched S step.answer? s.2.1 s.2.2.1 (afterSearch boot tried step s).1
      (afterSearch boot tried step s).2.2 := by
  cases step with
  | suspended => exact .suspended hboot rfl rfl rfl
  | found roster =>
    exact .succeeded rfl (hstep roster rfl) rfl (Roster.union_snapshot hboot roster)
  | failed => exact .failed rfl rfl rfl

theorem searchOnStack_searched (delay : Delay τ) {boot : Roster} (stack : Stack) {s : State τ}
    (hboot : boot.Grows s.2.2.1) :
    Searched S (answerOnStack S c delay boot stack s.2.2.2) s.2.1 s.2.2.1
      (searchOnStack S c delay boot stack s).1 (searchOnStack S c delay boot stack s).2.2 := by
  simp only [searchOnStack, answerOnStack, Action.bind_apply, outside_apply]
  generalize hsearch : searchFrom S c delay _ _ = searched
  refine afterSearch_searched (s := (s.1, s.2.1, s.2.2.1, searched.2.2)) hboot
    (fun roster h => ?_) _
  rw [← hsearch] at h
  exact searchFrom_found delay _ _ h

theorem beginSearch_searched (s : State τ) : Searched S (answerAtOnce S c pace s) s.2.1 s.2.2.1
    (beginSearch S c pace s).1 (beginSearch S c pace s).2.2 := by
  by_cases hdelay : pace.detection s.2.2.2 = 0
  · simp only [beginSearch, answerAtOnce, bootServers, Action.bind_apply, Action.read_apply,
      outside_apply, hdelay, if_true]
    generalize Bootstrap.detect S s.2.2.2 = stack
    exact searchOnStack_searched (s := (s.1, s.2.1, s.2.2.1, stack.2.2)) pace.exchange stack.1
      (.refl s.2.2.1)
  · simp only [beginSearch, answerAtOnce, bootServers, Action.bind_apply, Action.read_apply,
      outside_apply, hdelay, if_false]
    exact .suspended (.refl s.2.2.1) rfl rfl rfl

theorem pollSearch_searched (delay : Delay τ) {search : Search} {s : State τ}
    (hboot : search.boot.Grows s.2.2.1) : Searched S (answerOf S c delay search s) s.2.1 s.2.2.1
      (pollSearch S c delay search s).1 (pollSearch S c delay search s).2.2 := by
  cases search with
  | detecting boot stack polls =>
    by_cases hpolls : 1 < polls
    · simp only [pollSearch, answerOf, if_pos hpolls]
      exact .suspended hboot rfl rfl rfl
    · simp only [pollSearch, answerOf, if_neg hpolls]
      exact searchOnStack_searched delay stack hboot
  | asking boot tried left reply polls =>
    by_cases hpolls : 1 < polls
    · simp only [pollSearch, answerOf, if_pos hpolls]
      exact .suspended hboot rfl rfl rfl
    · simp only [pollSearch, answerOf, if_neg hpolls, Action.bind_apply, outside_apply]
      generalize hsearch : searchOn S c delay left reply s.2.2.2 = searched
      refine afterSearch_searched (s := (s.1, s.2.1, s.2.2.1, searched.2.2)) hboot
        (fun roster h => ?_) tried
      rw [← hsearch] at h
      exact searchOn_found delay left reply _ h

theorem Searched.taught {answer : Option Roster} {pool : Pool} {known : Roster} {s : State τ}
    {outcome : Except (Except Error Unit) Search}
    (h : Searched S answer pool known outcome s) : s.2.2.1 = known.taught answer.toList := by
  cases h with
  | suspended _ answer_eq _ boot_eq | failed answer_eq _ boot_eq =>
    rw [answer_eq]
    exact boot_eq
  | succeeded answer_eq _ _ boot_eq =>
    rw [answer_eq]
    exact boot_eq

theorem Searched.grows {answer : Option Roster} {pool : Pool} {known : Roster} {s : State τ}
    {outcome : Except (Except Error Unit) Search}
    (h : Searched S answer pool known outcome s) : known.Grows s.2.2.1 := by
  rw [h.taught]
  exact Roster.grows_taught _ known

/-! ## What a poll of a call does of a bootstrap -/

/-- The part of a bootstrap between two suspensions. -/
inductive Leg
  | first
  | next (search : Search)

section

variable (S c pace)

def Leg.run : Leg → Action (State τ) (Except (Except Error Unit) Search)
  | .first => beginSearch S c pace
  | .next search => pollSearch S c pace.exchange search

/-- The answer with which the bootstrap succeeds on this part of it. -/
def Leg.answer? : Leg → State τ → Option Roster
  | .first, w => answerAtOnce S c pace w
  | .next search, w => answerOf S c pace.exchange search w

/-- The part of a bootstrap that a poll of a call runs. -/
def leg? (s : Session) (i : Nat) (w : State τ) : Option Leg :=
  match s.calls[i]? with
  | some ⟨none, .arriving⟩ => some .first
  | some ⟨some _, .arriving⟩ => if w.2.1.isEmpty && !s.inFlight then some .first else none
  | some ⟨some _, .guarding search⟩ => some (.next search)
  | some ⟨_, .searching search⟩ => some (.next search)
  | _ => none

/-- What a poll of a call does of a bootstrap, and that what else it does leaves the boot servers
alone. -/
inductive Partakes (s : Session) (i : Nat) (w : State τ) : Prop
  | beside (leg_eq : s.leg? i w = none) (unasked : Unasked (poll S c pace s i w).2.1)
      (boot_eq : (poll S c pace s i w).2.2.2.2.1 = w.2.2.1)
  | bootstraps {leg : Leg} {es : List Event} (leg_eq : s.leg? i w = some leg)
      (searched : Searched S (leg.answer? S c pace w) w.2.1 w.2.2.1 (leg.run S c pace w).1
        (leg.run S c pace w).2.2)
      (told : (poll S c pace s i w).2.1 = (leg.run S c pace w).2.1 ++ es) (unasked : Unasked es)
      (boot_eq : (poll S c pace s i w).2.2.2.2.1 = (leg.run S c pace w).2.2.2.2.1)
      (alone : s.job? i = none → (poll S c pace s i w).2.2 = (leg.run S c pace w).2.2
        ∧ (poll S c pace s i w).1 = s.afterBootstrap i (leg.run S c pace w).1)

end

/-- A bootstrap that is suspended began with servers that are known still. -/
def Begun (s : Session) (known : Roster) : Prop :=
  ∀ i search, s.phase? i = some (.guarding search) ∨ s.phase? i = some (.searching search) →
    search.boot.Grows known

variable {s : Session} {known known' : Roster}

theorem Begun.mono (h : s.Begun known) (hgrows : known.Grows known') : s.Begun known' :=
  fun i search hsearch => (h i search hsearch).trans hgrows

theorem Begun.setPhase (h : s.Begun known) (i : Nat) {p : Phase}
    (hp : ∀ search, p = .guarding search ∨ p = .searching search → search.boot.Grows known) :
    (s.setPhase i p).Begun known := by
  intro k search hk
  by_cases hik : i = k
  · subst hik
    refine hp search (hk.imp ?_ ?_) <;> exact fun hk => (phase?_setPhase_eq hk).symm
  · rw [phase?_setPhase_ne s hik] at hk
    exact h k search hk

theorem Begun.setPhase_search (h : s.Begun known) (i : Nat) {search : Search}
    (hsearch : search.boot.Grows known) {p : Phase}
    (hp : p = .guarding search ∨ p = .searching search) : (s.setPhase i p).Begun known := by
  refine h.setPhase i ?_
  rcases hp with rfl | rfl <;> rintro search' (hp | hp) <;> cases hp <;> exact hsearch

theorem Begun.setPhase_past (h : s.Begun known) (i : Nat) {p : Phase} (hp : p.isPast = true) :
    (s.setPhase i p).Begun known := by
  refine h.setPhase i ?_
  rintro search (rfl | rfl) <;> cases hp

theorem Begun.openGate (h : s.Begun known) : s.openGate.Begun known := by
  intro k search hk
  rw [phase?_openGate] at hk
  refine h k search ?_
  cases hp : s.phase? k with
  | none => simp [hp] at hk
  | some p => cases p <;> simp_all [Phase.release]

theorem IsFresh.begun (h : s.IsFresh) (known : Roster) : s.Begun known := by
  rintro i search (hi | hi) <;> rcases h.phase hi with hi | hi <;> cases hi

/-! ### Polls -/

theorem maintains_boot (S : Services τ) (known : Roster) :
    (services S).Maintains (fun s => s.2.2.1 = known) fun _ => True where
  stack h := h
  pick h := h
  pickOther _ _ h := h
  sample _ _ _ h := h
  lookup _ _ _ h := h
  rotate _ _ h := h
  store _ _ _ h := h
  sendAll _ _ h := h
  readSingle _ _ h := h
  readMulti _ _ h := h

theorem admitted_boot (s : Session) (i : Nat) (j : Job) (w : State τ) :
    (admitted S pace s i j w).2.2.2.2.1 = w.2.2.1 ∧ Unasked (admitted S pace s i j w).2.1 := by
  obtain ⟨hboot, hes, -⟩ := embark_ensures (maintains_boot S w.2.2.1) pace.exchange j w rfl
  exact ⟨hboot, by simpa [admitted] using hes⟩

theorem Begun.admitted (S : Services τ) (pace : Pace τ) (h : s.Begun known) (i : Nat) (j : Job)
    (w : State τ) : (admitted S pace s i j w).1.Begun known :=
  h.setPhase_past i (isPast_embark S pace.exchange j w)

section

variable {answer : Option Roster} {pool : Pool} {w : State τ}
  {outcome : Except (Except Error Unit) Search}

theorem Begun.afterBootstrap (h : s.Begun known) (i : Nat)
    (hsearched : Searched S answer pool known outcome w) :
    (s.afterBootstrap i outcome).Begun w.2.2.1 := by
  have hkept := h.mono hsearched.grows
  cases hsearched with
  | suspended begun _ _ boot_eq => exact hkept.setPhase_search i (by rwa [boot_eq]) (.inr rfl)
  | succeeded | failed => exact hkept.setPhase_past i rfl

theorem Begun.afterGuard (pace : Pace τ) (h : s.Begun known) (i : Nat) (j : Job)
    (hsearched : Searched S answer pool known outcome w) :
    (afterGuard S pace s i j outcome w).1.Begun w.2.2.1 := by
  have hkept := h.mono hsearched.grows
  cases hsearched with
  | suspended begun _ _ boot_eq => exact hkept.setPhase_search i (by rwa [boot_eq]) (.inl rfl)
  | succeeded | failed => exact hkept.openGate.admitted S pace i j w

theorem afterGuard_boot (s : Session) (i : Nat) (j : Job) (w : State τ)
    (outcome : Except (Except Error Unit) Search) :
    (afterGuard S pace s i j outcome w).2.2.2.2.1 = w.2.2.1
      ∧ Unasked (afterGuard S pace s i j outcome w).2.1 := by
  cases outcome with
  | ok search => exact ⟨rfl, unasked_nil⟩
  | error outcome => exact admitted_boot s.openGate i j w

end

section

variable {i : Nat} {w : State τ}

theorem partakes_beside (h : s.leg? i w = none) {x : Session × List Event × State τ}
    (hpoll : poll S c pace s i w = x) (hboot : x.2.2.2.2.1 = w.2.2.1) (hes : Unasked x.2.1)
    (hbegun : x.1.Begun w.2.2.1) : Partakes S c pace s i w
      ∧ (poll S c pace s i w).1.Begun (poll S c pace s i w).2.2.2.2.1 := by
  subst hpoll
  exact ⟨.beside h hes hboot, by rwa [hboot]⟩

theorem partakes_stays (h : s.Begun w.2.2.1) (hleg : s.leg? i w = none)
    (hpoll : poll S c pace s i w = (s, [], w)) : Partakes S c pace s i w
      ∧ (poll S c pace s i w).1.Begun (poll S c pace s i w).2.2.2.2.1 :=
  partakes_beside hleg hpoll rfl unasked_nil h

theorem partakes_admitted (h : s.Begun w.2.2.1) (hleg : s.leg? i w = none) (j : Job)
    (hpoll : poll S c pace s i w = admitted S pace s i j w) : Partakes S c pace s i w
      ∧ (poll S c pace s i w).1.Begun (poll S c pace s i w).2.2.2.2.1 :=
  partakes_beside hleg hpoll (admitted_boot s i j w).1 (admitted_boot s i j w).2
    (h.admitted S pace i j w)

theorem Begun.searched (S : Services τ) (c : Client) (pace : Pace τ) (h : s.Begun w.2.2.1)
    {leg : Leg} (hleg : s.leg? i w = some leg) :
    Searched S (leg.answer? S c pace w) w.2.1 w.2.2.1 (leg.run S c pace w).1
      (leg.run S c pace w).2.2 := by
  cases leg with
  | first => exact beginSearch_searched w
  | next search =>
    refine pollSearch_searched pace.exchange (h i search ?_)
    unfold leg? at hleg
    split at hleg <;> simp_all [phase?]

theorem partakes_bootstrap (h : s.Begun w.2.2.1) {leg : Leg} (hleg : s.leg? i w = some leg)
    (hpoll : poll S c pace s i w
      = (leg.run S c pace >>= fun outcome => pure (s.afterBootstrap i outcome)) w) :
    Partakes S c pace s i w
      ∧ (poll S c pace s i w).1.Begun (poll S c pace s i w).2.2.2.2.1 := by
  have hsearched := h.searched S c pace hleg
  refine ⟨.bootstraps hleg hsearched (by rw [hpoll]; rfl) unasked_nil (by rw [hpoll]; rfl)
    fun _ => (by rw [hpoll]; exact ⟨rfl, rfl⟩), ?_⟩
  rw [hpoll]
  exact h.afterBootstrap i hsearched

/-- The flag may have gone up. -/
theorem partakes_guard (h : s.Begun w.2.2.1) {leg : Leg} (hleg : s.leg? i w = some leg) {j : Job}
    (hjob : s.job? i = some j) (inFlight : Bool)
    (hpoll : poll S c pace s i w = (leg.run S c pace >>= fun outcome =>
      afterGuard S pace { s with inFlight } i j outcome) w) :
    Partakes S c pace s i w
      ∧ (poll S c pace s i w).1.Begun (poll S c pace s i w).2.2.2.2.1 := by
  have hsearched := h.searched S c pace hleg
  have hflag : { s with inFlight }.Begun w.2.2.1 := h
  obtain ⟨hboot, hes⟩ := afterGuard_boot (S := S) { s with inFlight } i j
    (leg.run S c pace w).2.2 (leg.run S c pace w).1
  refine ⟨.bootstraps hleg hsearched (by rw [hpoll]; rfl) hes (by rw [hpoll]; exact hboot)
    fun hnone => ?_, ?_⟩
  · rw [hjob] at hnone
    cases hnone
  · have hbegun := hflag.afterGuard pace i j hsearched
    rw [← hboot] at hbegun
    rw [hpoll]
    exact hbegun

theorem poll_partakes (S : Services τ) (c : Client) (pace : Pace τ) (h : s.Begun w.2.2.1)
    (i : Nat) : Partakes S c pace s i w
      ∧ (poll S c pace s i w).1.Begun (poll S c pace s i w).2.2.2.2.1 := by
  cases hc : s.calls[i]? with
  | none => exact partakes_stays h (by simp [leg?, hc]) (by simp [poll, hc])
  | some call =>
    obtain ⟨job?, phase⟩ := call
    have hjob : s.job? i = job? := by rw [Session.job?, hc, Option.bind_some]
    cases phase with
    | arriving =>
      cases job? with
      | none =>
        have hleg : s.leg? i w = some .first := by simp [leg?, hc]
        exact partakes_bootstrap h hleg (by simp only [poll, hc]; rfl)
      | some j =>
        cases hempty : w.2.1.isEmpty with
        | true =>
          cases hflight : s.inFlight with
          | true =>
            have hpoll : poll S c pace s i w = (s.setPhase i .waiting, [], w) := by
              simp [poll, hc, poolEmpty, hempty, hflight]
            exact partakes_beside (by simp [leg?, hc, hflight]) hpoll rfl unasked_nil
              (h.setPhase i (by simp))
          | false =>
            -- the pool is looked at once more behind the gate, and is as empty as before
            have hleg : s.leg? i w = some .first := by simp [leg?, hc, hempty, hflight]
            refine partakes_guard h hleg hjob true ?_
            simp [poll, hc, guardPool, poolEmpty, hempty, hflight, Leg.run]
        | false =>
          exact partakes_admitted h (by simp [leg?, hc, hempty]) j
            (by simp [poll, hc, poolEmpty, hempty])
    | guarding search =>
      cases job? with
      | none => exact partakes_stays h (by simp [leg?, hc]) (by simp [poll, hc])
      | some j =>
        have hleg : s.leg? i w = some (.next search) := by simp [leg?, hc]
        exact partakes_guard h hleg hjob s.inFlight (by simp only [poll, hc]; rfl)
    | searching search =>
      have hleg : s.leg? i w = some (.next search) := by simp [leg?, hc]
      exact partakes_bootstrap h hleg (by simp only [poll, hc]; rfl)
    | admitted =>
      cases job? with
      | none => exact partakes_stays h (by simp [leg?, hc]) (by simp [poll, hc])
      | some j => exact partakes_admitted h (by simp [leg?, hc]) j (by simp [poll, hc])
    | resolving voyage =>
      obtain ⟨hboot, hes, hpast⟩ := pollVoyage_ensures (maintains_boot S w.2.2.1) pace.exchange
        voyage w rfl
      exact partakes_beside (by simp [leg?, hc]) (by simp only [poll, hc]; rfl) hboot
        (by simpa using hes) (h.setPhase_past i hpast)
    | waiting | done | dropped => exact partakes_stays h (by simp [leg?, hc]) (by simp [poll, hc])

end

end Session

/-! ## Interleavings -/

/-- Nothing but a bootstrap changes the boot servers. -/
def KeepsBoot (s s' : State τ) : Prop :=
  s'.2.2.1 = s.2.2.1

variable (S : Services τ) (c : Client) (pace : Pace τ)

namespace Moment

/-- The answer with which the bootstrap of a call succeeds if the call is polled now. -/
def answer? (m : Moment τ) (i : Nat) : Option Roster :=
  (m.session.leg? i m.state).bind fun leg => leg.answer? S c pace m.state

/-- Polls calls in an order, with the answers of the bootstraps that succeed. -/
def pollAll (m : Moment τ) : List Nat → List Roster × Moment τ
  | [] => ([], m)
  | i :: rest =>
    let reached := (m.polled S c pace i).pollAll rest
    ((m.answer? S c pace i).toList ++ reached.1, reached.2)

end Moment

/-- One moment follows another, after any number of steps; the bootstraps that have succeeded in the
meantime did so with these answers, in this order. -/
inductive Learns (start : Moment τ) : List Roster → Moment τ → Prop
  | refl : Learns start [] start
  | polled {answers : List Roster} {m : Moment τ} (h : Learns start answers m) (i : Nat) :
      Learns start (answers ++ (m.answer? S c pace i).toList) (m.polled S c pace i)
  | dropped {answers : List Roster} {m : Moment τ} (h : Learns start answers m) (i : Nat) :
      Learns start answers (m.dropped i)
  | aside {answers : List Roster} {m : Moment τ} (h : Learns start answers m) {state : State τ}
      (hkeeps : KeepsBoot m.state state) : Learns start answers ⟨m.session, state⟩

variable {S c pace} {start m : Moment τ} {answers : List Roster}

/-- Every interleaving has its answers. -/
theorem learns_of_steps (h : Relation.ReflTransGen (Step S c pace KeepsBoot) start m) :
    ∃ answers, Learns S c pace start answers m := by
  induction h with
  | refl => exact ⟨[], .refl⟩
  | tail _ hstep ih =>
    obtain ⟨answers, hlearns⟩ := ih
    cases hstep with
    | polled i => exact ⟨_, hlearns.polled i⟩
    | dropped i => exact ⟨_, hlearns.dropped i⟩
    | aside hkeeps => exact ⟨_, hlearns.aside hkeeps⟩

theorem Learns.pollAll : ∀ (order : List Nat) {answers : List Roster} {m : Moment τ},
    Learns S c pace start answers m →
      Learns S c pace start (answers ++ (m.pollAll S c pace order).1) (m.pollAll S c pace order).2
  | [], answers, m, h => by simpa [Moment.pollAll] using h
  | i :: rest, answers, m, h => by
    have hrest := Learns.pollAll rest (h.polled i)
    rwa [List.append_assoc] at hrest

theorem learns_pollAll (S : Services τ) (c : Client) (pace : Pace τ) (start : Moment τ)
    (order : List Nat) : Learns S c pace start (start.pollAll S c pace order).1
      (start.pollAll S c pace order).2 := by
  simpa using Learns.pollAll order (.refl (S := S) (c := c))

namespace Session

/-- What a poll makes of the boot servers is what the answer of its bootstrap, if any, teaches. -/
theorem Partakes.taught {i : Nat} (h : m.session.Partakes S c pace i m.state) :
    (m.polled S c pace i).state.2.2.1
      = m.state.2.2.1.taught (m.answer? S c pace i).toList := by
  unfold Moment.answer?
  cases h with
  | beside leg_eq _ boot_eq =>
    rw [leg_eq]
    exact boot_eq
  | bootstraps leg_eq searched _ _ boot_eq _ =>
    rw [leg_eq]
    exact boot_eq.trans searched.taught

theorem Begun.drop {s : Session} {known : Roster} (h : s.Begun known) (i : Nat) :
    (s.drop i).Begun known := by
  unfold Session.drop
  cases s.calls[i]? with
  | none => exact h
  | some call =>
    cases hp : call.phase with
    | done => simpa [hp] using h
    | guarding => simpa [hp] using h.openGate.setPhase_past i rfl
    | arriving | waiting | searching | admitted | resolving | dropped =>
      simpa [hp] using h.setPhase_past i rfl

end Session

/-- The boot servers known are the earlier ones and what the answers in between have taught. -/
theorem Learns.taught (h : Learns S c pace start answers m)
    (hstart : start.session.Begun start.state.2.2.1) :
    m.state.2.2.1 = start.state.2.2.1.taught answers ∧ m.session.Begun m.state.2.2.1 := by
  -- what a bootstrap began with has to be known still when it ends, so both are carried at once
  induction h with
  | refl => exact ⟨rfl, hstart⟩
  | polled h i ih =>
    rename_i answers m
    obtain ⟨hknown, hbegun⟩ := ih
    obtain ⟨hpartakes, hbegun'⟩ := Session.poll_partakes S c pace hbegun i
    refine ⟨?_, hbegun'⟩
    rw [hpartakes.taught, hknown, Roster.taught_append]
  | dropped h i ih => exact ⟨ih.1, ih.2.drop i⟩
  | aside h hkeeps ih =>
    obtain ⟨hknown, hbegun⟩ := ih
    exact ⟨hkeeps.trans hknown, by rwa [hkeeps]⟩

/-- However bootstraps on a client overlap, the boot servers known are the configured ones and then,
once each, all others that the answers of those that have succeeded list; from then on others are
only appended. A poll in which a bootstrap succeeds appends its answer to the pool and to the boot
servers, one in which it fails or is suspended again changes neither. -/
theorem boot_servers_kept (S : Services τ) (c : Client) (pace : Pace τ) {start m : Moment τ}
    {answers : List Roster} (hfresh : start.session.IsFresh)
    (hboot : start.state.2.2.1 = Roster.ofConfig c.config)
    (hlearns : Learns S c pace start answers m) :
    (Remembers c.config.bootServersIpv4 (answers.flatMap (·.ipv4)) m.state.2.2.1.ipv4
        ∧ Remembers c.config.bootServersIpv6 (answers.flatMap (·.ipv6)) m.state.2.2.1.ipv6)
      ∧ (∀ {later : List Roster} {m' : Moment τ}, Learns S c pace m later m' →
        m.state.2.2.1.Grows m'.state.2.2.1)
      ∧ ∀ i, m.session.Partakes S c pace i m.state := by
  obtain ⟨hknown, hbegun⟩ := hlearns.taught (hfresh.begun _)
  refine ⟨?_, fun hlater => ?_, fun i => (Session.poll_partakes S c pace hbegun i).1⟩
  · rw [hknown, hboot, Roster.taught_eq]
    exact ⟨remembers_appendUnique _ _, remembers_appendUnique _ _⟩
  · rw [(hlater.taught hbegun).1]
    exact Roster.grows_taught _ _

/-- A boot server that answers the first two requests, in two ways. -/
def counting : Services (Nat × Unit) :=
  { Services.beside (Services.unheard fun _ => none) with
    send := fun e (n, w) =>
      let reply : Reply :=
        if n = 0 then .ok ⟨statusOk, "first", 8⟩
        else if n = 1 then .ok ⟨statusOk, "second", 8⟩
        else .error (.timeout e.timeoutMs.toNat)
      (reply, (n + 1, w))
    readSchedule := fun body w =>
      (if body = "first" then ⟨["192.0.2.12", "192.0.2.10"], []⟩
        else ⟨["192.0.2.10", "192.0.2.11"], ["2001:db8::53"]⟩, w) }

/-- Two bootstraps and that of a lookup begin before the first reply. The second one ends first and
the first one next; what both have learned is kept. The third one fails. -/
theorem boot_servers_kept_overlapping :
    let S := counting
    let c : Client := ⟨{ accountId := "100000", bootServersIpv4 := ["203.0.113.1"] }, by decide⟩
    let pace : Pace (Nat × Unit) := { exchange := fun _ _ => 1, detection := fun _ => 1 }
    let lookups := concurrently c [("a.com", .a)]
    let start : Moment (Nat × Unit) :=
      ⟨{ calls := ⟨none, .arriving⟩ :: ⟨none, .arriving⟩ :: lookups.calls }, c.initial (0, ())⟩
    let answers : List Roster :=
      [⟨["192.0.2.10", "192.0.2.11"], ["2001:db8::53"]⟩, ⟨["192.0.2.12", "192.0.2.10"], []⟩]
    let m := (start.pollAll S c pace [0, 1, 2, 0, 1, 2, 1, 0]).2
    (start.session.IsFresh ∧ Learns S c pace start answers m)
      ∧ m.state.2.2.1.ipv4 = ["203.0.113.1", "192.0.2.10", "192.0.2.11", "192.0.2.12"]
      ∧ Remembers ["203.0.113.1"] (answers.flatMap (·.ipv4)) m.state.2.2.1.ipv4
      ∧ (m.session.Guards 2 ∧ m.answer? S c pace 2 = none
        ∧ ¬ (m.polled S c pace 2).session.Guards 2 ∧ m.session.Partakes S c pace 2 m.state)
      ∧ m.state.2.2.1.Grows (m.polled S c pace 2).state.2.2.1 := by
  intro S c pace lookups start answers m
  have hfresh : start.session.IsFresh := by
    refine ⟨rfl, fun call hcall => ?_⟩
    rcases List.mem_cons.1 hcall with rfl | hcall
    · exact .inl rfl
    rcases List.mem_cons.1 hcall with rfl | hcall
    · exact .inl rfl
    · exact (isFresh_concurrently c _).2 call hcall
  have hanswers : (start.pollAll S c pace [0, 1, 2, 0, 1, 2, 1, 0]).1 = answers := by
    decide +kernel
  have hlearns : Learns S c pace start answers m := by
    rw [← hanswers]
    exact learns_pollAll S c pace start _
  obtain ⟨⟨hipv4, -⟩, hgrows, hpartakes⟩ := boot_servers_kept S c pace hfresh rfl hlearns
  exact ⟨⟨hfresh, hlearns⟩, by decide +kernel, hipv4,
    ⟨by decide +kernel, by decide +kernel, by decide +kernel, hpartakes 2⟩,
    hgrows (.polled .refl 2)⟩

end Client

end HttpDns
