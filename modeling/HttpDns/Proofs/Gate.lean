import HttpDns.Proofs.Moves
import HttpDns.Proofs.Settling
import Mathlib.Logic.Relation

/-!
# One lazy bootstrap at a time

Calls on one client are polled and dropped in any order, while anything else may happen that empties
no pool (`Step`). One of them at most runs the lazy bootstrap then, and nobody waits for none
(`Gated`); however the bootstrap ends, whoever waited is past the gate and asks no boot server, and
after one that succeeded a resolver server stays known (`gate_holds`).
-/

namespace HttpDns.Client

variable {τ : Type}

namespace Session

variable {s s' : Session} {i k : Nat}

/-! ## The gate -/

/-- One call at most runs the lazy bootstrap, the flag is up exactly when one does, and one does
when any other waits for it. It has a job to go on with. -/
structure Gated (s : Session) : Prop where
  one : ∀ {i k}, s.Guards i → s.Guards k → i = k
  inFlight_iff : s.inFlight = true ↔ ∃ i, s.Guards i
  awaited : ∀ {i}, s.Waits i → ∃ k, s.Guards k
  called : ∀ {i}, s.Guards i → (s.job? i).isSome

/-- The gate has opened: no lazy bootstrap runs, the flag is down, and the calls that waited do so
no more. -/
structure Released (s s' : Session) : Prop where
  inFlight : s'.inFlight = false
  idle : ∀ k, ¬ s'.Guards k
  free : ∀ k, ¬ s'.Waits k
  admits : ∀ {k}, s.Waits k → s'.phase? k = some .admitted

theorem Gated.not_guards (h : s.Gated) (hflight : s.inFlight = false) (k : Nat) :
    ¬ s.Guards k := by
  intro hk
  have hup := h.inFlight_iff.2 ⟨k, hk⟩
  rw [hflight] at hup
  cases hup

theorem Gated.released (h : s.Gated) (hi : s.HoldsGate i) {p : Phase} (hp : p.isPast = true) :
    Released s (s.openGate.setPhase i p) where
  inFlight := rfl
  idle k hk := by
    obtain ⟨search, hk⟩ := hk
    by_cases hik : i = k
    · subst hik
      rw [← phase?_setPhase_eq hk] at hp
      cases hp
    · rw [phase?_setPhase_ne _ hik] at hk
      have hguards : s.Guards k := guards_openGate.1 ⟨search, hk⟩
      rcases hi with hi | ⟨-, hflight⟩
      · exact hik (h.one hi hguards)
      · exact h.not_guards hflight k hguards
  free k hk := by
    have hwaiting : p ≠ .waiting := by
      rintro rfl
      cases hp
    exact not_waits_openGate s k (waits_of_setPhase hwaiting hk)
  admits {k} hk := by
    have hik : i ≠ k := by
      rintro rfl
      rcases hi with ⟨search, hi⟩ | ⟨hi, -⟩
      · rw [Waits, hi] at hk
        cases hk
      · rw [Waits, hi] at hk
        cases hk
    rw [phase?_setPhase_ne _ hik, phase?_openGate, hk]
    rfl

theorem Gated.of_idle (hflight : s.inFlight = false) (hguards : ∀ k, ¬ s.Guards k)
    (hwaits : ∀ k, ¬ s.Waits k) : s.Gated where
  one hi := absurd hi (hguards _)
  inFlight_iff := by
    rw [hflight]
    exact ⟨fun hf => absurd hf (by decide), fun ⟨k, hk⟩ => absurd hk (hguards k)⟩
  awaited hk := absurd hk (hwaits _)
  called hi := absurd hi (hguards _)

/-- The gate stays as it is where the same calls guard it and nobody comes to wait in vain. -/
theorem Gated.of_guards (h : s.Gated) (hflight : s'.inFlight = s.inFlight)
    (hjob : ∀ k, s'.job? k = s.job? k) (hguards : ∀ k, s'.Guards k ↔ s.Guards k)
    (hwaits : ∀ k, s'.Waits k → s.Waits k ∨ s.inFlight = true) : s'.Gated where
  one hi hk := h.one ((hguards _).1 hi) ((hguards _).1 hk)
  inFlight_iff := by
    rw [hflight, h.inFlight_iff]
    exact exists_congr fun k => (hguards k).symm
  awaited hk := by
    have hrun : ∃ k, s.Guards k := by
      rcases hwaits _ hk with hk | hf
      · exact h.awaited hk
      · exact h.inFlight_iff.1 hf
    obtain ⟨k, hk⟩ := hrun
    exact ⟨k, (hguards k).2 hk⟩
  called hi := by
    rw [hjob]
    exact h.called ((hguards _).1 hi)

theorem Gated.begins (h : s.Gated) (hi : s.phase? i = some .arriving)
    (hjob : (s.job? i).isSome) (hflight : s.inFlight = false)
    (search : Search) : ({ s with inFlight := true }.setPhase i (.guarding search)).Gated := by
  have hguards : ({ s with inFlight := true }.setPhase i (.guarding search)).Guards i :=
    guards_setPhase_guarding ⟨_, hi⟩ search
  -- the flag was down, so nobody ran the bootstrap before
  have honly : ∀ k, ({ s with inFlight := true }.setPhase i (.guarding search)).Guards k →
      i = k := by
    rintro k ⟨search', hk⟩
    by_cases hik : i = k
    · exact hik
    · rw [phase?_setPhase_ne _ hik] at hk
      exact absurd ⟨search', hk⟩ (h.not_guards hflight k)
  exact
    { one := fun hk hk' => (honly _ hk).symm.trans (honly _ hk')
      inFlight_iff := ⟨fun _ => ⟨i, hguards⟩, fun _ => rfl⟩
      awaited := fun _ => ⟨i, hguards⟩
      called := fun hk => by
        rw [← honly _ hk, job?_setPhase]
        exact hjob }

/-- Whatever a call does, at most one bootstraps, and nobody waits for none. -/
theorem Gated.move (h : s.Gated) (hm : Move s i s') : s'.Gated := by
  cases hm with
  | stays => exact h
  | waits hi hflight =>
    have hnot : ¬ s.Guards i := not_guards_of_phase hi (by simp)
    exact h.of_guards rfl (job?_setPhase s i _) (guards_setPhase_of_not hnot (by simp))
      fun _ _ => .inr hflight
  | begins hi hjob hflight search => exact h.begins hi hjob hflight search
  | goesOn hi search =>
    refine h.of_guards rfl (job?_setPhase s i _) (fun k => ?_)
      fun k hk => .inl (waits_of_setPhase (by simp) hk)
    by_cases hik : i = k
    · subst hik
      exact ⟨fun _ => hi, fun ⟨_, hp⟩ => guards_setPhase_guarding ⟨_, hp⟩ search⟩
    · unfold Guards
      rw [phase?_setPhase_ne s hik]
  | opens hi hp =>
    have hreleased := h.released hi hp
    exact .of_idle hreleased.inFlight hreleased.idle hreleased.free
  | passes hi hp hp' =>
    obtain ⟨hguarding, hwaiting⟩ := Phase.ne_of_beside hp'
    exact h.of_guards rfl (job?_setPhase s i _)
      (guards_setPhase_of_not (not_guards_of_phase hi hp) hguarding)
      fun k hk => .inl (waits_of_setPhase hwaiting hk)

/-- A move after which a call no longer runs the lazy bootstrap has opened the gate. -/
theorem Gated.released_of_move (h : s.Gated) (hi : s.Guards i) (hm : Move s k s')
    (hover : ¬ s'.Guards i) : Released s s' := by
  have hkept : ∀ {p : Phase}, ¬ s.Guards k → (∀ search, p ≠ .guarding search) →
      (s.setPhase k p).Guards i := fun hk hp => (guards_setPhase_of_not hk hp i).2 hi
  -- the flag is up, so nobody begins, and who goes on with the bootstrap is the call itself
  cases hm with
  | stays => exact absurd hi hover
  | waits hk => exact absurd (hkept (not_guards_of_phase hk (by simp)) (by simp)) hover
  | begins _ _ hflight => exact absurd hi (h.not_guards hflight i)
  | goesOn hk search =>
    obtain rfl := h.one hi hk
    obtain ⟨_, hp⟩ := hi
    exact absurd (guards_setPhase_guarding ⟨_, hp⟩ search) hover
  | opens hk hp => exact h.released hk hp
  | passes hk hp hp' =>
    exact absurd (hkept (not_guards_of_phase hk hp) (Phase.ne_of_beside hp').1) hover

/-! ## How a bootstrap ends -/

variable {S : Services τ} {c : Client} {pace : Pace τ}

/-- A poll in which the search of a lazy bootstrap comes to an end opens the gate, and the call goes
on with its job. -/
theorem Gated.poll_of_ended (h : s.Gated) {search : Search}
    (hi : s.phase? i = some (.guarding search)) {w : State τ} {outcome : Except Error Unit}
    (hend : (pollSearch S c pace.exchange search w).1 = .error outcome) :
    ∃ p j, p.isPast = true ∧ (poll S c pace s i w).1 = s.openGate.setPhase i p ∧
      (poll S c pace s i w).2.2
        = (embark S pace.exchange j (pollSearch S c pace.exchange search w).2.2).2.2 := by
  obtain ⟨j, hj⟩ := Option.isSome_iff_exists.1 (h.called ⟨search, hi⟩)
  have hcall := calls_of_phase? hi
  rw [hj] at hcall
  refine ⟨(embark S pace.exchange j (pollSearch S c pace.exchange search w).2.2).1, j,
    isPast_embark S pace.exchange j _, ?_, ?_⟩
  · simp [poll, hcall, hend, afterGuard, admitted]
  · simp [poll, hcall, hend, afterGuard, admitted]

end Session

/-! ## Interleavings -/

/-- The calls on a client, and what it owns. -/
structure Moment (τ : Type) where
  session : Session
  state : State τ

variable (S : Services τ) (c : Client) (pace : Pace τ)

namespace Moment

def polled (m : Moment τ) (i : Nat) : Moment τ :=
  ⟨(m.session.poll S c pace i m.state).1, (m.session.poll S c pace i m.state).2.2⟩

def dropped (m : Moment τ) (i : Nat) : Moment τ :=
  ⟨m.session.drop i, m.state⟩

/-- The lazy bootstrap that a call runs comes to this end if the call is polled now. -/
def Ends (m : Moment τ) (i : Nat) (outcome : Except Error Unit) : Prop :=
  ∃ search, m.session.phase? i = some (.guarding search) ∧
    (Session.pollSearch S c pace.exchange search m.state).1 = .error outcome

instance (m : Moment τ) (i : Nat) : Decidable (m.Ends S c pace i (.ok ())) :=
  decidable_of_iff ((m.session.phase? i).any fun p =>
      match p with
      | .guarding search =>
        match (Session.pollSearch S c pace.exchange search m.state).1 with
        | .error (.ok ()) => true
        | _ => false
      | _ => false) (by
    unfold Ends
    cases m.session.phase? i with
    | none => simp
    | some p =>
      cases p with
      | guarding search =>
        rcases h : (Session.pollSearch S c pace.exchange search m.state).1 with (_ | _) | _ <;>
          simp [h]
      | arriving | waiting | searching | admitted | resolving | done | dropped => simp)

end Moment

/-- A call is polled or dropped, or something else happens to what the client owns, be it between
two calls or while one is suspended on its way past the gate. -/
inductive Step (meanwhile : State τ → State τ → Prop) : Moment τ → Moment τ → Prop
  | polled (m : Moment τ) (i : Nat) : Step meanwhile m (m.polled S c pace i)
  | dropped (m : Moment τ) (i : Nat) : Step meanwhile m (m.dropped i)
  | aside (m : Moment τ) {state : State τ} (h : meanwhile m.state state) :
      Step meanwhile m ⟨m.session, state⟩

/-- Resolver servers do not get lost. -/
def KeepsServers (s s' : State τ) : Prop :=
  Pooled s → Pooled s'

/-- One moment follows another, after any number of steps. -/
def Reaches : Moment τ → Moment τ → Prop :=
  Relation.ReflTransGen (Step S c pace KeepsServers)

/-- No call has begun. -/
def Session.IsFresh (s : Session) : Prop :=
  s.inFlight = false ∧ ∀ call ∈ s.calls, call.phase = .arriving ∨ call.isOver = true

theorem Session.IsFresh.phase {s : Session} (h : s.IsFresh) {i : Nat} {p : Phase}
    (hp : s.phase? i = some p) : p = .arriving ∨ p.isPast = true := by
  obtain ⟨call, hc, rfl⟩ := Option.map_eq_some_iff.1 hp
  rcases h.2 call (List.mem_of_getElem? hc) with harriving | hover
  · exact .inl harriving
  · refine .inr ?_
    unfold Call.isOver at hover
    split at hover <;> simp_all [Phase.isPast]

theorem Session.IsFresh.gated {s : Session} (h : s.IsFresh) : s.Gated := by
  have hguards : ∀ i, ¬ s.Guards i := by
    rintro i ⟨search, hi⟩
    rcases h.phase hi with hi | hi <;> cases hi
  have hwaits : ∀ i, ¬ s.Waits i := by
    intro i hi
    rcases h.phase hi with hi | hi <;> cases hi
  exact .of_idle h.1 hguards hwaits

/-- Lookups that nobody has polled yet are fresh. -/
theorem isFresh_concurrently (hosts : List (String × QueryType)) :
    (concurrently c hosts).IsFresh := by
  refine ⟨rfl, fun call hcall => ?_⟩
  obtain ⟨item, -, rfl⟩ := List.mem_map.1 hcall
  dsimp only [Call.resolveHost]
  split
  · exact .inr rfl
  · exact .inl rfl

section Reached

variable {S c pace} {m m' : Moment τ} {meanwhile : State τ → State τ → Prop}

/-- What every move of a call keeps, every step keeps. -/
theorem Step.keeps {P : Session → Prop} (hP : ∀ {s s' : Session} {i}, P s → s.Move i s' → P s')
    (hstep : Step S c pace meanwhile m m') (h : P m.session) : P m'.session := by
  cases hstep with
  | polled i => exact hP h (Session.poll_move S c pace m.session i m.state)
  | dropped i => exact hP h (m.session.drop_move i)
  | aside => exact h

theorem keeps_of_steps {P : Session → Prop} (hP : ∀ {s s' : Session} {i}, P s → s.Move i s' → P s')
    (hsteps : Relation.ReflTransGen (Step S c pace meanwhile) m m') (h : P m.session) :
    P m'.session := by
  induction hsteps with
  | refl => exact h
  | tail _ hstep ih => exact hstep.keeps hP ih

theorem Reaches.keeps {P : Session → Prop} (hP : ∀ {s s' : Session} {i}, P s → s.Move i s' → P s')
    (hreach : Reaches S c pace m m') (h : P m.session) : P m'.session :=
  keeps_of_steps hP hreach h

theorem Reaches.pooled (hreach : Reaches S c pace m m') (h : Pooled m.state) :
    Pooled m'.state := by
  induction hreach with
  | refl => exact h
  | tail _ hstep ih =>
    cases hstep with
    | polled i =>
      exact Session.poll_upholds S c pace Pool.lasting_nonempty _ i _ ih fun _ _ _ => trivial
    | dropped => exact ih
    | aside hkeeps => exact hkeeps ih

theorem reaches_pollAll (S : Services τ) (c : Client) (pace : Pace τ) : ∀ (order : List Nat)
    (s : Session) (w : State τ), Reaches S c pace ⟨s, w⟩
      ⟨(s.pollAll S c pace order w).1, (s.pollAll S c pace order w).2.2⟩
  | [], _, _ => .refl
  | i :: rest, s, w =>
    .head (.polled ⟨s, w⟩ i) (reaches_pollAll S c pace rest _ (s.poll S c pace i w).2.2)

/-- Polling all calls in turn until they are over is one interleaving. -/
theorem reaches_runFor (S : Services τ) (c : Client) (pace : Pace τ) : ∀ (passes : Nat)
    (s : Session) (w : State τ), Reaches S c pace ⟨s, w⟩
      ⟨(Session.runFor S c pace passes s w).1, (Session.runFor S c pace passes s w).2.2⟩
  | 0, _, _ => .refl
  | passes + 1, s, w => by
    rw [Session.runFor]
    split
    · exact .refl
    · exact (reaches_pollAll S c pace _ s w).trans (reaches_runFor S c pace passes _ _)

theorem released_of_step (h : m.session.Gated) {i : Nat} (hi : m.session.Guards i)
    (hstep : Step S c pace meanwhile m m') (hover : ¬ m'.session.Guards i) :
    m.session.Released m'.session := by
  cases hstep with
  | polled k =>
    exact h.released_of_move hi (Session.poll_move S c pace m.session k m.state) hover
  | dropped k => exact h.released_of_move hi (m.session.drop_move k) hover
  | aside => exact absurd hi hover

end Reached

/-- However calls on a client are interleaved, one at most runs the lazy bootstrap, the flag is up
exactly when one does, and one does when another call waits. It is over when its search ends, in
success or in failure, and when its call is dropped; whoever waited is then past the gate and never
asks a boot server. Where schedule bodies are read as JSON, a resolver server is known ever after it
ended in success. -/
theorem gate_holds (S : Services τ) (c : Client) (pace : Pace τ) {start m : Moment τ}
    (hstart : start.session.IsFresh) (hreach : Reaches S c pace start m) :
    m.session.Gated ∧
      ∀ i, m.session.Guards i →
        (∀ m', Step S c pace KeepsServers m m' → ¬ m'.session.Guards i →
          m.session.Released m'.session ∧
            ∀ k, m.session.Waits k → ∀ m'', Reaches S c pace m' m'' →
              Unasked (m''.session.poll S c pace k m''.state).2.1) ∧
        ¬ (m.dropped i).session.Guards i ∧
        (∀ outcome, m.Ends S c pace i outcome → ¬ (m.polled S c pace i).session.Guards i) ∧
        ((∀ body w, (S.readSchedule body w).1 = Reply.readSchedule body) →
          m.Ends S c pace i (.ok ()) →
            ∀ m', Reaches S c pace (m.polled S c pace i) m' → Pooled m'.state) := by
  have hgated : m.session.Gated := hreach.keeps Session.Gated.move hstart.gated
  refine ⟨hgated, fun i hi => ⟨?_, ?_, ?_, ?_⟩⟩
  · intro m' hstep hover
    have hreleased := released_of_step hgated hi hstep hover
    refine ⟨hreleased, fun k hk m'' hreach' => ?_⟩
    have hpast : m''.session.IsPast k :=
      hreach'.keeps Session.IsPast.move ⟨_, hreleased.admits hk, rfl⟩
    exact Session.poll_unasked S c pace hpast m''.state
  · obtain ⟨search, hsearch⟩ := hi
    rw [Moment.dropped, Session.drop_of_guarding hsearch]
    exact (hgated.released (.inl ⟨search, hsearch⟩) rfl).idle i
  · rintro outcome ⟨search, hsearch, hend⟩
    obtain ⟨p, j, hp, hsession, -⟩ := hgated.poll_of_ended hsearch hend
    have hreleased := hgated.released (.inl hi) hp
    rw [Moment.polled, hsession]
    exact hreleased.idle i
  · rintro hjson ⟨search, hsearch, hend⟩ m' hreach'
    obtain ⟨p, j, -, -, hstate⟩ := hgated.poll_of_ended hsearch hend
    have hnamed : ∀ roster, Session.Listed S roster → roster.IsNamed := by
      rintro _ ⟨-, body, w, rfl⟩
      rw [hjson]
      exact isNamed_readSchedule body
    refine hreach'.pooled ?_
    rw [Moment.polled, hstate]
    exact (Session.embark_ensures (maintains_pooled S) pace.exchange j _
      (Session.pooled_of_pollSearch hnamed hend)).1

/-- Every reply lists one resolver server. -/
def listing : Services Unit :=
  Services.steady (fun _ => none)
    (fun _ => .ok ⟨statusOk, "\x7b\"service_ip\":[\"192.0.2.53\"]\x7d", 8⟩) fun _ => none

/-- The first of two lookups waits for the reply of a boot server, the second one for the first. -/
theorem gate_holds_pair :
    let c : Client := ⟨{ accountId := "100000" }, by decide⟩
    let pace : Pace Unit := { exchange := fun _ _ => 1, detection := fun _ => 1 }
    let poll := Moment.polled listing.withJson c pace
    let start : Moment Unit := ⟨concurrently c [("a.com", .a), ("b.com", .a)], c.initial ()⟩
    let m := poll (poll (poll start 0) 1) 0
    (start.session.IsFresh ∧ Reaches listing.withJson c pace start m) ∧
      (m.session.Guards 0 ∧ m.session.Waits 1 ∧ m.session.inFlight = true) ∧
      m.session.Released (m.dropped 0).session ∧
      m.session.Released (poll m 0).session ∧ Pooled (poll m 0).state ∧
      Unasked ((poll m 0).session.poll listing.withJson c pace 1 (poll m 0).state).2.1 := by
  intro c pace poll start m
  have hstart : start.session.IsFresh := isFresh_concurrently c _
  have hreach : Reaches listing.withJson c pace start m :=
    ((Relation.ReflTransGen.single (.polled start 0)).tail (.polled _ 1)).tail (.polled _ 0)
  have hguards : m.session.Guards 0 := by decide +kernel
  have hwaits : m.session.Waits 1 := by decide +kernel
  have hends : m.Ends listing.withJson c pace 0 (.ok ()) := by decide +kernel
  obtain ⟨hgated, hgate⟩ := gate_holds listing.withJson c pace hstart hreach
  obtain ⟨hover, hdropped, hended, hpooled⟩ := hgate 0 hguards
  obtain ⟨hreleased, hunasked⟩ := hover _ (.polled m 0) (hended _ hends)
  exact ⟨⟨hstart, hreach⟩, ⟨hguards, hwaits, hgated.inFlight_iff.2 ⟨0, hguards⟩⟩,
    (hover _ (.dropped m 0) hdropped).1, hreleased, hpooled (fun _ _ => rfl) hends _ .refl,
    hunasked 1 hwaits _ .refl⟩

end HttpDns.Client
