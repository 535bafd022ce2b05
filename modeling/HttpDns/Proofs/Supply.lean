import HttpDns.Proofs.Gate

/-!
# Servers for a stack

A bootstrap ends with the first schedule answer that lists a server, of whichever family, and what
it lists is appended to the pool. A stack has a server then if and only if it had one before or the
answer lists one of its family (`bootstrap_supplies`). Servers are never taken away, so while the
detector keeps to a stack that has one, no call fails for want of a server (`unserved_of_poll`).
-/

namespace HttpDns

/-- The roster lists a server for a stack. -/
def Roster.Supplies (r : Roster) (stack : Stack) : Prop :=
  ∃ addr ∈ r.candidates stack, addr ≠ ""

namespace Pool

def Supplies (stack : Stack) (p : Pool) : Prop :=
  p.servers stack ≠ []

theorem isSome_pick {p : Pool} {stack : Stack} : (p.pick stack).isSome ↔ p.Supplies stack := by
  rw [Option.isSome_iff_ne_none, Ne, pick_eq_none, Supplies]

theorem supplies_add {p : Pool} {stack : Stack} (r : Roster) :
    (p.add r.ipv4 r.ipv6).Supplies stack ↔ p.Supplies stack ∨ r.Supplies stack := by
  have hadd : (p.add r.ipv4 r.ipv6).servers stack
      = (p.servers stack).merge (r.candidates stack) := by
    cases stack <;> rfl
  unfold Supplies Roster.Supplies
  rw [hadd, Ne, Endpoints.merge_eq_nil]
  by_cases h : p.servers stack = [] <;> simp [h]

theorem nonempty_of_supplies {p : Pool} {stack : Stack} (h : p.Supplies stack) :
    p.isEmpty = false := by
  rw [isEmpty_eq_false_iff]
  cases stack with
  | ipv6Only => exact .inr h
  | unknown | ipv4Only | dual => exact .inl h

theorem lasting_supplies (stack : Stack) : Lasting (Supplies stack) where
  add ipv4 ipv6 h := (supplies_add ⟨ipv4, ipv6⟩).2 (.inl h)
  update {p} addr ms h := by
    have hsame : p.SameServers (p.update addr ms) := SameServers.update ⟨rfl, rfl⟩ addr ms
    exact mt (hsame.servers_eq_nil stack).1 h

end Pool

namespace Bootstrap

open Client.Session (Listed listed_of_some)

variable {τ : Type} {S : Services τ} {c : ClientConfig}

theorem walk_listed : ∀ {servers : List String} {w : τ} {roster : Roster},
    (walk S c servers w).1 = some roster → Listed S roster
  | [], _, _, h => by cases h
  | server :: rest, w, roster, h => by
    simp only [walk, Action.bind_apply] at h
    cases hl : (listed S (ask S c server w).1 (ask S c server w).2.2).1 with
    | none =>
      rw [hl] at h
      exact walk_listed h
    | some r =>
      rw [hl] at h
      obtain rfl : r = roster := Option.some.inj h
      exact listed_of_some hl

/-- What each boot server lists as one is asked after the other. -/
def offers (S : Services τ) (c : ClientConfig) : List String → τ → List (Option Roster)
  | [], _ => []
  | server :: rest, w =>
    let offer := (ask S c server >>= listed S) w
    offer.1 :: offers S c rest offer.2.2

theorem walk_eq_findSome : ∀ (servers : List String) (w : τ),
    (walk S c servers w).1 = (offers S c servers w).findSome? id
  | [], _ => rfl
  | server :: rest, w => by
    simp only [walk, offers, Action.bind_apply]
    cases (listed S (ask S c server w).1 (ask S c server w).2.2).1 with
    | none => exact walk_eq_findSome rest _
    | some roster => rfl

/-- The first list that a boot server offers. -/
def offer (S : Services τ) (c : ClientConfig) (boot : Roster) (w : τ) : Option Roster :=
  (offers S c (order S boot w).1 (order S boot w).2.2).findSome? id

/-- What a bootstrap that succeeds does: it appends the first list that is offered. -/
theorem bootstrap_ok {boot known : Roster} {p : Pool} {w : τ}
    (h : (bootstrap S c boot (p, w)).1 = .ok known) :
    ∃ roster, offer S c boot w = some roster ∧ Listed S roster ∧ known = boot.union roster
      ∧ (bootstrap S c boot (p, w)).2.2.1 = p.add roster.ipv4 roster.ipv6 := by
  simp only [bootstrap, Action.bind_apply, Action.beside_apply] at h ⊢
  cases hwalk : (walk S c (order S boot w).1 (order S boot w).2.2).1 with
  | none =>
    rw [hwalk] at h
    cases h
  | some roster =>
    rw [hwalk] at h
    cases h
    exact ⟨roster, (walk_eq_findSome _ _).symm.trans hwalk, walk_listed hwalk, rfl, rfl⟩

end Bootstrap

/-! ## Jobs over a pool that has a server -/

namespace Job

variable {σ : Type} {S : Services σ} {inv : σ → Prop}

/-- Where a server can always be drawn, no query is refused one. -/
theorem prepare_ready (h : S.Maintains inv fun _ => True)
    (hpick : ∀ {w}, inv w → (S.pick w).1.isSome = true) : ∀ (i : Nat) (seen : Option Stack)
    (qs : List Query) {w : σ}, inv w → (prepare S i seen qs w).1.2 = true
  | _, _, [], _, _ => rfl
  | i, seen, q :: rest, w, hw => by
    rw [prepare]
    split
    · have hserved : ∃ q', (assignServer S i q w).1 = some q' := by
        cases hres : q.request.resolver with
        | some server => exact ⟨q, by simp [assignServer, hres]⟩
        | none =>
          obtain ⟨e, he⟩ := Option.isSome_iff_exists.1 (hpick hw)
          exact ⟨q.serve e.addr, by simp [assignServer, hres, he]⟩
      obtain ⟨q', hq'⟩ := hserved
      have hany : ∀ {α : Type} {x : Action σ α}, Upholds inv (fun _ => True) x → ∀ {w}, inv w →
          inv (x w).2.2 := fun hx _ hw => hx _ hw fun _ _ _ => trivial
      simp only [Action.bind_apply, hq', Action.pure_apply]
      exact prepare_ready h hpick _ _ rest (hany (probe_obeys h.obeys i _)
        (hany (assignType_obeys h.obeys seen q') (hany (assignServer_obeys h.obeys i q) hw)))
    · simp only [Action.bind_apply, Action.pure_apply]
      exact prepare_ready h hpick _ _ rest hw

end Job

namespace Client

variable {τ : Type} {S : Services τ} {c : Client} {pace : Pace τ} {stack : Stack}

theorem isSome_pick (hstack : ∀ w, (S.stack w).1 = stack) {s : State τ}
    (h : OnPool (Pool.Supplies stack) s) : ((services S).pick s).1.isSome = true := by
  show (s.2.1.pick (S.stack s.2.2.2).1).isSome = true
  rw [hstack]
  exact Pool.isSome_pick.2 h

theorem run_supplied (hstack : ∀ w, (S.stack w).1 = stack) {s : State τ}
    (h : s.2.1.Supplies stack) (j : Job) :
    (run S j s).1.2 = .ok () ∧ (run S j s).2.2.2.1.Supplies stack := by
  have hkeep := maintains_onPool S (Pool.lasting_supplies stack)
  have hready := Job.prepare_ready hkeep (isSome_pick hstack) 0 none j.queries h
  refine ⟨?_, Job.run_upholds hkeep j s h fun _ _ _ => trivial⟩
  simp [run, Job.run, hready]

namespace Session

/-- The call has failed for want of a server. -/
def Unserved (s : Session) (k : Nat) : Prop :=
  s.phase? k = some (.done (.error .noResolverAvailable))

/-- The search that the call runs for a lazy bootstrap. -/
def search? (s : Session) (i : Nat) : Option Search :=
  match s.phase? i with
  | some (.guarding search) => some search
  | _ => none

theorem search?_of_phase? {s : Session} {i : Nat} {search : Search}
    (h : s.phase? i = some (.guarding search)) : s.search? i = some search := by
  rw [search?, h]

theorem sail_ne_error (delay : Delay τ) (j : Job) (e : Error) : ∀ (most round : Nat)
    (qs : List Query) (w : State τ), (sail S delay j most round qs w).1 ≠ .done (.error e)
  | 0, _, _, _ => by simp [sail, finish]
  | most + 1, round, qs, w => by
    simp only [sail, Action.bind_apply]
    split
    · simp [finish]
    · simp only [Action.bind_apply]
      split
      · exact sail_ne_error delay j e most (round + 1) _ _
      · simp

theorem pollVoyage_ne_error (delay : Delay τ) (v : Voyage) (e : Error) (w : State τ) :
    (pollVoyage S delay v w).1 ≠ .done (.error e) := by
  unfold pollVoyage
  split
  · simp
  · exact sail_ne_error delay v.job e v.most (v.round + 1) _ _

theorem embark_ne_error (hstack : ∀ w, (S.stack w).1 = stack) (delay : Delay τ) (j : Job)
    {w : State τ} (h : OnPool (Pool.Supplies stack) w) (e : Error) :
    (embark S delay j w).1 ≠ .done (.error e) := by
  have hready := Job.prepare_ready (maintains_onPool S (Pool.lasting_supplies stack))
    (isSome_pick hstack) 0 none j.queries h
  simp only [embark, Action.bind_apply, hready]
  exact sail_ne_error delay j e _ 0 _ _

theorem afterSearch_error {boot : Roster} {tried : Nat} {step : SearchStep} {w : State τ}
    {e : Error} (h : (afterSearch boot tried step w).1 = .error (.error e)) :
    e = .bootstrapFailed tried := by
  cases step with
  | suspended | found => cases h
  | failed =>
    cases h
    rfl

theorem searchOnStack_error {delay : Delay τ} {boot : Roster} {found : Stack} {w : State τ}
    {e : Error} (h : (searchOnStack S c delay boot found w).1 = .error (.error e)) :
    ∃ tried, e = .bootstrapFailed tried :=
  ⟨_, afterSearch_error h⟩

theorem beginSearch_error {w : State τ} {e : Error}
    (h : (beginSearch S c pace w).1 = .error (.error e)) : ∃ tried, e = .bootstrapFailed tried := by
  simp only [beginSearch, Action.bind_apply] at h
  split at h
  · exact searchOnStack_error h
  · cases h

theorem pollSearch_error {delay : Delay τ} {search : Search} {w : State τ} {e : Error}
    (h : (pollSearch S c delay search w).1 = .error (.error e)) :
    ∃ tried, e = .bootstrapFailed tried := by
  cases search with
  | detecting boot found polls =>
    by_cases hpolls : 1 < polls
    · simp [pollSearch, hpolls] at h
    · simp only [pollSearch, hpolls, if_false] at h
      exact searchOnStack_error h
  | asking boot tried left reply polls =>
    by_cases hpolls : 1 < polls
    · simp [pollSearch, hpolls] at h
    · simp only [pollSearch, hpolls, if_false] at h
      exact ⟨tried, afterSearch_error h⟩

variable {s : Session} {i k : Nat}

theorem unserved_of_setPhase {p : Phase} (hp : p ≠ .done (.error .noResolverAvailable))
    (h : (s.setPhase i p).Unserved k) : s.Unserved k := by
  by_cases hik : i = k
  · subst hik
    exact absurd (phase?_setPhase_eq h).symm hp
  · rwa [Unserved, phase?_setPhase_ne s hik] at h

theorem unserved_of_openGate (h : s.openGate.Unserved k) : s.Unserved k := by
  unfold Unserved at h ⊢
  rw [phase?_openGate] at h
  cases hp : s.phase? k with
  | none => simp [hp] at h
  | some p => cases p <;> simp_all [Phase.release]

theorem unserved_of_afterBootstrap {step : Except (Except Error Unit) Search}
    (hstep : ∀ {e}, step = .error (.error e) → ∃ tried, e = .bootstrapFailed tried)
    (h : (s.afterBootstrap i step).Unserved k) : s.Unserved k := by
  cases step with
  | ok search => exact unserved_of_setPhase (by simp) h
  | error outcome =>
    refine unserved_of_setPhase ?_ h
    cases outcome with
    | ok => simp [Except.map]
    | error e =>
      obtain ⟨tried, rfl⟩ := hstep rfl
      simp [Except.map]

section

variable (hstack : ∀ w, (S.stack w).1 = stack)

include hstack

theorem unserved_of_admitted {j : Job} {w : State τ} (hw : OnPool (Pool.Supplies stack) w)
    (h : (admitted S pace s i j w).1.Unserved k) : s.Unserved k :=
  unserved_of_setPhase (embark_ne_error hstack pace.exchange j hw _) h

theorem unserved_of_afterGuard {j : Job} {step : Except (Except Error Unit) Search} {w : State τ}
    (hw : OnPool (Pool.Supplies stack) w) (h : (afterGuard S pace s i j step w).1.Unserved k) :
    s.Unserved k := by
  cases step with
  | ok search => exact unserved_of_setPhase (by simp) h
  | error outcome => exact unserved_of_openGate (unserved_of_admitted hstack hw h)

/-- On a stack that has a server no poll ends a call for want of one. -/
theorem unserved_of_poll {w : State τ} (hw : OnPool (Pool.Supplies stack) w)
    (h : (poll S c pace s i w).1.Unserved k) : s.Unserved k := by
  have hlasting := Pool.lasting_supplies stack
  unfold poll at h
  cases hc : s.calls[i]? with
  | none =>
    rw [hc] at h
    exact h
  | some call =>
    obtain ⟨job?, phase⟩ := call
    rw [hc] at h
    cases phase with
    | arriving =>
      cases job? with
      | none => exact unserved_of_afterBootstrap beginSearch_error h
      | some j =>
        have hne : w.2.1.isEmpty = false := Pool.nonempty_of_supplies hw
        simp only [Action.bind_apply, poolEmpty, Action.read_apply, hne] at h
        exact unserved_of_admitted hstack hw h
    | guarding search =>
      cases job? with
      | none => exact h
      | some j =>
        have hupholds : Upholds (OnPool (Pool.Supplies stack)) (fun _ => True)
            (pollSearch S c pace.exchange search) := pollSearch_upholds hlasting S c _ search
        have hkept := hupholds w hw fun _ _ _ => trivial
        exact unserved_of_afterGuard hstack hkept h
    | searching search => exact unserved_of_afterBootstrap pollSearch_error h
    | admitted =>
      cases job? with
      | none => exact h
      | some j => exact unserved_of_admitted hstack hw h
    | resolving voyage =>
      exact unserved_of_setPhase (pollVoyage_ne_error pace.exchange voyage _ w) h
    | waiting | done | dropped => exact h

/-- Nor does the poll that ends a lazy bootstrap, if the stack has a server by then. -/
theorem unserved_of_ended (hs : s.Gated) {search : Search}
    (hi : s.phase? i = some (.guarding search)) {w : State τ}
    (hw : OnPool (Pool.Supplies stack) (pollSearch S c pace.exchange search w).2.2)
    (h : (poll S c pace s i w).1.Unserved k) : s.Unserved k := by
  obtain ⟨j, hj⟩ := Option.isSome_iff_exists.1 (hs.called ⟨search, hi⟩)
  have hcall := calls_of_phase? hi
  rw [hj] at hcall
  simp only [poll, hcall, Action.bind_apply] at h
  exact unserved_of_afterGuard hstack hw h

end

theorem unserved_of_drop (h : (s.drop i).Unserved k) : s.Unserved k := by
  unfold drop at h
  cases hc : s.calls[i]? with
  | none =>
    rw [hc] at h
    exact h
  | some call =>
    obtain ⟨job?, phase⟩ := call
    rw [hc] at h
    cases phase with
    | done => exact h
    | guarding search => exact unserved_of_openGate (unserved_of_setPhase (by simp) h)
    | arriving | waiting | searching | admitted | resolving | dropped =>
      exact unserved_of_setPhase (by simp) h

end Session

/-! ## After a bootstrap -/

/-- A stack that has a server does not lose it. -/
def KeepsSupply (stack : Stack) (s s' : State τ) : Prop :=
  s.2.1.Supplies stack → s'.2.1.Supplies stack

theorem supplied_of_steps (hstack : ∀ w, (S.stack w).1 = stack) {m m' : Moment τ}
    (h : Relation.ReflTransGen (Step S c pace (KeepsSupply stack)) m m')
    (hm : m.state.2.1.Supplies stack) : m'.state.2.1.Supplies stack
      ∧ ∀ {k}, m'.session.Unserved k → m.session.Unserved k := by
  induction h with
  | refl => exact ⟨hm, id⟩
  | tail _ hstep ih =>
    obtain ⟨hsupplied, hserved⟩ := ih
    cases hstep with
    | polled i =>
      exact ⟨Session.poll_upholds S c pace (Pool.lasting_supplies stack) _ i _ hsupplied
        fun _ _ _ => trivial, fun hk => hserved (Session.unserved_of_poll hstack hsupplied hk)⟩
    | dropped => exact ⟨hsupplied, fun hk => hserved (Session.unserved_of_drop hk)⟩
    | aside hkeeps => exact ⟨hkeeps hsupplied, hserved⟩

/-- A bootstrap that succeeds appends the first list that is offered, and a server is found for a
stack then exactly if there was one before or that list names one. As long as the detector keeps to
a stack that has a server no job fails; and once a lazy bootstrap has found one, no call does, in
whatever way calls go on. -/
theorem bootstrap_supplies (S : Services τ) (c : Client) (stack : Stack) :
    (∀ {boot known : Roster} {p : Pool} {w : τ},
      (Bootstrap.bootstrap S c.config boot (p, w)).1 = .ok known →
        ∃ roster, Bootstrap.offer S c.config boot w = some roster ∧ Session.Listed S roster
          ∧ known = boot.union roster
          ∧ (Bootstrap.bootstrap S c.config boot (p, w)).2.2.1 = p.add roster.ipv4 roster.ipv6
          ∧ ∀ w', (S.stack w').1 = stack →
            ((S.withPool.pick ((Bootstrap.bootstrap S c.config boot (p, w)).2.2.1, w')).1.isSome
              ↔ p.Supplies stack ∨ roster.Supplies stack))
      ∧ ((∀ w, (S.stack w).1 = stack) →
        (∀ {s : State τ}, s.2.1.Supplies stack → ∀ j,
          (run S j s).1.2 = .ok () ∧ (run S j s).2.2.2.1.Supplies stack)
        ∧ ∀ {pace : Pace τ} {start m : Moment τ} {i : Nat} {search : Search},
          start.session.IsFresh →
          Relation.ReflTransGen (Step S c pace fun _ _ => True) start m →
          m.session.phase? i = some (.guarding search) →
          (Session.pollSearch S c pace.exchange search m.state).1 = .error (.ok ()) →
          ∃ roster, Session.Listed S roster
            ∧ (Session.pollSearch S c pace.exchange search m.state).2.2.2.1
              = m.state.2.1.add roster.ipv4 roster.ipv6
            ∧ (m.state.2.1.Supplies stack ∨ roster.Supplies stack →
              ∀ {m'}, Relation.ReflTransGen (Step S c pace (KeepsSupply stack))
                (m.polled S c pace i) m' →
                m'.state.2.1.Supplies stack
                  ∧ ∀ {k}, m'.session.Unserved k → m.session.Unserved k)) := by
  refine ⟨fun {boot known p w} h => ?_, fun hstack => ⟨fun h j => run_supplied hstack h j, ?_⟩⟩
  · obtain ⟨roster, hoffer, hlisted, hknown, hpool⟩ := Bootstrap.bootstrap_ok h
    refine ⟨roster, hoffer, hlisted, hknown, hpool, fun w' hstack => ?_⟩
    show (Pool.pick _ (S.stack w').1).isSome ↔ _
    rw [hpool, hstack, Pool.isSome_pick, Pool.supplies_add]
  · intro pace start m i search hstart hsteps hi hover
    have hgated : m.session.Gated := keeps_of_steps Session.Gated.move hsteps hstart.gated
    obtain ⟨roster, hlisted, hpool⟩ := Session.learned_of_pollSearch hover
    refine ⟨roster, hlisted, hpool, fun hsupplies m' hlater => ?_⟩
    have hfound : OnPool (Pool.Supplies stack)
        (Session.pollSearch S c pace.exchange search m.state).2.2 := by
      rw [OnPool, hpool]
      exact (Pool.supplies_add roster).2 hsupplies
    have hpolled : (m.polled S c pace i).state.2.1.Supplies stack := by
      obtain ⟨p, j, -, -, hstate⟩ := hgated.poll_of_ended hi hover
      rw [Moment.polled, hstate]
      exact ((Session.embark_ensures (maintains_onPool S (Pool.lasting_supplies stack))
        pace.exchange j) _ hfound).1
    obtain ⟨hsupplied, hserved⟩ := supplied_of_steps hstack hlater hpolled
    exact ⟨hsupplied, fun hk => Session.unserved_of_ended hstack hgated hi hfound (hserved hk)⟩

/-- A bootstrap that finds a server for its stack, alone and as the lazy bootstrap of two lookups:
neither of these ever fails for want of a server. -/
theorem bootstrap_supplies_pair :
    let S := listing.withJson
    let c : Client := ⟨{ accountId := "100000" }, by decide⟩
    let pace : Pace Unit := { exchange := fun _ _ => 1, detection := fun _ => 1 }
    let poll := Moment.polled S c pace
    let start : Moment Unit := ⟨concurrently c [("a.com", .a), ("b.com", .a)], c.initial ()⟩
    let m := poll (poll (poll start 0) 1) 0
    let found := Bootstrap.bootstrap S c.config (Roster.ofConfig c.config) ({}, ())
    (∃ roster, Session.Listed S roster ∧ roster.Supplies .ipv4Only
        ∧ found.1 = .ok ((Roster.ofConfig c.config).union roster))
      ∧ (m.session.Guards 0 ∧ m.session.Waits 1)
      ∧ ∀ m', Relation.ReflTransGen (Step S c pace (KeepsSupply .ipv4Only)) (poll m 0) m' →
          m'.state.2.1.Supplies .ipv4Only ∧ ∀ k, ¬ m'.session.Unserved k := by
  intro S c pace poll start m found
  obtain ⟨hboot, hclient⟩ := bootstrap_supplies S c .ipv4Only
  have hfound : found.1
      = .ok ⟨c.config.bootServersIpv4 ++ ["192.0.2.53"], c.config.bootServersIpv6⟩ := by
    decide +kernel
  have hguards : m.session.Guards 0 := by decide +kernel
  refine ⟨?_, ⟨hguards, by decide +kernel⟩, fun m' hlater => ?_⟩
  · obtain ⟨roster, -, hlisted, hknown, -, hpick⟩ := hboot hfound
    rcases (hpick () rfl).1 (by decide +kernel) with hpool | hroster
    · exact absurd rfl hpool
    · exact ⟨roster, hlisted, hroster, hfound.trans (congrArg _ hknown)⟩
  · have hsteps : Relation.ReflTransGen (Step S c pace fun _ _ => True) start m :=
      ((Relation.ReflTransGen.single (.polled start 0)).tail (.polled _ 1)).tail (.polled _ 0)
    have hends : m.Ends S c pace 0 (.ok ()) := by decide +kernel
    obtain ⟨search, hsearch, hover⟩ := hends
    obtain ⟨roster, -, hpool, hall⟩ :=
      (hclient fun _ => rfl).2 (isFresh_concurrently c _) hsteps hsearch hover
    have hfilled : (m.session.search? 0).map (fun search =>
        (Session.pollSearch S c pace.exchange search m.state).2.2.2.1.ipv4)
          = some [⟨"192.0.2.53", none⟩] := by
      decide +kernel
    rw [Session.search?_of_phase? hsearch, Option.map_some, hpool] at hfilled
    have hlearned := Option.some.inj hfilled
    have hsupplied : (m.state.2.1.add roster.ipv4 roster.ipv6).Supplies .ipv4Only := by
      rw [Pool.Supplies, Pool.servers, hlearned]
      simp
    obtain ⟨hstill, hserved⟩ := hall ((Pool.supplies_add roster).1 hsupplied) hlater
    refine ⟨hstill, fun k hk => ?_⟩
    have hresult : m.session.results[k]? = some (some (.error .noResolverAvailable)) := by
      rw [Session.results, List.getElem?_map, Session.calls_of_phase? (hserved hk)]
      rfl
    have hresults : m.session.results = [none, none] := by decide +kernel
    rw [hresults] at hresult
    cases List.mem_of_getElem? hresult with
    | tail _ h => cases h with | tail _ h => cases h

/-- An answer that lists no server of the stack's family ends a bootstrap all the same: the next
boot server, which would list one, is not asked, and no lookup finds a server then. -/
theorem bootstrap_of_other_family :
    let S := (Services.steady (fun _ => none)
      (fun e => .ok ⟨statusOk, if e.server = "192.0.2.1"
        then "\x7b\"service_ipv6\":[\"2001:db8::53\"]\x7d"
        else "\x7b\"service_ip\":[\"192.0.2.53\"]\x7d", 8⟩) fun _ => none).withJson
    let c : Client := ⟨{ accountId := "100000", bootServersIpv4 := ["192.0.2.1", "192.0.2.2"] },
      by decide⟩
    let found := Bootstrap.bootstrap S c.config (Roster.ofConfig c.config) ({}, ())
    let first := resolveHost S c "a.com" .a (c.initial ())
    let second := resolveHost S c "a.com" .a first.2.2
    (∀ w, (S.stack w).1 = .ipv4Only)
      ∧ found.1 = .ok ⟨["192.0.2.1", "192.0.2.2"], c.config.bootServersIpv6 ++ ["2001:db8::53"]⟩
      ∧ (S.withPool.pick (found.2.2.1, ())).1 = none
      ∧ (bootstrap S c (c.initial ())).1 = .ok ()
      ∧ first.1 = .error .noResolverAvailable ∧ second.1 = .error .noResolverAvailable
      ∧ Unasked second.2.1 := by
  intro S c found first second
  refine ⟨fun _ => rfl, by decide +kernel, by decide +kernel, by decide +kernel,
    by decide +kernel, by decide +kernel, ?_⟩
  have hes : second.2.1 = [.drew 0 none] := by decide +kernel
  rw [hes]
  simp [Unasked]

end Client

end HttpDns
