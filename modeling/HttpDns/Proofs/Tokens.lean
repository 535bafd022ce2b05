import HttpDns.Proofs.Accord
import HttpDns.Proofs.Narrowing

/-!
# The type that a query is sent with

A query that leaves its type open gets the one for the stack that the detector tells. It is asked
once at most as a run is prepared, so that all of them get the same type, but for those that the
preparation does not reach, as no server can be drawn for one of them or for a query before them
(`auto_left_open`). Half an answer from the cache narrows the type of a request for both families to
the one that is missing. Nothing else changes the type, so all exchanges of a query ask for the same
thing, and never for what suits a stack (`run_asks_one_type`).
-/

namespace HttpDns

/-- The stacks that the detector told, in order. -/
def stacksTold (es : List Event) : List Stack :=
  es.filterMap fun
    | .detected stack => some stack
    | _ => none

@[simp] theorem stacksTold_nil : stacksTold [] = [] := rfl

@[simp] theorem stacksTold_append (es fs : List Event) :
    stacksTold (es ++ fs) = stacksTold es ++ stacksTold fs :=
  List.filterMap_append

theorem stacksTold_eq_nil {es : List Event} (h : ∀ stack, .detected stack ∉ es) :
    stacksTold es = [] := by
  unfold stacksTold
  rw [List.filterMap_eq_nil_iff]
  intro e he
  cases e with
  | detected stack => exact absurd he (h stack)
  | drew | probed | rotated | switched | sent | sampled | stored | fired | asked => rfl

theorem stacksTold_of_query? {es : List Event} {i : Nat} (h : ∀ e ∈ es, e.query? = some i) :
    stacksTold es = [] :=
  stacksTold_eq_nil fun _ he => nomatch h _ he

/-! ## Notes of stacks -/

namespace Services

variable {τ : Type}

/-- The services, with a note of the stacks that the detector told. -/
def surveyed (S : Services τ) : Services (List Stack × τ) :=
  { S.beside with
    stack := fun (told, w) =>
      let (stack, w) := S.stack w
      (stack, (told ++ [stack], w)) }

/-- The note is of no account for the services. -/
theorem accords_surveyed (S : Services τ) : S.surveyed.Accords S fun s w => s.2 = w := by
  constructor
  · constructor <;> intros <;> subst_vars <;> first | rfl | exact ⟨rfl, rfl⟩
  all_goals intros; subst_vars; first | rfl | exact ⟨rfl, rfl⟩

/-- What is told of the detector is what it is asked. -/
theorem surveyed_tells (S : Services τ) :
    S.surveyed.withCache.Obeys fun s es s' => s'.2.1 = s.2.1 ++ stacksTold es where
  nothing _ := (List.append_nil _).symm
  append h h' := by rw [h', h, stacksTold_append, List.append_assoc]
  stack _ := rfl
  pick _ _ := (List.append_nil _).symm
  lookup _ _ _ _ := (List.append_nil _).symm
  rotate _ _ _ := (List.append_nil _).symm
  pickOther _ _ _ := (List.append_nil _).symm
  sendAll _ _ _ := (List.append_nil _).symm
  readSingle _ _ := (List.append_nil _).symm
  readMulti _ _ := (List.append_nil _).symm
  sample _ _ _ _ := (List.append_nil _).symm
  store _ _ _ := (List.append_nil _).symm
  fired _ _ _ := (List.append_nil _).symm

end Services

namespace Job

/-! ## The type of a request -/

section

variable {σ : Type} (S : Services σ)

theorem Served.queryType_eq {i : Nat} {q q' : Query} {es : List Event} (h : Served i q q' es) :
    q'.request.queryType = q.request.queryType := by
  cases h <;> rfl

theorem Probed.request_eq {i : Nat} {q q' : Query} {es : List Event} (h : Probed i q q' es) :
    q'.request = q.request := by
  cases h <;> rfl

theorem Probed.undrawn {i : Nat} {q q' : Query} {es : List Event} (h : Probed i q q' es) {n : Nat}
    {server : Option Endpoint} : Event.drew n server ∉ es := by
  cases h with
  | skipped | missed | half => simp
  | whole =>
    unfold callback
    split <;> simp

/-- The detector is asked unless the stack is known, and what it tells is known from then on. -/
theorem assignType_told (seen : Option Stack) (q : Query) (w : σ) :
    seen.toList ++ stacksTold (assignType S seen q w).2.1 = (assignType S seen q w).1.2.toList
      ∧ (q.request.queryType = .auto → ∃ stack, (assignType S seen q w).1.2 = some stack
        ∧ (assignType S seen q w).1.1 = q.settle (.ofStack stack)) := by
  unfold assignType askStack
  split
  · cases seen with
    | none => exact ⟨rfl, fun _ => ⟨_, rfl, rfl⟩⟩
    | some stack => exact ⟨rfl, fun _ => ⟨_, rfl, rfl⟩⟩
  · rename_i hne
    exact ⟨List.append_nil _, fun hauto => absurd hauto hne⟩

/-- No server can be drawn for a query at a position up to this one. -/
def Halted (k : Nat) (es : List Event) : Prop :=
  ∃ n ≤ k, Event.drew n none ∈ es

/-- The stack that is told as queries are prepared is told once, and each query that leaves its type
open gets the type for it, if preparation comes to it. -/
theorem prepare_told : ∀ (i : Nat) (seen : Option Stack) (qs : List Query) (w : σ),
    ∃ known : Option Stack,
      seen.toList ++ stacksTold (prepare S i seen qs w).2.1 = known.toList
        ∧ ∀ {k q q'}, qs[k]? = some q → (prepare S i seen qs w).1.1[k]? = some q' →
          q.state = .pending → q.request.queryType = .auto →
          ¬ Halted (i + k) (prepare S i seen qs w).2.1 →
            ∃ stack ∈ known, q'.request.queryType = .ofStack stack
  | _, seen, [], _ => ⟨seen, List.append_nil _, fun hq => by simp at hq⟩
  | i, seen, q :: rest, w => by
    have hadvances := prepare_advances S i seen q rest w
    generalize prepare S i seen (q :: rest) w = out at hadvances ⊢
    cases hadvances with
    | passed hq =>
      obtain ⟨known, hknown, hrest⟩ := prepare_told (i + 1) seen rest w
      refine ⟨known, hknown, fun {k q' q''} hq' hq'' hpend hauto hnot => ?_⟩
      cases k with
      | zero =>
        obtain rfl : q = q' := by simpa using hq'
        exact absurd hpend hq
      | succ k =>
        rw [← Nat.succ_add_eq_add_succ] at hnot
        exact hrest hq' hq'' hpend hauto hnot
    | refused =>
      refine ⟨seen, List.append_nil _, fun {k _ _} _ _ _ _ hnot => absurd ?_ hnot⟩
      exact ⟨i, Nat.le_add_right i k, List.mem_singleton_self _⟩
    | @readied _ q₁ es hserved u =>
      obtain ⟨htold, hsettled⟩ := assignType_told S seen q₁ u
      dsimp only
      set a := assignType S seen q₁ u
      have hprobed := probe_probed S i a.1.1 a.2.2
      set p := probe S i a.1.1 a.2.2
      obtain ⟨known, hknown, hrest⟩ := prepare_told (i + 1) a.1.2 rest p.2.2
      refine ⟨known, ?_, fun {k q' q''} hq' hq'' hpend hauto hnot => ?_⟩
      · rw [stacksTold_append, stacksTold_append, stacksTold_append,
          stacksTold_of_query? hserved.query?, stacksTold_of_query? hprobed.query?,
          List.nil_append, List.nil_append, ← List.append_assoc, htold, hknown]
      · cases k with
        | zero =>
          obtain rfl : q = q' := by simpa using hq'
          obtain rfl : p.1 = q'' := by simpa using hq''
          obtain ⟨stack, hstack, hquery⟩ := hsettled (hserved.queryType_eq.trans hauto)
          refine ⟨stack, ?_, by rw [hprobed.request_eq, hquery]; rfl⟩
          -- the stack that is known now stays the one that is known
          rw [hstack] at hknown
          refine Option.mem_toList.1 ?_
          rw [← hknown]
          exact List.mem_cons_self
        | succ k =>
          refine hrest hq' hq'' hpend hauto ?_
          rintro ⟨n, hn, hdrew⟩
          exact hnot ⟨n, by omega, by simp [hdrew]⟩

/-- Where no server can be drawn for a query, preparation fails, and that query and those behind it
stay as they are. -/
theorem prepare_halted : ∀ (i : Nat) (seen : Option Stack) (qs : List Query) (w : σ) {n : Nat},
    Event.drew n none ∈ (prepare S i seen qs w).2.1 →
      (prepare S i seen qs w).1.2 = false ∧ i ≤ n
        ∧ ∀ k, n ≤ i + k → (prepare S i seen qs w).1.1[k]? = qs[k]?
  | _, _, [], _, _, h => by simp [prepare] at h
  | i, seen, q :: rest, w, n, h => by
    have hadvances := prepare_advances S i seen q rest w
    generalize prepare S i seen (q :: rest) w = out at hadvances h ⊢
    -- a query that is settled or readied does not stand where preparation stops
    have hbehind : ∀ {q' : Query} {rest' : List Query}, i + 1 ≤ n →
        (∀ k, n ≤ i + 1 + k → rest'[k]? = rest[k]?) →
        ∀ k, n ≤ i + k → (q' :: rest')[k]? = (q :: rest)[k]? := by
      intro q' rest' hle hrest k hk
      cases k with
      | zero => omega
      | succ k => simpa using hrest k (by omega)
    cases hadvances with
    | passed =>
      obtain ⟨hfailed, hle, hrest⟩ := prepare_halted (i + 1) seen rest w h
      exact ⟨hfailed, by omega, hbehind hle hrest⟩
    | refused =>
      obtain rfl : n = i := by simpa using h
      exact ⟨rfl, le_rfl, fun _ _ => rfl⟩
    | @readied _ q₁ es hserved u =>
      have hdetected := assignType_events S seen q₁ u
      dsimp only at h ⊢
      set a := assignType S seen q₁ u
      have hprobed := probe_probed S i a.1.1 a.2.2
      set p := probe S i a.1.1 a.2.2
      have hmem : Event.drew n none ∈ (prepare S (i + 1) a.1.2 rest p.2.2).2.1 := by
        simp only [List.mem_append] at h
        rcases h with h | h | h | h
        · cases hserved <;> simp at h
        · obtain ⟨stack, hstack⟩ := hdetected _ h
          cases hstack
        · exact absurd h hprobed.undrawn
        · exact h
      obtain ⟨hfailed, hle, hrest⟩ := prepare_halted (i + 1) a.1.2 rest p.2.2 hmem
      exact ⟨hfailed, by omega, hbehind hle hrest⟩

end

section

variable {σ : Type}

theorem Prepared.named {i : Nat} {q q' : Query} {es : List Event} (h : Prepared i q q' es)
    (hne : q.request.queryType ≠ .auto) : q'.request.queryType = q.request.queryType := by
  cases h with
  | passed => rfl
  | readied _ served typed probed =>
    rw [probed.request_eq, ← served.queryType_eq]
    cases typed with
    | given => rfl
    | settled hauto => exact absurd (served.queryType_eq.symm.trans hauto) hne

theorem Unprepared.query_eq {i : Nat} {q q' : Query} {es : List Event}
    (h : Unprepared i q q' es) : q' = q := by
  cases h <;> rfl

/-- What a query's request asks for it asks for from then on, unless it leaves it open. -/
def KeepsNamed (_ : Nat) (q q' : Query) (_ : List Event) : Prop :=
  q.request.queryType ≠ .auto → q'.request.queryType = q.request.queryType

theorem KeepsNamed.composes : Composes KeepsNamed := fun _ _ _ _ _ _ h h' hne => by
  have hsame := h hne
  rw [h' (hsame ▸ hne), hsame]

theorem prepare_named (S : Services σ) (i : Nat) (seen : Option Stack) (qs : List Query) (w : σ) :
    Passes KeepsNamed i qs (prepare S i seen qs w).1.1 (prepare S i seen qs w).2.1 :=
  (prepare_passes S i seen qs w).mono fun _ _ _ _ h hne => by
    rcases h with h | ⟨-, h⟩
    · exact h.named hne
    · rw [h.query_eq]

end


/-! ## Over a run -/

section

variable {σ : Type} {S : Services σ} {j : Job} {w : σ} {k : Nat}

theorem run_sameTypes {q : Query} (hq : (prepare S 0 none j.queries w).1.1[k]? = some q) :
    ∃ q', (run S j w).1.1.queries[k]? = some q' ∧ SameTypes q q' := by
  have hrun := executes_run S j w
  generalize run S j w = out at hrun ⊢
  cases hrun with
  | refused => exact ⟨q, hq, rfl, rfl⟩
  | settled _ hs =>
    obtain ⟨q', hq'⟩ := hs.sameTypes.get_after hq
    refine ⟨q'.sweep, by rw [List.getElem?_map, hq']; rfl, ?_⟩
    exact (hs.sameTypes.each hq hq').trans (sameTypes_sweep q')

theorem stacksTold_run (S : Services σ) (j : Job) (w : σ) :
    stacksTold (run S j w).2.1 = stacksTold (prepare S 0 none j.queries w).2.1 := by
  have hrun := executes_run S j w
  generalize run S j w = out at hrun ⊢
  cases hrun with
  | refused => rfl
  | settled _ hs =>
    rw [stacksTold_append, stacksTold_eq_nil fun stack he => hs.inRounds _ he, List.append_nil]

/-- What goes into the rounds of a run has a type of its own. -/
theorem prepared_concrete (hok : (prepare S 0 none j.queries w).1.2 = true) {q : Query}
    (hq : (prepare S 0 none j.queries w).1.1[k]? = some q) (hpend : q.state = .pending) :
    q.request.queryType ≠ .auto := by
  obtain ⟨known, -, htold⟩ := prepare_told S 0 none j.queries w
  obtain ⟨q₀, hq₀⟩ := (prepare_progress S 0 none j.queries w).get_before hq
  have hpend₀ : q₀.state = .pending := by
    cases (prepare_progress S 0 none j.queries w).each hq₀ hq with
    | still state => exact state.symm.trans hpend
    | done _ now => rw [now] at hpend; cases hpend
  by_cases hauto : q₀.request.queryType = .auto
  · have hnot : ¬ Halted (0 + k) (prepare S 0 none j.queries w).2.1 := by
      rintro ⟨n, -, hdrew⟩
      rw [(prepare_halted S 0 none j.queries w hdrew).1] at hok
      cases hok
    obtain ⟨stack, -, htype⟩ := htold hq₀ hq hpend₀ hauto hnot
    rw [htype]
    exact QueryType.ofStack_ne_auto stack
  · rwa [(prepare_named S 0 none j.queries w).each hq₀ hq hauto]

theorem run_named (S : Services σ) (j : Job) (w : σ) :
    Passes KeepsNamed 0 j.queries (run S j w).1.1.queries (run S j w).2.1 :=
  run_carries KeepsNamed.composes (prepare_named S 0 none j.queries w)
    (fun hs => hs.sameTypes.mono fun _ _ _ _ hsame _ => hsame.request)
    fun _ q _ => (sameTypes_sweep q).request

theorem Life.named {settings : JobSettings} {rs : List (Request × Bool)} {es : List Event}
    (life : Life S settings rs j es w) :
    Passes (fun _ r q _ => r.1.queryType ≠ .auto → q.request.queryType = r.1.queryType) 0 rs
      j.queries es := by
  refine life.carries (fun _ _ _ _ _ => rfl) (run_named S) fun h hr hne => ?_
  have htype := h hne
  rw [hr (htype ▸ hne), htype]

end

section

variable {τ : Type}

/-- How a run over a cache of its own settles the types of its queries, and what it asks for. -/
structure AsksOneType (S : Services τ) (rs : List (Request × Bool)) (j : Job) (es : List Event)
    (w : Cache × τ) : Prop where
  /-- the detector is asked for what is told, and for nothing else -/
  asked : ∀ told, (run S.surveyed.withCache j (w.1, (told, w.2))).2.2.2.1
    = told ++ stacksTold (run S.withCache j w).2.1
  once : (stacksTold (run S.withCache j w).2.1).length ≤ 1
  /-- the stack that is told settles every type that is left open, as far as there are servers -/
  settled : ∀ {k : Nat} {q q' : Query}, j.queries[k]? = some q →
    (run S.withCache j w).1.1.queries[k]? = some q' → q.state = .pending →
    q.request.queryType = .auto → ¬ Halted k (run S.withCache j w).2.1 →
      ∃ stack, stacksTold (run S.withCache j w).2.1 = [stack]
        ∧ q'.request.queryType = .ofStack stack
  /-- without a server for a query nothing is sent, and it and those behind it stay as they are -/
  halted : ∀ {n : Nat}, Event.drew n none ∈ (run S.withCache j w).2.1 →
    (run S.withCache j w).1.2 = .error .noResolverAvailable
      ∧ batches (run S.withCache j w).2.1 = []
      ∧ ∀ k, n ≤ k → (run S.withCache j w).1.1.queries[k]? = j.queries[k]?
  kept : ∀ {k : Nat} {q q' : Query}, j.queries[k]? = some q →
    (run S.withCache j w).1.1.queries[k]? = some q' → q.request.queryType ≠ .auto →
      q'.request.queryType = q.request.queryType
  named : ∀ {k : Nat} {ra : Request × Bool} {q' : Query}, rs[k]? = some ra →
    (run S.withCache j w).1.1.queries[k]? = some q' → ra.1.queryType ≠ .auto →
      q'.request.queryType = ra.1.queryType
  /-- all exchanges of a query are sent with the one type that it ends with -/
  sent : ∀ {round : Nat} {batch : List (Nat × Exchange)} {k : Nat} {e : Exchange},
    Event.sent round batch ∈ (run S.withCache j w).2.1 → (k, e) ∈ batch →
      ∃ r out q', InRun S.withCache j w r ∧ r.GoesOut S.withCache j.settings k out
        ∧ out.exchange = e ∧ (run S.withCache j w).1.1.queries[k]? = some q'
        ∧ SentWith q'.request.queryType
          (halvesFound (about k (es ++ (run S.withCache j w).2.1))) q'.queryType
        ∧ q'.queryType ≠ .auto ∧ out.request.queryType = q'.queryType
        ∧ Url.AsksFor e.url e.server q'.queryType

variable {S : Services τ} {settings : JobSettings} {rs : List (Request × Bool)} {j : Job}
  {es : List Event} {w : Cache × τ}

/-- The detector is asked once at most in a run, for all queries that leave their types open, and
all exchanges of a query ask for one type, which is never left open. -/
theorem run_asks_one_type (life : Life S.withCache settings rs j es w) :
    AsksOneType S rs j es w := by
  obtain ⟨known, hknown, htold⟩ := prepare_told S.withCache 0 none j.queries w
  have hstacks : stacksTold (run S.withCache j w).2.1 = known.toList :=
    (stacksTold_run S.withCache j w).trans hknown
  have hnamed := run_named S.withCache j w
  refine
    { asked := fun told => ?asked
      once := ?once
      settled := fun {k q q'} hq hq' hpend hauto hnot => ?settled
      halted := fun {n} hdrew => ?halted
      kept := fun hq hq' => hnamed.each hq hq'
      named := fun hra hq' => (Life.ran life).named.each hra hq'
      sent := fun {round batch k e} hsent he => ?sent }
  case asked =>
    have hmirrors := run_mirrors S.accords_surveyed.withCache j (w.1, (told, w.2)) w ⟨rfl, rfl⟩
    rw [← hmirrors.events]
    exact run_obeys S.surveyed_tells j (w.1, (told, w.2))
  case once =>
    rw [hstacks]
    cases known <;> simp
  case settled =>
    obtain ⟨q₁, hq₁⟩ := (prepare_passes S.withCache 0 none j.queries w).get_after hq
    obtain ⟨q₂, hq₂, hsame⟩ := run_sameTypes hq₁
    obtain rfl := Option.some.inj (hq₂.symm.trans hq')
    have hreached : ¬ Halted (0 + k) (prepare S.withCache 0 none j.queries w).2.1 := by
      rintro ⟨n, hn, hdrew⟩
      exact hnot ⟨n, by omega, mem_run_of_mem_prepare hdrew⟩
    obtain ⟨stack, rfl, htype⟩ := htold hq hq₁ hpend hauto hreached
    exact ⟨stack, hstacks, hsame.request.trans htype⟩
  case halted =>
    have hdrew' := mem_prepare_of_mem_run hdrew fun h => h
    obtain ⟨hfailed, -, hrest⟩ := prepare_halted S.withCache 0 none j.queries w hdrew'
    have hnone := batches_prepare S.withCache j.queries w
    have hrun := executes_run S.withCache j w
    generalize run S.withCache j w = out at hrun ⊢
    cases hrun with
    | refused => exact ⟨rfl, hnone, fun k hk => hrest k (by omega)⟩
    | settled hok => exact absurd (hfailed.symm.trans hok) (by decide)
  case sent =>
    obtain ⟨r, out, hr, hout, hexchange⟩ := goesOut_of_sent hsent he
    obtain ⟨q, hq, hpend, htype, hasks⟩ := hout.of_prepared hr
    obtain ⟨q', hq', hsame⟩ := run_sameTypes hq
    obtain ⟨ra, hra⟩ := (Life.ran life).aimed.get_before hq'
    have haimed := (Life.ran life).aimed.each hra hq'
    rw [Nat.zero_add] at haimed
    have hconcrete : q'.request.queryType ≠ .auto := by
      rw [hsame.request]
      exact prepared_concrete hr.prepared hq hpend
    rw [hexchange] at hasks
    refine ⟨r, out, q', hr, hout, hexchange, hq', haimed, haimed.ne_auto hconcrete, ?_, ?_⟩
    · rw [hsame.sent, htype]
    · rw [hsame.sent]
      exact hasks

end

/-- A request that leaves its type open. -/
def askOpen (host : String) (resolver : Option String) : Request :=
  { host, accountId := "100000", resolver }

/-- Two requests get the type for the one stack that is told, and a third one, for both families,
asks for the one that is not cached. -/
theorem run_asks_one_type_each :
    let w : Cache × Unit := (halfCache, ())
    let rs := [(askOpen "b.com" (some "203.0.113.1"), true),
      (askOpen "c.com" (some "203.0.113.1"), true), (askBoth, true)]
    let j := holding ⟨1, "", "", 0⟩ rs
    Life completing.withCache j.settings rs j [] w
      ∧ AsksOneType completing rs j [] w
      ∧ stacksTold (run completing.withCache j w).2.1 = [.ipv4Only]
      ∧ (run completing.withCache j w).1.1.queries.map
        (fun q => (q.request.queryType, q.queryType)) = [(.a, .a), (.a, .a), (.both, .aaaa)] := by
  intro w rs j
  have life : Life completing.withCache j.settings rs j [] w := .holding (by decide) w
  exact ⟨life, run_asks_one_type life, by decide +kernel, by decide +kernel⟩

/-- Of two requests that leave their types open the second one has no server, which refuses the run:
the first one has its type by then, the other one is left open. -/
theorem auto_left_open :
    let w : Cache × Unit := ({}, ())
    let rs := [(askOpen "a.com" (some "203.0.113.1"), true), (askOpen "b.com" none, true)]
    let j := holding ⟨1, "", "", 0⟩ rs
    Life completing.withCache j.settings rs j [] w
      ∧ (∀ q ∈ j.queries, q.state = .pending ∧ q.request.queryType = .auto)
      ∧ stacksTold (run completing.withCache j w).2.1 = [.ipv4Only]
      ∧ ¬ ∃ type, ∀ q ∈ (run completing.withCache j w).1.1.queries,
        q.request.queryType = type := by
  intro w rs j
  refine ⟨.holding (by decide) w, by decide, by decide +kernel, ?_⟩
  rintro ⟨type, hall⟩
  have htypes : (run completing.withCache j w).1.1.queries.map (·.request.queryType)
      = [.a, .auto] := by decide +kernel
  have hmem : ∀ t ∈ [QueryType.a, .auto], t = type := by
    rw [← htypes]
    intro t ht
    obtain ⟨q, hq, rfl⟩ := List.mem_map.1 ht
    exact hall q hq
  have hsame : QueryType.a = .auto :=
    (hmem .a (by decide)).trans (hmem .auto (by decide)).symm
  cases hsame

end Job

end HttpDns
