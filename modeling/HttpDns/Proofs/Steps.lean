import HttpDns.Job
import HttpDns.Proofs.Events

/-!
# What a job can do to a query

Whatever its services answer, preparing a query is one of the cases of `Prepared`, sending it in a
round one of `Boarded` and taking in its reply one of `Landed`; each case names what it leads to
and the events it tells. The lists of a job pass through these actions element by element
(`prepare_passes`, `boardAll_passes`, `landAll_passes`, `deliverAll_passes`).
-/

namespace HttpDns

namespace Query

/-- The query with another server, other attempts left and another failed server. -/
def carry (q : Query) (server : Option String) (attempts : Nat) (failed : Option String) : Query :=
  { q with
    request := { q.request with resolver := server }
    attemptsLeft := attempts
    lastFailed := failed }

section Carry

variable (q : Query) (server : Option String) (attempts : Nat) (failed : Option String)

@[simp] theorem state_carry : (q.carry server attempts failed).state = q.state := rfl

@[simp] theorem results_carry : (q.carry server attempts failed).results = q.results := rfl

@[simp] theorem armed_carry : (q.carry server attempts failed).armed = q.armed := rfl

@[simp] theorem partialHit_carry : (q.carry server attempts failed).partialHit = q.partialHit := rfl

@[simp] theorem queryType_carry : (q.carry server attempts failed).queryType = q.queryType := rfl

@[simp] theorem attemptsLeft_carry : (q.carry server attempts failed).attemptsLeft = attempts := rfl

@[simp] theorem lastFailed_carry : (q.carry server attempts failed).lastFailed = failed := rfl

@[simp] theorem request_carry :
    (q.carry server attempts failed).request = { q.request with resolver := server } := rfl

theorem carry_self : q.carry q.request.resolver q.attemptsLeft q.lastFailed = q := rfl

end Carry

@[simp] theorem isRunnable_iff {q : Query} :
    q.isRunnable = true ↔ q.state = .pending ∧ 0 < q.attemptsLeft := by
  simp [isRunnable]

end Query

namespace Job

variable {σ : Type} (S : Services σ)

/-- The event of a callback, if there is one to be called. -/
def callback (i : Nat) (q : Query) (results : List Resolution) : List Event :=
  if q.armed then [.fired i results] else []

@[simp] theorem complete_apply (i : Nat) (q : Query) (answers : List Resolution) (w : σ) :
    complete i q answers w = (q.complete answers, callback i q (q.results ++ answers), w) := by
  unfold complete fire callback
  cases q.armed <;> rfl

theorem query?_callback {i : Nat} {q : Query} {results : List Resolution} {e : Event}
    (he : e ∈ callback i q results) : e.query? = some i := by
  unfold callback at he
  split at he
  · rw [List.mem_singleton] at he
    rw [he]
    rfl
  · simp at he

theorem firings_callback (i : Nat) (q : Query) (results : List Resolution) :
    firings (callback i q results) = if q.armed then [results] else [] := by
  unfold callback
  split <;> rfl

/-! ## Preparation -/

/-- A query gets a server: it names one, or one is drawn. -/
inductive Served (i : Nat) (q : Query) : Query → List Event → Prop
  | named (h : q.request.resolver.isSome) : Served i q q []
  | drawn (h : q.request.resolver = none) (e : Endpoint) :
      Served i q (q.serve e.addr) [.drew i (some e)]

/-- A query gets a settled type: it names one, or it gets the one that suits a stack. -/
inductive Typed (q : Query) : Query → Prop
  | given (h : q.request.queryType ≠ .auto) : Typed q q
  | settled (h : q.request.queryType = .auto) (stack : Stack) : Typed q (q.settle (.ofStack stack))

/-- A query asks the cache. -/
inductive Probed (i : Nat) (q : Query) : Query → List Event → Prop
  | skipped (h : q.usesProbe = false) : Probed i q q []
  | missed (h : q.usesProbe = true) : Probed i q q [.probed i q.ownKey q.queryType none]
  | whole (h : q.usesProbe = true) (r : Resolution) (hr : r.missing q.queryType = none) :
      Probed i q (q.complete [{ r with hitCache := true }])
        ([.probed i q.ownKey q.queryType (some r), .rotated i q.ownKey]
          ++ callback i q (q.results ++ [{ r with hitCache := true }]))
  | half (h : q.usesProbe = true) (r : Resolution) (type : QueryType)
      (hr : r.missing q.queryType = some type) :
      Probed i q { q with queryType := type, partialHit := some r }
        [.probed i q.ownKey q.queryType (some r)]

/-- A pending query is prepared, the others are passed over. -/
inductive Prepared (i : Nat) (q : Query) : Query → List Event → Prop
  | passed (h : q.state ≠ .pending) : Prepared i q q []
  | readied (h : q.state = .pending) {q₁ q₂ q' : Query} {es fs : List Event}
      (served : Served i q q₁ es) (typed : Typed q₁ q₂) (probed : Probed i q₂ q' fs) :
      Prepared i q q' (es ++ fs)

/-- A query that preparation has not come to, or for which no server could be drawn. -/
inductive Unprepared (i : Nat) (q : Query) : Query → List Event → Prop
  | unreached : Unprepared i q q []
  | refused (h : q.state = .pending) : Unprepared i q q [.drew i none]

theorem assignServer_cases (i : Nat) (q : Query) (w : σ) :
    ((assignServer S i q w).1 = none ∧ (assignServer S i q w).2.1 = [.drew i none])
      ∨ ∃ q', (assignServer S i q w).1 = some q' ∧ Served i q q' (assignServer S i q w).2.1 := by
  unfold assignServer
  cases hr : q.request.resolver with
  | some server => exact .inr ⟨q, rfl, .named (by rw [hr]; rfl)⟩
  | none =>
    cases hp : (S.pick w).1 with
    | none =>
      left
      simp [hp]
    | some e =>
      refine .inr ⟨q.serve e.addr, by simp [hp], ?_⟩
      simpa [hp] using Served.drawn hr e

theorem assignType_typed (seen : Option Stack) (q : Query) (w : σ) :
    Typed q (assignType S seen q w).1.1 := by
  unfold assignType
  split
  · rename_i h
    exact .settled h _
  · rename_i h
    exact .given h

theorem assignType_events (seen : Option Stack) (q : Query) (w : σ) :
    ∀ e ∈ (assignType S seen q w).2.1, ∃ stack, e = .detected stack := by
  unfold assignType askStack
  intro e he
  split at he
  · cases seen with
    | none => exact ⟨_, by simpa using he⟩
    | some stack => simp at he
  · simp at he

theorem probe_probed (i : Nat) (q : Query) (w : σ) :
    Probed i q (probe S i q w).1 (probe S i q w).2.1 := by
  unfold probe
  split
  · rename_i h
    cases hl : (S.lookup q.ownKey q.queryType w).1 with
    | none => simpa [hl] using Probed.missed h
    | some r =>
      cases hm : r.missing q.queryType with
      | none => simpa [hl, hm] using Probed.whole h r hm
      | some type => simpa [hl, hm] using Probed.half h r type hm
  · rename_i h
    exact .skipped (by simpa using h)

theorem Served.query? {i : Nat} {q q' : Query} {es : List Event} (h : Served i q q' es) :
    ∀ e ∈ es, e.query? = some i := by
  cases h with
  | named => simp
  | drawn _ e =>
    intro e' he
    rw [List.mem_singleton.1 he]
    rfl

theorem Probed.query? {i : Nat} {q q' : Query} {es : List Event} (h : Probed i q q' es) :
    ∀ e ∈ es, e.query? = some i := by
  intro e he
  cases h with
  | skipped => simp at he
  | missed | half =>
    rw [List.mem_singleton.1 he]
    rfl
  | whole =>
    rcases List.mem_append.1 he with he | he
    · simp only [List.mem_cons, List.not_mem_nil, or_false] at he
      rcases he with rfl | rfl <;> rfl
    · exact query?_callback he

theorem prepare_served {i : Nat} {q q₁ : Query} {es : List Event} {w u : σ}
    (hq : q.state = .pending) (hs : assignServer S i q w = (some q₁, es, u))
    (seen : Option Stack) (rest : List Query) :
    prepare S i seen (q :: rest) w =
      let a := assignType S seen q₁ u
      let p := probe S i a.1.1 a.2.2
      let r := prepare S (i + 1) a.1.2 rest p.2.2
      ((p.1 :: r.1.1, r.1.2), es ++ (a.2.1 ++ (p.2.1 ++ r.2.1)), r.2.2) := by
  simp [prepare, hq, hs]

theorem prepare_passed {q : Query} (hq : q.state ≠ .pending) (i : Nat) (seen : Option Stack)
    (rest : List Query) (w : σ) : prepare S i seen (q :: rest) w =
      let r := prepare S (i + 1) seen rest w
      ((q :: r.1.1, r.1.2), r.2.1, r.2.2) := by
  simp [prepare, hq]

/-- How preparation goes on from its first query: it passes over one that is settled, stops at one
for which no server can be drawn and readies any other one. -/
inductive Advances (i : Nat) (seen : Option Stack) (q : Query) (rest : List Query) (w : σ) :
    (List Query × Bool) × List Event × σ → Prop
  | passed (h : q.state ≠ .pending) :
      Advances i seen q rest w
        (let r := prepare S (i + 1) seen rest w
        ((q :: r.1.1, r.1.2), r.2.1, r.2.2))
  | refused (h : q.state = .pending) (u : σ) :
      Advances i seen q rest w ((q :: rest, false), [.drew i none], u)
  | readied (h : q.state = .pending) {q₁ : Query} {es : List Event} (served : Served i q q₁ es)
      (u : σ) :
      Advances i seen q rest w
        (let a := assignType S seen q₁ u
        let p := probe S i a.1.1 a.2.2
        let r := prepare S (i + 1) a.1.2 rest p.2.2
        ((p.1 :: r.1.1, r.1.2), es ++ (a.2.1 ++ (p.2.1 ++ r.2.1)), r.2.2))

theorem prepare_advances (i : Nat) (seen : Option Stack) (q : Query) (rest : List Query) (w : σ) :
    Advances S i seen q rest w (prepare S i seen (q :: rest) w) := by
  by_cases hq : q.state = .pending
  · have hcases := assignServer_cases S i q w
    rcases hs : assignServer S i q w with ⟨_ | q₁, es, u⟩
    · obtain rfl : es = [.drew i none] := by simpa [hs] using hcases
      have hprepare : prepare S i seen (q :: rest) w = ((q :: rest, false), [.drew i none], u) := by
        simp [prepare, hq, hs]
      rw [hprepare]
      exact .refused hq u
    · have hserved : Served i q q₁ es := by simpa [hs] using hcases
      rw [prepare_served S hq hs]
      exact .readied hq hserved u
  · rw [prepare_passed S hq]
    exact .passed hq

/-- Preparation stops at a query for which no server can be drawn; any other query is prepared by
events about it, beside what the detector answered, and the rest follows. -/
theorem prepare_cons (i : Nat) (seen : Option Stack) (q : Query) (rest : List Query) (w : σ) :
    (q.state = .pending ∧ ∃ w',
        prepare S i seen (q :: rest) w = ((q :: rest, false), [.drew i none], w'))
      ∨ ∃ q' es seen' w', Prepared i q q' (about i es)
        ∧ (∀ e ∈ es, e.query? = some i ∨ ∃ stack, e = .detected stack)
        ∧ prepare S i seen (q :: rest) w =
          ((q' :: (prepare S (i + 1) seen' rest w').1.1, (prepare S (i + 1) seen' rest w').1.2),
            es ++ (prepare S (i + 1) seen' rest w').2.1,
            (prepare S (i + 1) seen' rest w').2.2) := by
  have hadvances := prepare_advances S i seen q rest w
  generalize prepare S i seen (q :: rest) w = out at hadvances
  cases hadvances with
  | passed hq => exact .inr ⟨q, [], seen, w, .passed hq, by simp, rfl⟩
  | refused hq u => exact .inl ⟨hq, u, rfl⟩
  | @readied hq q₁ es hserved u =>
    have htyped := assignType_typed S seen q₁ u
    have hdet := assignType_events S seen q₁ u
    dsimp only
    generalize assignType S seen q₁ u = a at htyped hdet ⊢
    have hprobed := probe_probed S i a.1.1 a.2.2
    have hdet' : about i a.2.1 = [] := by
      refine about_eq_nil fun e he => ?_
      obtain ⟨stack, rfl⟩ := hdet e he
      simp [Event.query?]
    refine .inr ⟨(probe S i a.1.1 a.2.2).1, es ++ (a.2.1 ++ (probe S i a.1.1 a.2.2).2.1), a.1.2,
      (probe S i a.1.1 a.2.2).2.2, ?_, ?_, by simp⟩
    · rw [about_append, about_append, hdet', List.nil_append, about_eq_self hserved.query?,
        about_eq_self hprobed.query?]
      exact .readied hq hserved htyped hprobed
    · intro e he
      simp only [List.mem_append] at he
      rcases he with he | he | he
      · exact .inl (hserved.query? e he)
      · exact .inr (hdet e he)
      · exact .inl (hprobed.query? e he)

/-- Every query is prepared, unless preparation stops at one for which no server can be drawn. -/
theorem prepare_passes : ∀ (i : Nat) (seen : Option Stack) (qs : List Query) (w : σ),
    Passes (fun j q q' es => Prepared j q q' es
        ∨ (prepare S i seen qs w).1.2 = false ∧ Unprepared j q q' es)
      i qs (prepare S i seen qs w).1.1 (prepare S i seen qs w).2.1
  | _, _, [], _ => .nil
  | i, seen, q :: rest, w => by
    rcases prepare_cons S i seen q rest w with ⟨hq, w', h⟩ | ⟨q', es, seen', w', hp, hown, h⟩
    · rw [h]
      have hself : Unprepared i q q (about i [.drew i none]) := by
        rw [about_eq_self (by simp [Event.query?])]
        exact .refused hq
      have hrest := (Passes.of_refl (fun _ _ => .unreached) (i + 1) rest).cons hself
        fun k hk => about_eq_nil (by simpa [Event.query?] using hk.symm)
      exact hrest.mono fun _ _ _ _ hu => .inr ⟨rfl, hu⟩
    · rw [h]
      refine (prepare_passes (i + 1) seen' rest w').cons (.inl hp) fun k hk => ?_
      refine about_eq_nil fun e he => ?_
      rcases hown e he with he | ⟨stack, rfl⟩
      · rw [he]
        simpa using hk.symm
      · simp [Event.query?]

/-! ## Boarding -/

/-- A query that may be sent takes its seat in a round, moved to another server if its last
exchange failed; without a server for it, it is never sent again. -/
inductive Boarded (settings : JobSettings) (now round i : Nat) (q : Query) :
    Seat → List Event → Prop
  | passed (h : q.isRunnable = false) :
      Boarded settings now round i q { index := i, query := q } []
  | kept (h : q.isRunnable = true) (hf : failedBefore round q = none) :
      Boarded settings now round i q
        { index := i
          query := q.carry q.request.resolver (q.attemptsLeft - 1) q.lastFailed
          out := outgoing S settings now
            (q.carry q.request.resolver (q.attemptsLeft - 1) q.lastFailed) } []
  | stranded (h : q.isRunnable = true) {failed : String} (hf : failedBefore round q = some failed) :
      Boarded settings now round i q
        { index := i, query := q.carry q.request.resolver 0 none } [.switched i failed none]
  | moved (h : q.isRunnable = true) {failed : String} (hf : failedBefore round q = some failed)
      (e : Endpoint) :
      Boarded settings now round i q
        { index := i
          query := q.carry (some e.addr) (q.attemptsLeft - 1) none
          out := outgoing S settings now (q.carry (some e.addr) (q.attemptsLeft - 1) none) }
        [.switched i failed (some e)]

theorem board_boarded (settings : JobSettings) (now round i : Nat) (q : Query) (w : σ) :
    Boarded S settings now round i q (board S settings now round i q w).1
      (board S settings now round i q w).2.1 := by
  unfold board switchServer
  cases hq : q.isRunnable with
  | false => exact .passed hq
  | true =>
    cases hf : failedBefore round q with
    | none => exact .kept hq hf
    | some failed =>
      cases hp : (S.pickOther failed w).1 with
      | none =>
        simp only [if_true, Action.bind_apply, Action.call_apply, Action.tell_apply,
          Action.pure_apply, hp]
        exact .stranded hq hf
      | some e =>
        simp only [if_true, Action.bind_apply, Action.call_apply, Action.tell_apply,
          Action.pure_apply, hp]
        exact .moved hq hf e

namespace Boarded

variable {S} {settings : JobSettings} {now round i : Nat} {q : Query} {seat : Seat}
  {es : List Event}

theorem index_eq (h : Boarded S settings now round i q seat es) : seat.index = i := by
  cases h <;> rfl

theorem query?_eq (h : Boarded S settings now round i q seat es) :
    ∀ e ∈ es, e.query? = some i := by
  cases h with
  | passed | kept => simp
  | stranded | moved =>
    intro e he
    rw [List.mem_singleton.1 he]
    rfl

theorem firings_eq (h : Boarded S settings now round i q seat es) : firings es = [] := by
  cases h <;> rfl

theorem carry_eq (h : Boarded S settings now round i q seat es) :
    ∃ server attempts failed, seat.query = q.carry server attempts failed := by
  cases h with
  | passed => exact ⟨_, _, _, q.carry_self.symm⟩
  | kept | stranded | moved => exact ⟨_, _, _, rfl⟩

theorem of_out (h : Boarded S settings now round i q seat es) {out : Outgoing}
    (ho : seat.out = some out) :
    q.isRunnable = true ∧ outgoing S settings now seat.query = some out := by
  cases h with
  | passed | stranded => simp at ho
  | kept hq | moved hq => exact ⟨hq, ho⟩

theorem attemptsLeft_lt (h : Boarded S settings now round i q seat es)
    (hs : seat.query.isRunnable = true) :
    q.isRunnable = true ∧ seat.query.attemptsLeft < q.attemptsLeft := by
  cases h with
  | passed hq => exact absurd hs (by simp [hq])
  | stranded => simp at hs
  | kept hq | moved hq =>
    refine ⟨hq, ?_⟩
    rw [Query.isRunnable_iff] at hq
    simp only [Query.attemptsLeft_carry]
    omega

end Boarded

theorem boardAll_passes (settings : JobSettings) (now round : Nat) :
    ∀ (i : Nat) (qs : List Query) (w : σ),
      Passes (Boarded S settings now round) i qs (boardAll S settings now round i qs w).1
        (boardAll S settings now round i qs w).2.1
  | _, [], _ => .nil
  | i, q :: rest, w => by
    have hb := board_boarded S settings now round i q w
    have hrest := boardAll_passes settings now round (i + 1) rest
      (board S settings now round i q w).2.2
    have h := hrest.cons (by rw [about_eq_self hb.query?_eq]; exact hb)
      fun k hk => about_eq_nil fun e he => by rw [hb.query?_eq e he]; simpa using hk.symm
    simpa [boardAll] using h

/-! ## Landing -/

/-- A reply brings a query the answers with an address that its body holds, or its exchange has
failed. -/
inductive Landed (i : Nat) (q : Query) (out : Outgoing) (reply : Reply) :
    Landing → List Event → Prop
  | answered {response : Response} (hr : reply = .ok response) (hok : response.isOk = true) (w : σ)
      (hne : ((readBody S out.request response.body w).1.filter (!·.isEmpty)) ≠ []) :
      Landed i q out reply
        { index := i, query := q
          outcome := .answered out
            ((readBody S out.request response.body w).1.filter (!·.isEmpty)) }
        [.sampled i out.exchange.server response.rtt]
  | failed (h : ∀ response, reply = .ok response → response.isOk = true →
        ∃ w, (readBody S out.request response.body w).1.filter (!·.isEmpty) = []) :
      Landed i q out reply
        { index := i
          query := q.carry q.request.resolver q.attemptsLeft (some out.exchange.server)
          outcome := .failed out }
        [.sampled i out.exchange.server (penalty out.request)]

theorem readBody_events (r : Request) (body : String) (w : σ) :
    (readBody S r body w).2.1 = [] := by
  unfold readBody
  split
  · rfl
  · cases h : (S.readSingle body w).1 <;> simp [h]

theorem land_landed (i : Nat) (q : Query) (out : Outgoing) (reply : Reply) (w : σ) :
    Landed S i q out reply (land S i q out reply w).1 (land S i q out reply w).2.1 := by
  unfold land usable report
  cases reply with
  | error fault => exact .failed (by simp)
  | ok response =>
    cases hok : response.isOk with
    | false =>
      simp only [hok, Bool.false_eq_true, if_false]
      refine .failed fun response' hr hok' => ?_
      cases hr
      rw [hok] at hok'
      cases hok'
    | true =>
      have hes := readBody_events S out.request response.body w
      cases ha : (readBody S out.request response.body w).1.filter (!·.isEmpty) with
      | nil =>
        simp only [hok, if_true, Action.bind_apply, Action.pure_apply, ha, hes]
        refine .failed fun response' hr _ => ?_
        cases hr
        exact ⟨w, ha⟩
      | cons a rest =>
        have hne : (readBody S out.request response.body w).1.filter (!·.isEmpty) ≠ [] := by
          simp [ha]
        have h : Landed S i q out (.ok response) _ _ := .answered rfl hok w hne
        simp only [hok, if_true, Action.bind_apply, Action.pure_apply, ha, hes]
        rw [ha] at h
        exact h

namespace Landed

variable {S} {i : Nat} {q : Query} {out : Outgoing} {reply : Reply} {l : Landing} {es : List Event}

theorem index_eq (h : Landed S i q out reply l es) : l.index = i := by
  cases h <;> rfl

theorem query?_eq (h : Landed S i q out reply l es) : ∀ e ∈ es, e.query? = some i := by
  cases h <;>
  · intro e he
    rw [List.mem_singleton.1 he]
    rfl

theorem firings_eq (h : Landed S i q out reply l es) : firings es = [] := by
  cases h <;> rfl

end Landed

/-- What went out with the replies to it. -/
abbrev Traffic := List ((Nat × Exchange) × Reply)

/-- A seat after the replies: nothing was sent for it, or its own reply has landed. -/
inductive Returned (traffic : Traffic) (i : Nat) (seat : Seat) : Landing → List Event → Prop
  | idle (h : seat.out = none) :
      Returned traffic i seat { index := i, query := seat.query, outcome := .idle } []
  | landed {out : Outgoing} (h : seat.out = some out) {reply : Reply}
      (hr : ((i, out.exchange), reply) ∈ traffic) {l : Landing} {es : List Event}
      (hl : Landed S i seat.query out reply l es) : Returned traffic i seat l es

namespace Returned

variable {S} {traffic : Traffic} {i : Nat} {seat : Seat} {l : Landing} {es : List Event}

theorem index_eq (h : Returned S traffic i seat l es) : l.index = i := by
  cases h with
  | idle => rfl
  | landed _ _ hl => exact hl.index_eq

theorem firings_eq (h : Returned S traffic i seat l es) : firings es = [] := by
  cases h with
  | idle => rfl
  | landed _ _ hl => exact hl.firings_eq

theorem carry_eq (h : Returned S traffic i seat l es) :
    ∃ failed, l.query = seat.query.carry seat.query.request.resolver seat.query.attemptsLeft
      failed := by
  cases h with
  | idle => exact ⟨_, seat.query.carry_self.symm⟩
  | landed _ _ hl =>
    cases hl with
    | answered => exact ⟨_, seat.query.carry_self.symm⟩
    | failed => exact ⟨_, rfl⟩

theorem cons (h : Returned S traffic i seat l es) (first : (Nat × Exchange) × Reply) :
    Returned S (first :: traffic) i seat l es := by
  cases h with
  | idle ho => exact .idle ho
  | landed ho hr hl => exact .landed ho (List.mem_cons_of_mem _ hr) hl

end Returned

theorem manifest_cons_none {seat : Seat} (seats : List Seat) (h : seat.out = none) :
    manifest (seat :: seats) = manifest seats := by
  simp [manifest, h]

theorem manifest_cons_some {seat : Seat} (seats : List Seat) {out : Outgoing}
    (h : seat.out = some out) :
    manifest (seat :: seats) = (seat.index, out.exchange) :: manifest seats := by
  simp [manifest, h]

theorem batchOf_eq (seats : List Seat) :
    batchOf seats = (seats.filterMap (·.out)).map (·.exchange) := by
  rw [batchOf, manifest, List.map_filterMap, List.map_filterMap]
  simp only [Option.map_map]
  rfl

/-- Where there is a reply for everything that was sent, every seat gets its own. -/
theorem landAll_passes : ∀ (i : Nat) (seats : List Seat) (replies : List Reply) (w : σ),
    (∀ {k seat}, seats[k]? = some seat → seat.index = i + k) →
    (manifest seats).length ≤ replies.length →
      Passes (Returned S ((manifest seats).zip replies)) i seats (landAll S seats replies w).1
        (landAll S seats replies w).2.1
  | _, [], _, _, _, _ => .nil
  | i, seat :: seats, replies, w, hi, hlen => by
    have hi₀ : seat.index = i := hi (k := 0) rfl
    have hi' : ∀ {k s}, seats[k]? = some s → s.index = i + 1 + k := fun {k s} hs => by
      rw [hi (k := k + 1) (by simpa using hs)]
      omega
    cases ho : seat.out with
    | none =>
      rw [manifest_cons_none seats ho] at hlen ⊢
      have hrest := landAll_passes (i + 1) seats replies w hi' hlen
      have hidle : Returned S ((manifest seats).zip replies) i seat _ (about i []) := .idle ho
      have h := hrest.cons hidle fun _ _ => rfl
      simpa [landAll, ho, hi₀] using h
    | some out =>
      rw [manifest_cons_some seats ho] at hlen ⊢
      cases replies with
      | nil => simp at hlen
      | cons reply replies =>
        have hl := land_landed S i seat.query out reply w
        have hrest := landAll_passes (i + 1) seats replies (land S i seat.query out reply w).2.2
          hi' (by simpa using hlen)
        have hrest' := hrest.mono fun _ _ _ _ hr => hr.cons ((seat.index, out.exchange), reply)
        have hown : Returned S
            (((seat.index, out.exchange) :: manifest seats).zip (reply :: replies)) i seat
            (land S i seat.query out reply w).1
            (about i (land S i seat.query out reply w).2.1) := by
          rw [about_eq_self hl.query?_eq]
          exact .landed ho (by rw [hi₀]; exact List.mem_cons_self) hl
        have h := hrest'.cons hown
          fun k hk => about_eq_nil fun e he => by rw [hl.query?_eq e he]; simpa using hk.symm
        simpa [landAll, ho, hi₀] using h

/-! ## Delivery -/

/-- The query after a round. -/
def Landing.after (merged : List Resolution) (l : Landing) : Query :=
  match l.outcome with
  | .idle | .failed _ => l.query
  | .answered _ answers =>
    { l.query with partialHit := none }.complete (share merged l.query answers)

/-- What is told of a query at the end of a round. -/
def Landing.told (merged : List Resolution) (l : Landing) : List Event :=
  match l.outcome with
  | .idle | .failed _ => []
  | .answered _ answers =>
    let results := share merged l.query answers
    (if l.query.request.usingCache then results.map (.stored l.index) else [])
      ++ callback l.index l.query (l.query.results ++ results)

theorem Landing.after_of_answered {merged : List Resolution} {l : Landing} {out : Outgoing}
    {answers : List Answer} (ho : l.outcome = .answered out answers) :
    l.after merged
      = { l.query with partialHit := none }.complete (share merged l.query answers) := by
  unfold after
  rw [ho]

theorem Landing.after_of_not_answered {merged : List Resolution} {l : Landing}
    (ho : ∀ out answers, l.outcome ≠ .answered out answers) : l.after merged = l.query := by
  unfold after
  cases h : l.outcome with
  | idle | failed => rfl
  | answered out answers => exact absurd h (ho out answers)

theorem storeAll_events (i : Nat) : ∀ (rs : List Resolution) (w : σ),
    (storeAll S i rs w).2.1 = rs.map (.stored i)
  | [], _ => rfl
  | r :: rest, w => by
    simp [storeAll, storeAll_events i rest]

theorem deliver_apply (merged : List Resolution) (l : Landing) (w : σ) :
    (deliver S merged l w).1 = l.after merged ∧ (deliver S merged l w).2.1 = l.told merged := by
  unfold deliver Landing.after Landing.told
  cases l.outcome with
  | idle | failed => exact ⟨rfl, rfl⟩
  | answered out answers =>
    cases l.query.request.usingCache with
    | false => simp [callback]
    | true => simp [storeAll_events, callback]

theorem deliverAll_apply (merged : List Resolution) : ∀ (ls : List Landing) (w : σ),
    (deliverAll S merged ls w).1 = ls.map (Landing.after merged)
      ∧ (deliverAll S merged ls w).2.1 = ls.flatMap (Landing.told merged)
  | [], _ => ⟨rfl, rfl⟩
  | l :: rest, w => by
    obtain ⟨h₁, h₂⟩ := deliver_apply S merged l w
    obtain ⟨ih₁, ih₂⟩ := deliverAll_apply merged rest (deliver S merged l w).2.2
    simp [deliverAll, h₁, h₂, ih₁, ih₂]

theorem Landing.query?_told {merged : List Resolution} {l : Landing} :
    ∀ e ∈ l.told merged, e.query? = some l.index := by
  intro e he
  unfold told at he
  split at he
  · simp at he
  · simp at he
  · rcases List.mem_append.1 he with he | he
    · split at he
      · obtain ⟨r, -, rfl⟩ := List.mem_map.1 he
        rfl
      · simp at he
    · exact query?_callback he

theorem landings_pass (merged : List Resolution) : ∀ (i : Nat) (ls : List Landing),
    (∀ {k l}, ls[k]? = some l → l.index = i + k) →
      Passes (fun _ l q es => q = l.after merged ∧ es = l.told merged) i ls
        (ls.map (Landing.after merged)) (ls.flatMap (Landing.told merged))
  | _, [], _ => .nil
  | i, l :: rest, hi => by
    have hi₀ : l.index = i := hi (k := 0) rfl
    have hown : ∀ e ∈ l.told merged, e.query? = some i := hi₀ ▸ Landing.query?_told
    refine (landings_pass merged (i + 1) rest fun {k l'} hl => ?_).cons
      ⟨rfl, about_eq_self hown⟩ fun k hk => about_eq_nil fun e he => ?_
    · rw [hi (k := k + 1) (by simpa using hl)]
      omega
    · rw [hown e he]
      simpa using hk.symm

theorem deliverAll_passes (merged : List Resolution) (i : Nat) (ls : List Landing) (w : σ)
    (hi : ∀ {k l}, ls[k]? = some l → l.index = i + k) :
    Passes (fun _ l q es => q = l.after merged ∧ es = l.told merged) i ls
      (deliverAll S merged ls w).1 (deliverAll S merged ls w).2.1 := by
  obtain ⟨h₁, h₂⟩ := deliverAll_apply S merged ls w
  rw [h₁, h₂]
  exact landings_pass merged i ls hi

end Job

end HttpDns
