import HttpDns.Client
import HttpDns.Proofs.Mirroring

/-!
# Services in accord

Two services that answer alike in everything but the system resolver cannot be told apart by a
lookup: from related states it comes to the same on both sides, a bootstrap of its own included
(`resolveHost_mirrors`). A service beside another state is in accord with the service itself
(`accords_beside`).
-/

namespace HttpDns

variable {σ σ' τ τ' α β : Type}

theorem Mirrors.beside {rel : τ → τ' → Prop} {x : Action τ β} {y : Action τ' β}
    (h : Mirrors rel x y) : Mirrors (Services.Alongside α rel) x.beside y.beside := by
  rintro ⟨a, w⟩ ⟨_, w'⟩ ⟨rfl, hw⟩
  obtain ⟨hvalue, hevents, hstate⟩ := h w w' hw
  exact ⟨hvalue, hevents, rfl, hstate⟩

namespace Services

/-- In related states the services answer alike and stay related, whatever they are asked but the
addresses that the system knows for a host. -/
structure Accords (S : Services σ) (S' : Services σ') (rel : σ → σ' → Prop) : Prop
    extends S.Agrees S' rel where
  replies : ∀ batch {w w'}, rel w w' → (S.sendAll batch w).1 = (S'.sendAll batch w').1
  readSingle : ∀ body {w w'}, rel w w' →
    (S.readSingle body w).1 = (S'.readSingle body w').1
      ∧ rel (S.readSingle body w).2 (S'.readSingle body w').2
  readMulti : ∀ body {w w'}, rel w w' → (S.readMulti body w).1 = (S'.readMulti body w').1
    ∧ rel (S.readMulti body w).2 (S'.readMulti body w').2
  readSchedule : ∀ body {w w'}, rel w w' →
    (S.readSchedule body w).1 = (S'.readSchedule body w').1
      ∧ rel (S.readSchedule body w).2 (S'.readSchedule body w').2
  send : ∀ e {w w'}, rel w w' → (S.send e w).1 = (S'.send e w').1
    ∧ rel (S.send e w).2 (S'.send e w').2
  chance : ∀ n {w w'}, rel w w' → (S.chance n w).1 = (S'.chance n w').1
    ∧ rel (S.chance n w).2 (S'.chance n w').2
  nonce : ∀ {w w'}, rel w w' → (S.nonce w).1 = (S'.nonce w').1 ∧ rel (S.nonce w).2 (S'.nonce w').2

namespace Accords

variable {S : Services τ} {S' : Services τ'} {rel : τ → τ' → Prop}

theorem beside (h : S.Accords S' rel) :
    (Services.beside (α := α) S).Accords (Services.beside S') (Alongside α rel) where
  toAgrees := h.toAgrees.beside
  replies batch _ _ hw := h.replies batch hw.2
  readSingle body _ _ hw := ⟨(h.readSingle body hw.2).1, hw.1, (h.readSingle body hw.2).2⟩
  readMulti body _ _ hw := ⟨(h.readMulti body hw.2).1, hw.1, (h.readMulti body hw.2).2⟩
  readSchedule body _ _ hw := ⟨(h.readSchedule body hw.2).1, hw.1, (h.readSchedule body hw.2).2⟩
  send e _ _ hw := ⟨(h.send e hw.2).1, hw.1, (h.send e hw.2).2⟩
  chance n _ _ hw := ⟨(h.chance n hw.2).1, hw.1, (h.chance n hw.2).2⟩
  nonce hw := ⟨(h.nonce hw.2).1, hw.1, (h.nonce hw.2).2⟩

theorem withCache (h : S.Accords S' rel) :
    S.withCache.Accords S'.withCache (Alongside Cache rel) :=
  { h.beside with toAgrees := h.toAgrees.withCache }

theorem withPool (h : S.Accords S' rel) :
    S.withPool.Accords S'.withPool (Alongside Pool rel) :=
  { h.beside with toAgrees := h.toAgrees.withPool }

end Accords

/-- What services beside another state leave it alone. -/
theorem accords_beside (S : Services τ) (a : α) :
    (Services.beside S).Accords S fun s w => s = (a, w) := by
  constructor
  · constructor <;> intros <;> subst_vars <;> simp [Services.beside]
  all_goals intros; subst_vars; simp [Services.beside]

end Services

/-! ## Jobs -/

namespace Job

variable {S : Services σ} {S' : Services σ'} {rel : σ → σ' → Prop}

theorem readBody_mirrors (h : S.Accords S' rel) (r : Request) (body : String) :
    Mirrors rel (readBody S r body) (readBody S' r body) := by
  refine .ite (.call (h.readMulti body)) (.bind (.call (h.readSingle body)) fun a => ?_)
  cases a <;> exact .pure _

theorem usable_mirrors (h : S.Accords S' rel) (r : Request) (reply : Reply) :
    Mirrors rel (usable S r reply) (usable S' r reply) := by
  cases reply with
  | error => exact .pure _
  | ok response =>
    refine .ite (.bind (readBody_mirrors h r response.body) fun answers => ?_) (.pure _)
    split <;> exact .pure _

theorem land_accords (h : S.Accords S' rel) (i : Nat) (q : Query) (out : Outgoing)
    (reply : Reply) : Mirrors rel (land S i q out reply) (land S' i q out reply) := by
  refine .bind (usable_mirrors h out.request reply) fun got => ?_
  cases got <;> exact .bind (report_mirrors h.toAgrees _ _ _) fun _ => .pure _

theorem landAll_accords (h : S.Accords S' rel) : ∀ (seats : List Seat) (replies : List Reply),
    Mirrors rel (landAll S seats replies) (landAll S' seats replies)
  | [], _ => .pure _
  | seat :: seats, replies => by
    cases ho : seat.out with
    | none =>
      simp only [landAll, ho]
      exact .bind (landAll_accords h seats replies) fun _ => .pure _
    | some out =>
      cases replies with
      | nil =>
        simp only [landAll, ho]
        exact .bind (landAll_accords h seats []) fun _ => .pure _
      | cons reply replies =>
        simp only [landAll, ho]
        exact .bind (land_accords h _ _ _ reply) fun _ =>
          .bind (landAll_accords h seats replies) fun _ => .pure _

theorem receive_accords (h : S.Accords S' rel) (seats : List Seat) (replies : List Reply) :
    Mirrors rel (receive S seats replies) (receive S' seats replies) :=
  .bind (.read h.instant) fun _ => .bind (landAll_accords h seats replies) fun _ =>
    deliverAll_mirrors h.toAgrees _ _

theorem exchange_mirrors (h : S.Accords S' rel) (round : Nat) (seats : List Seat) :
    Mirrors rel (exchange S round seats) (exchange S' round seats) :=
  .bind (.tell _) fun _ =>
    .bind (.call fun hw => ⟨h.replies _ hw, h.sendAll _ hw⟩) fun _ => .pure _

theorem rounds_mirrors (h : S.Accords S' rel) (settings : JobSettings) :
    ∀ (most round : Nat) (qs : List Query),
      Mirrors rel (rounds S settings most round qs) (rounds S' settings most round qs)
  | 0, _, _ => .pure _
  | most + 1, round, qs => by
    unfold rounds
    refine .bind (launch_mirrors h.toAgrees settings round qs) fun seats => ?_
    refine .ite (.pure _) (.bind (exchange_mirrors h round seats) fun replies => ?_)
    exact .bind (receive_accords h seats replies) fun _ => rounds_mirrors h settings most _ _

theorem run_mirrors (h : S.Accords S' rel) (j : Job) : Mirrors rel (run S j) (run S' j) := by
  unfold run
  refine .bind (prepare_mirrors h.toAgrees 0 none j.queries) fun _ => ?_
  exact .ite (.bind (rounds_mirrors h _ _ _ _) fun _ => .pure _) (.pure _)

end Job

/-! ## Bootstraps -/

namespace Bootstrap

variable {S : Services τ} {S' : Services τ'} {rel : τ → τ' → Prop} (c : ClientConfig)

theorem order_mirrors (h : S.Accords S' rel) (boot : Roster) :
    Mirrors rel (order S boot) (order S' boot) := by
  refine .bind (.bind (.call h.stack) fun _ => .bind (.tell _) fun _ => .pure _) fun stack => ?_
  exact .ite (.pure _) (.bind (.call (h.chance _)) fun _ => .pure _)

theorem ask_mirrors (h : S.Accords S' rel) (server : String) :
    Mirrors rel (ask S c server) (ask S' c server) := by
  refine .bind (.bind (.read h.seconds) fun _ => .bind (.call h.nonce) fun _ => ?_) fun e =>
    .bind (.tell _) fun _ => .call (h.send e)
  rw [h.signer]
  exact .pure _

theorem listed_mirrors (h : S.Accords S' rel) (reply : Reply) :
    Mirrors rel (listed S reply) (listed S' reply) := by
  cases reply with
  | error => exact .pure _
  | ok response =>
    exact .ite (.bind (.call (h.readSchedule _)) fun _ => .pure _) (.pure _)

theorem walk_mirrors (h : S.Accords S' rel) : ∀ servers : List String,
    Mirrors rel (walk S c servers) (walk S' c servers)
  | [] => .pure _
  | server :: rest => by
    refine .bind (ask_mirrors c h server) fun reply =>
      .bind (listed_mirrors h reply) fun offer => ?_
    cases offer with
    | none => exact walk_mirrors h rest
    | some => exact .pure _

theorem bootstrap_mirrors (h : S.Accords S' rel) (boot : Roster) :
    Mirrors (Services.Alongside Pool rel) (bootstrap S c boot) (bootstrap S' c boot) := by
  refine .bind (order_mirrors h boot).beside fun servers =>
    .bind (walk_mirrors c h servers).beside fun offer => ?_
  cases offer with
  | none => exact .pure _
  | some roster =>
    refine .bind (.effect ?_) fun _ => .pure _
    rintro ⟨p, w⟩ ⟨_, w'⟩ ⟨rfl, hw⟩
    exact ⟨rfl, hw⟩

end Bootstrap

/-! ## Lookups -/

namespace Client

variable {S : Services τ} {S' : Services τ'} {rel : τ → τ' → Prop}

/-- The same cache, pool and boot servers, over related states of the services. -/
abbrev Level (rel : τ → τ' → Prop) : State τ → State τ' → Prop :=
  Services.Alongside Cache (Services.Alongside Pool (Services.Alongside Roster rel))

theorem accords_services (h : S.Accords S' rel) :
    (services S).Accords (services S') (Level rel) :=
  h.beside.withPool.withCache

theorem bootstrap_mirrors (h : S.Accords S' rel) (c : Client) :
    Mirrors (Level rel) (bootstrap S c) (bootstrap S' c) := by
  refine .bind (.read fun hw => hw.2.2.1) fun boot =>
    .bind (Bootstrap.bootstrap_mirrors c.config h.beside boot).beside fun outcome => ?_
  cases outcome with
  | error => exact .pure _
  | ok known =>
    refine .bind (.effect ?_) fun _ => .pure _
    rintro ⟨cache, pool, boot, w⟩ ⟨_, _, _, w'⟩ ⟨rfl, rfl, rfl, hw⟩
    exact ⟨rfl, rfl, rfl, hw⟩

theorem ensureServers_mirrors (h : S.Accords S' rel) (c : Client) :
    Mirrors (Level rel) (ensureServers S c) (ensureServers S' c) :=
  .bind (.read fun hw => congrArg Pool.isEmpty hw.2.1) fun _ =>
    .ite (.bind (bootstrap_mirrors h c) fun _ => .pure _) (.pure _)

theorem resolve_mirrors (h : S.Accords S' rel) (c : Client) (r : Request) :
    Mirrors (Level rel) (resolve S c r) (resolve S' c r) := by
  unfold resolve
  split
  · exact .pure _
  · exact .bind (ensureServers_mirrors h c) fun _ =>
      .bind (Job.run_mirrors (accords_services h) _) fun _ => .pure _

/-- A lookup comes to the same over services in accord. -/
theorem resolveHost_mirrors (h : S.Accords S' rel) (c : Client) (host : String) (q : QueryType) :
    Mirrors (Level rel) (resolveHost S c host q) (resolveHost S' c host q) :=
  resolve_mirrors h c (c.request host q)

end Client

end HttpDns
