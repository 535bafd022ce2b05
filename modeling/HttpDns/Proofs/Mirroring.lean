import HttpDns.Proofs.Rounds
import HttpDns.Services.Layer

/-!
# Two runs side by side

Services over different states can be told apart by their answers only. Where two of them answer
alike in related states and keep the states related, preparing a job, taking the seats of a round
and handing out its answers come to the same on both sides, with the same events. Of their
transports nothing is assumed but that the states stay related: what they bring is left to
`HttpDns.Proofs.Failures`.
-/

namespace HttpDns

variable {σ σ' τ τ' α β : Type}

/-- What an action came to on two sides: the same value and events, and related states. -/
structure Same (rel : σ → σ' → Prop) (x : α × List Event × σ) (y : α × List Event × σ') :
    Prop where
  value : x.1 = y.1
  events : x.2.1 = y.2.1
  state : rel x.2.2 y.2.2

/-- Two actions come to the same from related states. -/
def Mirrors (rel : σ → σ' → Prop) (x : Action σ α) (y : Action σ' α) : Prop :=
  ∀ w w', rel w w' → Same rel (x w) (y w')

namespace Mirrors

variable {rel : σ → σ' → Prop}

theorem pure (a : α) : Mirrors rel (pure a : Action σ α) (pure a : Action σ' α) :=
  fun _ _ hw => ⟨rfl, rfl, hw⟩

theorem bind {x : Action σ α} {y : Action σ' α} {f : α → Action σ β} {g : α → Action σ' β}
    (hx : Mirrors rel x y) (hf : ∀ a, Mirrors rel (f a) (g a)) :
    Mirrors rel (x >>= f) (y >>= g) := by
  intro w w' hw
  obtain ⟨hvalue, hevents, hstate⟩ := hx w w' hw
  obtain ⟨hvalue', hevents', hstate'⟩ := hf (x w).1 _ _ hstate
  simp only [Action.bind_apply, ← hvalue, ← hevents]
  exact ⟨hvalue', congrArg _ hevents', hstate'⟩

theorem tell (e : Event) : Mirrors rel (Action.tell e) (Action.tell e) :=
  fun _ _ hw => ⟨rfl, rfl, hw⟩

theorem call {f : σ → α × σ} {g : σ' → α × σ'}
    (h : ∀ {w w'}, rel w w' → (f w).1 = (g w').1 ∧ rel (f w).2 (g w').2) :
    Mirrors rel (Action.call f) (Action.call g) :=
  fun _ _ hw => ⟨(h hw).1, rfl, (h hw).2⟩

theorem effect {f : σ → σ} {g : σ' → σ'} (h : ∀ {w w'}, rel w w' → rel (f w) (g w')) :
    Mirrors rel (Action.effect f) (Action.effect g) :=
  fun _ _ hw => ⟨rfl, rfl, h hw⟩

theorem read {f : σ → α} {g : σ' → α} (h : ∀ {w w'}, rel w w' → f w = g w') :
    Mirrors rel (Action.read f) (Action.read g) :=
  fun _ _ hw => ⟨h hw, rfl, hw⟩

theorem ite {p : Prop} [Decidable p] {x₁ x₂ : Action σ α} {y₁ y₂ : Action σ' α}
    (h₁ : Mirrors rel x₁ y₁) (h₂ : Mirrors rel x₂ y₂) :
    Mirrors rel (if p then x₁ else x₂) (if p then y₁ else y₂) := by
  split
  · exact h₁
  · exact h₂

end Mirrors

/-! ## Services that agree -/

namespace Services

/-- In related states the services answer alike and stay related, their transports apart, which
only stay related. They sign alike, and their clocks show the same. -/
structure Agrees (S : Services σ) (S' : Services σ') (rel : σ → σ' → Prop) : Prop where
  stack : ∀ {w w'}, rel w w' → (S.stack w).1 = (S'.stack w').1 ∧ rel (S.stack w).2 (S'.stack w').2
  pick : ∀ {w w'}, rel w w' → (S.pick w).1 = (S'.pick w').1 ∧ rel (S.pick w).2 (S'.pick w').2
  pickOther : ∀ addr {w w'}, rel w w' → (S.pickOther addr w).1 = (S'.pickOther addr w').1
    ∧ rel (S.pickOther addr w).2 (S'.pickOther addr w').2
  sample : ∀ addr ms {w w'}, rel w w' → rel (S.sample addr ms w) (S'.sample addr ms w')
  lookup : ∀ key type {w w'}, rel w w' → (S.lookup key type w).1 = (S'.lookup key type w').1
    ∧ rel (S.lookup key type w).2 (S'.lookup key type w').2
  rotate : ∀ key {w w'}, rel w w' → rel (S.rotate key w) (S'.rotate key w')
  store : ∀ r {w w'}, rel w w' → rel (S.store r w) (S'.store r w')
  sendAll : ∀ batch {w w'}, rel w w' → rel (S.sendAll batch w).2 (S'.sendAll batch w').2
  signer : S.signer = S'.signer
  seconds : ∀ {w w'}, rel w w' → S.seconds w = S'.seconds w'
  instant : ∀ {w w'}, rel w w' → S.instant w = S'.instant w'

/-- The same on the left and related on the right. -/
def Alongside (α : Type) (rel : τ → τ' → Prop) (s : α × τ) (s' : α × τ') : Prop :=
  s.1 = s'.1 ∧ rel s.2 s'.2

namespace Agrees

variable {S : Services τ} {S' : Services τ'} {rel : τ → τ' → Prop}

theorem withJson (h : S.Agrees S' rel) : S.withJson.Agrees S'.withJson rel :=
  ⟨h.stack, h.pick, h.pickOther, h.sample, h.lookup, h.rotate, h.store, h.sendAll, h.signer,
    h.seconds, h.instant⟩

theorem beside (h : S.Agrees S' rel) :
    (Services.beside (α := α) S).Agrees (Services.beside S') (Alongside α rel) where
  stack hw := ⟨(h.stack hw.2).1, hw.1, (h.stack hw.2).2⟩
  pick hw := ⟨(h.pick hw.2).1, hw.1, (h.pick hw.2).2⟩
  pickOther addr _ _ hw := ⟨(h.pickOther addr hw.2).1, hw.1, (h.pickOther addr hw.2).2⟩
  sample addr ms _ _ hw := ⟨hw.1, h.sample addr ms hw.2⟩
  lookup key type _ _ hw := ⟨(h.lookup key type hw.2).1, hw.1, (h.lookup key type hw.2).2⟩
  rotate key _ _ hw := ⟨hw.1, h.rotate key hw.2⟩
  store r _ _ hw := ⟨hw.1, h.store r hw.2⟩
  sendAll batch _ _ hw := ⟨hw.1, h.sendAll batch hw.2⟩
  signer := h.signer
  seconds hw := h.seconds hw.2
  instant hw := h.instant hw.2

/-- Services that agree still do so over equal caches. -/
theorem withCache (h : S.Agrees S' rel) :
    S.withCache.Agrees S'.withCache (Alongside Cache rel) :=
  { h.beside with
    lookup := by
      rintro key type ⟨c, w⟩ ⟨_, w'⟩ ⟨rfl, hw⟩
      have hnow : S.instant w = S'.instant w' := h.instant hw
      simp only [Services.withCache, hnow]
      exact ⟨trivial, rfl, hw⟩
    rotate := by
      rintro key ⟨c, w⟩ ⟨_, w'⟩ ⟨rfl, hw⟩
      exact ⟨rfl, hw⟩
    store := by
      rintro r ⟨c, w⟩ ⟨_, w'⟩ ⟨rfl, hw⟩
      exact ⟨rfl, hw⟩ }

/-- Services that agree still do so over equal pools. -/
theorem withPool (h : S.Agrees S' rel) :
    S.withPool.Agrees S'.withPool (Alongside Pool rel) :=
  { h.beside with
    pick := by
      rintro ⟨p, w⟩ ⟨_, w'⟩ ⟨rfl, hw⟩
      obtain ⟨hstack, hw'⟩ := h.stack hw
      exact ⟨congrArg p.pick hstack, rfl, hw'⟩
    pickOther := by
      rintro addr ⟨p, w⟩ ⟨_, w'⟩ ⟨rfl, hw⟩
      obtain ⟨hstack, hw'⟩ := h.stack hw
      exact ⟨congrArg (p.pickOther · addr) hstack, rfl, hw'⟩
    sample := by
      rintro addr ms ⟨p, w⟩ ⟨_, w'⟩ ⟨rfl, hw⟩
      exact ⟨rfl, hw⟩ }

end Agrees

end Services

/-! ## The steps of a run -/

namespace Job

variable {S : Services σ} {S' : Services σ'} {rel : σ → σ' → Prop}

theorem complete_mirrors (i : Nat) (q : Query) (answers : List Resolution) :
    Mirrors rel (complete (σ := σ) i q answers) (complete (σ := σ') i q answers) :=
  .bind (.ite (.tell _) (.pure _)) fun _ => .pure _

theorem assignServer_mirrors (h : S.Agrees S' rel) (i : Nat) (q : Query) :
    Mirrors rel (assignServer S i q) (assignServer S' i q) := by
  unfold assignServer
  split
  · exact .pure _
  · exact .bind (.call h.pick) fun _ => .bind (.tell _) fun _ => .pure _

theorem assignType_mirrors (h : S.Agrees S' rel) (seen : Option Stack) (q : Query) :
    Mirrors rel (assignType S seen q) (assignType S' seen q) := by
  refine .ite (.bind ?_ fun _ => .pure _) (.pure _)
  cases seen with
  | some stack => exact .pure _
  | none => exact .bind (.call h.stack) fun _ => .bind (.tell _) fun _ => .pure _

theorem probe_mirrors (h : S.Agrees S' rel) (i : Nat) (q : Query) :
    Mirrors rel (probe S i q) (probe S' i q) := by
  refine .ite (.bind (.call (h.lookup _ _)) fun found => .bind (.tell _) fun _ => ?_) (.pure _)
  cases found with
  | none => exact .pure _
  | some hit =>
    dsimp only
    split
    · exact .bind (.effect (h.rotate _)) fun _ => .bind (.tell _) fun _ => complete_mirrors _ _ _
    · exact .pure _

theorem prepare_mirrors (h : S.Agrees S' rel) : ∀ (i : Nat) (seen : Option Stack)
    (qs : List Query), Mirrors rel (prepare S i seen qs) (prepare S' i seen qs)
  | _, _, [] => .pure _
  | i, seen, q :: rest => by
    rw [prepare, prepare]
    refine .ite (.bind (assignServer_mirrors h i q) fun served => ?_)
      (.bind (prepare_mirrors h _ _ rest) fun _ => .pure _)
    cases served with
    | none => exact .pure _
    | some q =>
      exact .bind (assignType_mirrors h seen q) fun _ => .bind (probe_mirrors h i _) fun _ =>
        .bind (prepare_mirrors h _ _ rest) fun _ => .pure _

theorem board_mirrors (h : S.Agrees S' rel) (settings : JobSettings) (now round i : Nat)
    (q : Query) :
    Mirrors rel (board S settings now round i q) (board S' settings now round i q) := by
  refine .ite (.bind (?_ : Mirrors rel (switchServer S round i q) (switchServer S' round i q))
    fun seated => ?_) (.pure _)
  · unfold switchServer
    split
    · exact .pure _
    · exact .bind (.call (h.pickOther _)) fun _ => .bind (.tell _) fun _ => .pure _
  · cases seated with
    | none => exact .pure _
    | some q =>
      -- what goes out depends on the services by its signature only
      simp only [outgoing, h.signer]
      exact .pure _

theorem boardAll_mirrors (h : S.Agrees S' rel) (settings : JobSettings) (now round : Nat) :
    ∀ (i : Nat) (qs : List Query),
      Mirrors rel (boardAll S settings now round i qs) (boardAll S' settings now round i qs)
  | _, [] => .pure _
  | i, q :: rest =>
    .bind (board_mirrors h settings now round i q) fun _ =>
      .bind (boardAll_mirrors h settings now round _ rest) fun _ => .pure _

theorem launch_mirrors (h : S.Agrees S' rel) (settings : JobSettings) (round : Nat)
    (qs : List Query) :
    Mirrors rel (launch S settings round qs) (launch S' settings round qs) :=
  .bind (.read h.seconds) fun now => boardAll_mirrors h settings now round 0 qs

theorem report_mirrors (h : S.Agrees S' rel) (i : Nat) (server : String) (ms : UInt32) :
    Mirrors rel (report S i server ms) (report S' i server ms) :=
  .bind (.effect (h.sample server ms)) fun _ => .tell _

theorem storeAll_mirrors (h : S.Agrees S' rel) (i : Nat) : ∀ rs : List Resolution,
    Mirrors rel (storeAll S i rs) (storeAll S' i rs)
  | [] => .pure _
  | r :: rest =>
    .bind (.effect (h.store r)) fun _ => .bind (.tell _) fun _ => storeAll_mirrors h i rest

theorem deliver_mirrors (h : S.Agrees S' rel) (merged : List Resolution) (l : Landing) :
    Mirrors rel (deliver S merged l) (deliver S' merged l) := by
  unfold deliver
  split
  · exact .pure _
  · exact .pure _
  · dsimp only
    split
    · exact .bind (storeAll_mirrors h _ _) fun _ => complete_mirrors _ _ _
    · exact complete_mirrors _ _ _

theorem deliverAll_mirrors (h : S.Agrees S' rel) (merged : List Resolution) :
    ∀ ls : List Landing, Mirrors rel (deliverAll S merged ls) (deliverAll S' merged ls)
  | [] => .pure _
  | l :: rest =>
    .bind (deliver_mirrors h merged l) fun _ =>
      .bind (deliverAll_mirrors h merged rest) fun _ => .pure _

end Job

end HttpDns
