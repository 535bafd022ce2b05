import HttpDns.Proofs.Rounds
import HttpDns.Proofs.Telling

/-!
# What a run keeps of the services' state

An invariant of the services' state that every service keeps, if an answer is only cached when it is
fit to be, is kept by a whole run that caches fit answers only (`run_upholds`). What a run caches is
seen from its events, so the state and the answers are looked after one apart from the other.
-/

namespace HttpDns

variable {σ α β : Type}

/-- Every answer that some events cache is fit. -/
def StoresFit (fit : Resolution → Prop) (es : List Event) : Prop :=
  ∀ i r, Event.stored i r ∈ es → fit r

theorem storesFit_append {fit : Resolution → Prop} {es fs : List Event} :
    StoresFit fit (es ++ fs) ↔ StoresFit fit es ∧ StoresFit fit fs := by
  constructor
  · intro h
    exact ⟨fun i r hr => h i r (List.mem_append_left _ hr),
      fun i r hr => h i r (List.mem_append_right _ hr)⟩
  · rintro ⟨he, hf⟩ i r hr
    rcases List.mem_append.1 hr with hr | hr
    · exact he i r hr
    · exact hf i r hr

theorem storesFit_of_passes {α β : Type} {T : Nat → α → β → List Event → Prop} {i : Nat}
    {as : List α} {bs : List β} {es : List Event} {fit : Resolution → Prop}
    (h : Passes T i as bs es) (hT : ∀ j a b gs, T j a b gs → StoresFit fit gs) :
    StoresFit fit es := by
  intro k r hr
  have hmem := mem_about hr rfl
  rcases h.about_cases k with hnil | ⟨n, a, b, -, -, hstep⟩
  · rw [hnil] at hmem
    cases hmem
  · exact hT _ _ _ _ hstep k r hmem

/-- Each service keeps an invariant, as long as the answers that are cached are fit. -/
structure Services.Maintains (S : Services σ) (inv : σ → Prop) (fit : Resolution → Prop) :
    Prop where
  stack : ∀ {w}, inv w → inv (S.stack w).2
  pick : ∀ {w}, inv w → inv (S.pick w).2
  pickOther : ∀ addr {w}, inv w → inv (S.pickOther addr w).2
  sample : ∀ addr ms {w}, inv w → inv (S.sample addr ms w)
  lookup : ∀ key type {w}, inv w → inv (S.lookup key type w).2
  rotate : ∀ key {w}, inv w → inv (S.rotate key w)
  store : ∀ r {w}, fit r → inv w → inv (S.store r w)
  sendAll : ∀ batch {w}, inv w → inv (S.sendAll batch w).2
  readSingle : ∀ body {w}, inv w → inv (S.readSingle body w).2
  readMulti : ∀ body {w}, inv w → inv (S.readMulti body w).2

/-- As services go by such an invariant, it holds after what they are asked if it held before,
unless an answer is cached that is not fit. -/
theorem Services.Maintains.obeys {S : Services σ} {inv : σ → Prop} {fit : Resolution → Prop}
    (h : S.Maintains inv fit) :
    S.Obeys fun w es w' => inv w → StoresFit fit es → inv w' where
  nothing _ hw _ := hw
  append he hf hw hes := hf (he hw (storesFit_append.1 hes).1) (storesFit_append.1 hes).2
  stack _ hw _ := h.stack hw
  pick _ _ hw _ := h.pick hw
  lookup _ key type _ hw _ := h.lookup key type hw
  rotate _ key _ hw _ := h.rotate key hw
  pickOther _ addr _ hw _ := h.pickOther addr hw
  sendAll _ _ _ hw _ := h.sendAll _ hw
  readSingle body _ hw _ := h.readSingle body hw
  readMulti body _ hw _ := h.readMulti body hw
  sample _ addr ms _ hw _ := h.sample addr ms hw
  store i r _ hw hes := h.store r (hes i r List.mem_cons_self) hw
  fired _ _ _ hw _ := hw

/-- An action keeps an invariant if it caches fit answers only. -/
def Upholds (inv : σ → Prop) (fit : Resolution → Prop) (x : Action σ α) : Prop :=
  ∀ w, inv w → StoresFit fit (x w).2.1 → inv (x w).2.2

namespace Upholds

variable {inv : σ → Prop} {fit : Resolution → Prop}

theorem pure (a : α) : Upholds inv fit (pure a : Action σ α) := fun _ hw _ => hw

theorem bind {x : Action σ α} {f : α → Action σ β} (hx : Upholds inv fit x)
    (hf : ∀ a, Upholds inv fit (f a)) : Upholds inv fit (x >>= f) := by
  intro w hw hes
  obtain ⟨hes₁, hes₂⟩ := storesFit_append.1 hes
  exact hf _ _ (hx w hw hes₁) hes₂

theorem tell (e : Event) : Upholds inv fit (Action.tell e) := fun _ hw _ => hw

theorem call {f : σ → α × σ} (hf : ∀ {w}, inv w → inv (f w).2) :
    Upholds inv fit (Action.call f) := fun _ hw _ => hf hw

theorem effect {f : σ → σ} (hf : ∀ {w}, inv w → inv (f w)) :
    Upholds inv fit (Action.effect f) := fun _ hw _ => hf hw

theorem read (f : σ → α) : Upholds inv fit (Action.read f) := fun _ hw _ => hw

theorem ite {p : Prop} [Decidable p] {x y : Action σ α} (hx : Upholds inv fit x)
    (hy : Upholds inv fit y) : Upholds inv fit (if p then x else y) := by
  split
  · exact hx
  · exact hy

end Upholds

namespace Job

variable {S : Services σ} {inv : σ → Prop} {fit : Resolution → Prop}

/-- A run keeps what every service keeps, if it caches fit answers only. -/
theorem run_upholds (h : S.Maintains inv fit) (j : Job) : Upholds inv fit (run S j) :=
  run_obeys h.obeys j

/-! ## What the steps of a run cache -/

variable {settings : JobSettings}

theorem Boarded.storesFit {now round i : Nat} {q : Query} {seat : Seat} {es : List Event}
    (h : Boarded S settings now round i q seat es) : StoresFit fit es := by
  cases h <;> simp [StoresFit]

theorem Returned.storesFit {traffic : Traffic} {i : Nat} {seat : Seat} {l : Landing}
    {es : List Event} (h : Returned S traffic i seat l es) : StoresFit fit es := by
  cases h with
  | idle => simp [StoresFit]
  | landed _ _ hl => cases hl <;> simp [StoresFit]

theorem storesFit_callback (i : Nat) (q : Query) (results : List Resolution) :
    StoresFit fit (callback i q results) := by
  unfold callback
  split <;> simp [StoresFit]

theorem Prepared.storesFit {i : Nat} {q q' : Query} {es : List Event} (h : Prepared i q q' es) :
    StoresFit fit es := by
  cases h with
  | passed => simp [StoresFit]
  | readied _ hs _ hp =>
    refine storesFit_append.2 ⟨?_, ?_⟩
    · cases hs <;> simp [StoresFit]
    · cases hp with
      | skipped | missed | half => simp [StoresFit]
      | whole => exact storesFit_append.2 ⟨by simp [StoresFit], storesFit_callback _ _ _⟩

theorem prepare_storesFit (S : Services σ) (i : Nat) (seen : Option Stack) (qs : List Query)
    (w : σ) : StoresFit fit (prepare S i seen qs w).2.1 := by
  refine storesFit_of_passes (prepare_passes S i seen qs w) ?_
  rintro j q q' gs (hp | ⟨-, hu⟩)
  · exact hp.storesFit
  · cases hu <;> simp [StoresFit]

/-- What is cached at the end of a round are the shares of its queries. -/
theorem Landing.storesFit {merged : List Resolution} {l : Landing}
    (h : ∀ out answers, l.outcome = .answered out answers →
      ∀ r ∈ share merged l.query answers, fit r) : StoresFit fit (l.told merged) := by
  unfold told
  cases ho : l.outcome with
  | idle | failed => simp [StoresFit]
  | answered out answers =>
    refine storesFit_append.2 ⟨?_, storesFit_callback _ _ _⟩
    intro i r hr
    split at hr
    · obtain ⟨r', hr', heq⟩ := List.mem_map.1 hr
      cases heq
      exact h out answers ho r hr'
    · cases hr

/-- What a round caches are the shares of the queries it answers. -/
theorem Round.storesFit {r : Round σ}
    (h : ∀ l ∈ r.landings S settings, ∀ out answers, l.outcome = .answered out answers →
      ∀ x ∈ share (r.merged S settings) l.query answers, fit x) :
    StoresFit fit (r.events S settings) := by
  refine storesFit_of_passes (r.passes S settings) ?_
  rintro k q q' gs ⟨seat, l, es₁, es₂, hb, hret, hk, -, rfl⟩
  exact storesFit_append.2 ⟨hb.storesFit, storesFit_append.2 ⟨hret.storesFit,
    Landing.storesFit (h l (List.mem_of_getElem? hk))⟩⟩

/-- A round obeys what each call on the services obeys. -/
theorem Round.obeys {R : σ → List Event → σ → Prop} (hR : S.Obeys R) (settings : JobSettings)
    (r : Round σ) : R r.world (r.events S settings) (r.next S settings).world := by
  have hlaunched := launch_obeys hR settings r.number r.queries r.world
  have hexchanged := exchange_obeys hR r.number (r.seats S settings) (r.launched S settings).2.2
  have hreceived := receive_obeys hR (r.seats S settings) (r.replies S settings)
    (r.exchanged S settings).2.2
  exact hR.append hlaunched (hR.append hexchanged hreceived)

/-- The rounds of a run obey what each call on its services obeys. -/
theorem Settles.obeys {R : σ → List Event → σ → Prop} (hR : S.Obeys R) {r : Round σ}
    {qs : List Query} {es : List Event} {w : σ} (h : Settles S settings r qs es w) :
    R r.world es w := by
  induction h with
  | @ended r => exact launch_obeys hR settings r.number r.queries r.world
  | @again r _ _ _ _ _ ih => exact hR.append (r.obeys hR settings) ih

end Job

end HttpDns
