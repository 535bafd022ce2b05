import HttpDns.Job

/-!
# What is done and what is told

An action tells what it does. A relation between the services' state before, the events told and
the state after is obeyed by every run of a job if it is obeyed by each call on the services with
what is told of that call (`Services.Obeys`, `Job.run_obeys`). So whatever the events are to say of
the state is looked at call by call.
-/

namespace HttpDns

variable {σ α β : Type}

/-- Calls on the services obey a relation with what is told of them, and so does what is made up of
such calls. -/
structure Services.Obeys (S : Services σ) (R : σ → List Event → σ → Prop) : Prop where
  nothing : ∀ w, R w [] w
  append : ∀ {w u v es fs}, R w es u → R u fs v → R w (es ++ fs) v
  stack : ∀ w, R w [.detected (S.stack w).1] (S.stack w).2
  pick : ∀ i w, R w [.drew i (S.pick w).1] (S.pick w).2
  lookup : ∀ i key type w,
    R w [.probed i key type (S.lookup key type w).1] (S.lookup key type w).2
  rotate : ∀ i key w, R w [.rotated i key] (S.rotate key w)
  pickOther : ∀ i addr w, R w [.switched i addr (S.pickOther addr w).1] (S.pickOther addr w).2
  sendAll : ∀ round batch w, R w [.sent round batch] (S.sendAll (batch.map (·.2)) w).2
  readSingle : ∀ body w, R w [] (S.readSingle body w).2
  readMulti : ∀ body w, R w [] (S.readMulti body w).2
  sample : ∀ i addr ms w, R w [.sampled i addr ms] (S.sample addr ms w)
  store : ∀ i r w, R w [.stored i r] (S.store r w)
  fired : ∀ i results w, R w [.fired i results] w

/-- What an action does and what it tells stand in a relation. -/
def Obeying (R : σ → List Event → σ → Prop) (x : Action σ α) : Prop :=
  ∀ w, R w (x w).2.1 (x w).2.2

namespace Services.Obeys

variable {S : Services σ} {R : σ → List Event → σ → Prop}

theorem pure (h : S.Obeys R) (a : α) : Obeying R (pure a : Action σ α) := h.nothing

theorem read (h : S.Obeys R) (f : σ → α) : Obeying R (Action.read f) := h.nothing

theorem bind (h : S.Obeys R) {x : Action σ α} {f : α → Action σ β} (hx : Obeying R x)
    (hf : ∀ a, Obeying R (f a)) : Obeying R (x >>= f) := fun w => h.append (hx w) (hf _ _)

/-- A call and what is told of its answer. -/
theorem called (h : S.Obeys R) {f : σ → α × σ} {e : α → Event}
    (hf : ∀ w, R w [e (f w).1] (f w).2) {g : α → Action σ β} (hg : ∀ a, Obeying R (g a)) :
    Obeying R (do
      let a ← Action.call f
      Action.tell (e a)
      g a) := fun w => by
  show R w ([e (f w).1] ++ _) _
  exact h.append (hf w) (hg (f w).1 (f w).2)

/-- A call that answers nothing and what is told of it. -/
theorem effected (h : S.Obeys R) {f : σ → σ} {e : Event} (hf : ∀ w, R w [e] (f w))
    {x : Action σ α} (hx : Obeying R x) :
    Obeying R (do
      Action.effect f
      Action.tell e
      x) := fun w => by
  show R w ([e] ++ _) _
  exact h.append (hf w) (hx (f w))

end Services.Obeys

theorem Obeying.ite {R : σ → List Event → σ → Prop} {p : Prop} [Decidable p] {x y : Action σ α}
    (hx : Obeying R x) (hy : Obeying R y) : Obeying R (if p then x else y) := by
  split
  · exact hx
  · exact hy

namespace Job

variable {S : Services σ} {R : σ → List Event → σ → Prop}

/-! ## Preparation -/

theorem complete_obeys (h : S.Obeys R) (i : Nat) (q : Query) (answers : List Resolution) :
    Obeying R (complete (σ := σ) i q answers) :=
  h.bind (.ite (h.fired i _) (h.pure _)) fun _ => h.pure _

theorem assignServer_obeys (h : S.Obeys R) (i : Nat) (q : Query) :
    Obeying R (assignServer S i q) := by
  unfold assignServer
  split
  · exact h.pure _
  · exact h.pick i

theorem assignType_obeys (h : S.Obeys R) (seen : Option Stack) (q : Query) :
    Obeying R (assignType S seen q) := by
  refine .ite (h.bind ?_ fun _ => h.pure _) (h.pure _)
  cases seen with
  | some stack => exact h.pure _
  | none => exact h.stack

theorem probe_obeys (h : S.Obeys R) (i : Nat) (q : Query) : Obeying R (probe S i q) := by
  refine .ite (h.called (h.lookup i _ _) fun found => ?_) (h.pure _)
  cases found with
  | none => exact h.pure _
  | some hit =>
    dsimp only
    split
    · exact h.effected (h.rotate i _) (complete_obeys h i q _)
    · exact h.pure _

theorem prepare_obeys (h : S.Obeys R) : ∀ (i : Nat) (seen : Option Stack) (qs : List Query),
    Obeying R (prepare S i seen qs)
  | _, _, [] => h.pure _
  | i, seen, q :: rest => by
    rw [prepare]
    refine .ite (h.bind (assignServer_obeys h i q) fun served => ?_)
      (h.bind (prepare_obeys h _ _ rest) fun _ => h.pure _)
    cases served with
    | none => exact h.pure _
    | some q =>
      exact h.bind (assignType_obeys h seen q) fun _ => h.bind (probe_obeys h i _) fun _ =>
        h.bind (prepare_obeys h _ _ rest) fun _ => h.pure _

/-! ## Rounds -/

theorem board_obeys (h : S.Obeys R) (settings : JobSettings) (now round i : Nat) (q : Query) :
    Obeying R (board S settings now round i q) := by
  refine .ite (h.bind ?_ fun seated => ?_) (h.pure _)
  · unfold switchServer
    split
    · exact h.pure _
    · exact h.called (h.pickOther i _) fun _ => h.pure _
  · cases seated <;> exact h.pure _

theorem boardAll_obeys (h : S.Obeys R) (settings : JobSettings) (now round : Nat) :
    ∀ (i : Nat) (qs : List Query), Obeying R (boardAll S settings now round i qs)
  | _, [] => h.pure _
  | i, q :: rest =>
    h.bind (board_obeys h settings now round i q) fun _ =>
      h.bind (boardAll_obeys h settings now round _ rest) fun _ => h.pure _

theorem launch_obeys (h : S.Obeys R) (settings : JobSettings) (round : Nat) (qs : List Query) :
    Obeying R (launch S settings round qs) :=
  h.bind (h.read _) fun _ => boardAll_obeys h settings _ round 0 qs

theorem exchange_obeys (h : S.Obeys R) (round : Nat) (seats : List Seat) :
    Obeying R (exchange S round seats) :=
  h.sendAll round (manifest seats)

theorem readBody_obeys (h : S.Obeys R) (r : Request) (body : String) :
    Obeying R (readBody S r body) := by
  refine .ite (h.readMulti body) (h.bind (h.readSingle body) fun a => ?_)
  cases a <;> exact h.pure _

theorem land_obeys (h : S.Obeys R) (i : Nat) (q : Query) (out : Outgoing) (reply : Reply) :
    Obeying R (land S i q out reply) := by
  refine h.bind ?_ fun got => ?_
  · cases reply with
    | error => exact h.pure _
    | ok response =>
      refine .ite (h.bind (readBody_obeys h _ _) fun answers => ?_) (h.pure _)
      split <;> exact h.pure _
  · cases got <;> exact h.bind (h.sample i _ _) fun _ => h.pure _

theorem landAll_obeys (h : S.Obeys R) : ∀ (seats : List Seat) (replies : List Reply),
    Obeying R (landAll S seats replies)
  | [], _ => h.pure _
  | seat :: seats, replies => by
    unfold landAll
    split
    · exact h.bind (landAll_obeys h seats _) fun _ => h.pure _
    · exact h.bind (landAll_obeys h seats _) fun _ => h.pure _
    · exact h.bind (land_obeys h _ _ _ _) fun _ =>
        h.bind (landAll_obeys h seats _) fun _ => h.pure _

theorem storeAll_obeys (h : S.Obeys R) (i : Nat) : ∀ rs : List Resolution,
    Obeying R (storeAll S i rs)
  | [] => h.pure _
  | r :: rest => h.effected (h.store i r) (storeAll_obeys h i rest)

theorem deliver_obeys (h : S.Obeys R) (merged : List Resolution) (l : Landing) :
    Obeying R (deliver S merged l) := by
  unfold deliver
  split
  · exact h.pure _
  · exact h.pure _
  · dsimp only
    split
    · exact h.bind (storeAll_obeys h _ _) fun _ => complete_obeys h _ _ _
    · exact complete_obeys h _ _ _

theorem deliverAll_obeys (h : S.Obeys R) (merged : List Resolution) : ∀ ls : List Landing,
    Obeying R (deliverAll S merged ls)
  | [] => h.pure _
  | l :: rest =>
    h.bind (deliver_obeys h merged l) fun _ =>
      h.bind (deliverAll_obeys h merged rest) fun _ => h.pure _

theorem receive_obeys (h : S.Obeys R) (seats : List Seat) (replies : List Reply) :
    Obeying R (receive S seats replies) :=
  h.bind (h.read _) fun _ => h.bind (landAll_obeys h seats replies) fun _ =>
    deliverAll_obeys h _ _

theorem rounds_obeys (h : S.Obeys R) (settings : JobSettings) : ∀ (most round : Nat)
    (qs : List Query), Obeying R (rounds S settings most round qs)
  | 0, _, _ => h.pure _
  | most + 1, round, qs => by
    unfold rounds
    refine h.bind (launch_obeys h settings round qs) fun seats => ?_
    refine .ite (h.pure _) (h.bind (exchange_obeys h round seats) fun replies => ?_)
    exact h.bind (receive_obeys h seats replies) fun _ => rounds_obeys h settings most _ _

/-- A run obeys what each call on its services obeys. -/
theorem run_obeys (h : S.Obeys R) (j : Job) : Obeying R (run S j) := by
  unfold run
  refine h.bind (prepare_obeys h _ _ _) fun _ => ?_
  exact .ite (h.bind (rounds_obeys h _ _ _ _) fun _ => h.pure _) (h.pure _)

end Job

end HttpDns
