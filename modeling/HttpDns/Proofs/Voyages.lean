import HttpDns.Client.Session
import HttpDns.Proofs.Records
import HttpDns.Proofs.Unions

/-!
# Jobs and searches that are suspended

Whichever way a job is cut into polls, none of them asks a boot server, and each keeps what every
service keeps (`embark_ensures`, `pollVoyage_ensures`). A search for servers keeps what lasts in a
pool as servers are appended (`pollSearch_upholds`), and where it succeeds it appends what an answer
lists (`learned_of_pollSearch`).
-/

namespace HttpDns

variable {σ τ α β : Type}

def Unasked (es : List Event) : Prop :=
  ∀ boot, Event.asked boot ∉ es

theorem unasked_nil : Unasked [] := fun _ => List.not_mem_nil

theorem Unasked.append {es fs : List Event} (he : Unasked es) (hf : Unasked fs) :
    Unasked (es ++ fs) := by
  intro boot h
  rcases List.mem_append.1 h with h | h
  · exact he boot h
  · exact hf boot h

/-- An action keeps an invariant, asks no boot server and yields what is wanted. -/
def Ensures (inv : σ → Prop) (post : α → Prop) (x : Action σ α) : Prop :=
  ∀ w, inv w → inv (x w).2.2 ∧ Unasked (x w).2.1 ∧ post (x w).1

namespace Ensures

variable {inv : σ → Prop} {post : α → Prop} {post' : β → Prop}

theorem pure {a : α} (h : post a) : Ensures inv post (pure a) :=
  fun _ hw => ⟨hw, unasked_nil, h⟩

theorem bind {x : Action σ α} {f : α → Action σ β} (hx : Ensures inv post x)
    (hf : ∀ a, post a → Ensures inv post' (f a)) : Ensures inv post' (x >>= f) := by
  intro w hw
  obtain ⟨hinv, hes, hpost⟩ := hx w hw
  obtain ⟨hinv', hes', hpost'⟩ := hf _ hpost _ hinv
  exact ⟨hinv', hes.append hes', hpost'⟩

theorem ite {p : Prop} [Decidable p] {x y : Action σ α} (hx : Ensures inv post x)
    (hy : Ensures inv post y) : Ensures inv post (if p then x else y) := by
  split
  · exact hx
  · exact hy

theorem upholds {x : Action σ α} (hx : Ensures inv post x) (fit : Resolution → Prop) :
    Upholds inv fit x :=
  fun w hw _ => (hx w hw).1

theorem of_upholds {x : Action σ α} (hx : Upholds inv (fun _ => True) x)
    (hes : ∀ w, Unasked (x w).2.1) : Ensures inv (fun _ => True) x :=
  fun w hw => ⟨hx w hw fun _ _ _ => trivial, hes w, trivial⟩

theorem read (f : σ → α) : Ensures inv (fun _ => True) (Action.read f) :=
  of_upholds (.read f) fun _ => unasked_nil

end Ensures

/-! ## Jobs -/

namespace Job

variable (S : Services σ)

/-- None of the calls of a job asks a boot server. -/
theorem obeys_unasked : S.Obeys fun _ es _ => Unasked es where
  nothing _ := unasked_nil
  append he hf := he.append hf
  stack _ := by simp [Unasked]
  pick _ _ := by simp [Unasked]
  lookup _ _ _ _ := by simp [Unasked]
  rotate _ _ _ := by simp [Unasked]
  pickOther _ _ _ := by simp [Unasked]
  sendAll _ _ _ := by simp [Unasked]
  readSingle _ _ := unasked_nil
  readMulti _ _ := unasked_nil
  sample _ _ _ _ := by simp [Unasked]
  store _ _ _ := by simp [Unasked]
  fired _ _ _ := by simp [Unasked]

variable {S} {inv : σ → Prop}

theorem prepare_ensures (h : S.Maintains inv fun _ => True) (i : Nat) (seen : Option Stack)
    (qs : List Query) : Ensures inv (fun _ => True) (prepare S i seen qs) :=
  .of_upholds (prepare_obeys h.obeys i seen qs) (prepare_obeys (obeys_unasked S) i seen qs)

theorem launch_ensures (h : S.Maintains inv fun _ => True) (settings : JobSettings) (round : Nat)
    (qs : List Query) : Ensures inv (fun _ => True) (launch S settings round qs) :=
  .of_upholds (launch_obeys h.obeys settings round qs)
    (launch_obeys (obeys_unasked S) settings round qs)

theorem exchange_ensures (h : S.Maintains inv fun _ => True) (round : Nat) (seats : List Seat) :
    Ensures inv (fun _ => True) (exchange S round seats) :=
  .of_upholds (exchange_obeys h.obeys round seats) (exchange_obeys (obeys_unasked S) round seats)

theorem receive_ensures (h : S.Maintains inv fun _ => True) (seats : List Seat)
    (replies : List Reply) : Ensures inv (fun _ => True) (receive S seats replies) :=
  .of_upholds (receive_obeys h.obeys seats replies) (receive_obeys (obeys_unasked S) seats replies)

end Job

namespace Client

/-- The call is past the gate: it waits for no bootstrap and runs none. -/
def Phase.isPast : Phase → Bool
  | .admitted | .resolving _ | .done _ | .dropped => true
  | .arriving | .waiting | .guarding _ | .searching _ => false

namespace Session

variable {S : Services τ} {inv : State τ → Prop}

theorem sail_ensures (h : (services S).Maintains inv fun _ => True) (delay : Delay τ) (j : Job) :
    ∀ (most round : Nat) (qs : List Query),
      Ensures inv (fun p => p.isPast = true) (sail S delay j most round qs)
  | 0, _, _ => .pure rfl
  | most + 1, round, qs => by
    rw [sail]
    refine .bind (Job.launch_ensures h j.settings round qs) fun seats _ => .ite (.pure rfl) ?_
    refine .bind (.read _) fun d _ => ?_
    refine .bind (Job.exchange_ensures h round seats) fun replies _ => .ite ?_ (.pure rfl)
    exact .bind (Job.receive_ensures h seats replies) fun qs _ =>
      sail_ensures h delay j most (round + 1) qs

theorem embark_ensures (h : (services S).Maintains inv fun _ => True) (delay : Delay τ) (j : Job) :
    Ensures inv (fun p => p.isPast = true) (embark S delay j) :=
  .bind (Job.prepare_ensures h 0 none j.queries) fun prepared _ =>
    .ite (sail_ensures h delay j _ 0 prepared.1) (.pure rfl)

theorem pollVoyage_ensures (h : (services S).Maintains inv fun _ => True) (delay : Delay τ)
    (v : Voyage) : Ensures inv (fun p => p.isPast = true) (pollVoyage S delay v) :=
  .ite (.pure rfl) (.bind (Job.receive_ensures h v.seats v.replies) fun qs _ =>
    sail_ensures h delay v.job v.most (v.round + 1) qs)

end Session

end Client

/-! ## Servers that are listed -/

/-- No address is empty. -/
def Roster.IsNamed (r : Roster) : Prop :=
  "" ∉ r.ipv4 ∧ "" ∉ r.ipv6

/-- A schedule body lists no empty address. -/
theorem isNamed_readSchedule (body : String) : (Reply.readSchedule body).IsNamed := by
  have hnonEmpty : ∀ addrs, "" ∉ Reply.nonEmpty addrs := by simp [Reply.nonEmpty]
  unfold Reply.readSchedule
  cases h : (Json.parse body.toList).bind Reply.schedule? with
  | none => exact ⟨List.not_mem_nil, List.not_mem_nil⟩
  | some r =>
    obtain ⟨tree, -, hread⟩ := Option.bind_eq_some_iff.1 h
    obtain ⟨fs, -, hread⟩ := Option.bind_eq_some_iff.1 hread
    obtain ⟨ipv4, -, hread⟩ := Option.bind_eq_some_iff.1 hread
    obtain ⟨ipv6, -, hread⟩ := Option.bind_eq_some_iff.1 hread
    cases hread
    exact ⟨hnonEmpty ipv4, hnonEmpty ipv6⟩

namespace Pool

theorem merge_ne_nil {l : Endpoints} (h : l ≠ []) (addrs : List String) : l.merge addrs ≠ [] :=
  fun hnil => h (Endpoints.merge_eq_nil.1 hnil).1

theorem merge_cons_ne_nil (l : Endpoints) {addr : String} (h : addr ≠ "") (rest : List String) :
    l.merge (addr :: rest) ≠ [] :=
  fun hnil => h ((Endpoints.merge_eq_nil.1 hnil).2 addr List.mem_cons_self)

theorem isEmpty_eq_false_iff {p : Pool} : p.isEmpty = false ↔ p.ipv4 ≠ [] ∨ p.ipv6 ≠ [] := by
  cases h : p.ipv4 <;> cases h' : p.ipv6 <;> simp [isEmpty, h, h']

theorem isEmpty_add_of_pool {p : Pool} (h : p.isEmpty = false) (ipv4 ipv6 : List String) :
    (p.add ipv4 ipv6).isEmpty = false := by
  rw [isEmpty_eq_false_iff] at h ⊢
  rcases h with h | h
  · exact .inl (merge_ne_nil h ipv4)
  · exact .inr (merge_ne_nil h ipv6)

/-- What is said of a pool stays true as servers are appended and measured. -/
structure Lasting (P : Pool → Prop) : Prop where
  add : ∀ {p} ipv4 ipv6, P p → P (p.add ipv4 ipv6)
  update : ∀ {p} addr ms, P p → P (p.update addr ms)

theorem lasting_nonempty : Lasting fun p => p.isEmpty = false where
  add ipv4 ipv6 h := isEmpty_add_of_pool h ipv4 ipv6
  update {p} addr ms h := by
    have hsame : p.SameServers (p.update addr ms) := SameServers.update ⟨rfl, rfl⟩ addr ms
    exact hsame.isEmpty_eq.trans h

theorem isEmpty_add_of_roster (p : Pool) {r : Roster} (h : r.isEmpty = false) (hr : r.IsNamed) :
    (p.add r.ipv4 r.ipv6).isEmpty = false := by
  obtain ⟨ipv4, ipv6⟩ := r
  obtain ⟨h4, h6⟩ := hr
  rw [isEmpty_eq_false_iff]
  cases ipv4 with
  | cons addr rest => exact .inl (merge_cons_ne_nil _ (fun he => h4 (he ▸ List.mem_cons_self)) rest)
  | nil =>
    cases ipv6 with
    | cons addr rest =>
      exact .inr (merge_cons_ne_nil _ (fun he => h6 (he ▸ List.mem_cons_self)) rest)
    | nil => cases h

end Pool

namespace Client

/-! ## Searches -/

/-- A resolver server is known. -/
def Pooled (s : State τ) : Prop :=
  s.2.1.isEmpty = false

def OnPool (P : Pool → Prop) (s : State τ) : Prop :=
  P s.2.1

theorem maintains_true (S : Services τ) : (services S).Maintains (fun _ => True) fun _ => True := by
  constructor <;> intros <;> trivial

theorem maintains_onPool (S : Services τ) {P : Pool → Prop} (hP : Pool.Lasting P) :
    (services S).Maintains (OnPool P) fun _ => True where
  stack h := h
  pick h := h
  pickOther _ _ h := h
  sample addr ms _ h := hP.update addr ms h
  lookup _ _ _ h := h
  rotate _ _ h := h
  store _ _ _ h := h
  sendAll _ _ h := h
  readSingle _ _ h := h
  readMulti _ _ h := h

theorem maintains_pooled (S : Services τ) : (services S).Maintains Pooled fun _ => True :=
  maintains_onPool S Pool.lasting_nonempty

namespace Session

variable {S : Services τ} {c : Client} {fit : Resolution → Prop}
  {P : Pool → Prop}

theorem outside_upholds (x : Action τ α) : Upholds (OnPool P) fit (outside x) := fun _ hw _ => hw

theorem take_upholds (hP : Pool.Lasting P) (boot roster : Roster) :
    Upholds (OnPool P) fit (take boot roster : Action (State τ) Unit) := by
  intro w hw _
  exact hP.add roster.ipv4 roster.ipv6 hw

theorem afterSearch_upholds (hP : Pool.Lasting P) (boot : Roster) (tried : Nat)
    (step : SearchStep) : Upholds (OnPool P) fit (afterSearch (τ := τ) boot tried step) := by
  cases step with
  | suspended | failed => exact .pure _
  | found roster => exact .bind (take_upholds hP boot roster) fun _ => .pure _

theorem searchOnStack_upholds (hP : Pool.Lasting P) (S : Services τ) (c : Client)
    (delay : Delay τ) (boot : Roster) (stack : Stack) :
    Upholds (OnPool P) fit (searchOnStack S c delay boot stack) :=
  .bind (outside_upholds _) fun _ => .bind (outside_upholds _) fun _ =>
    afterSearch_upholds hP boot _ _

theorem beginSearch_upholds (hP : Pool.Lasting P) (S : Services τ) (c : Client) (pace : Pace τ) :
    Upholds (OnPool P) fit (beginSearch S c pace) :=
  .bind (.read _) fun boot => .bind (outside_upholds _) fun _ => .bind (outside_upholds _) fun _ =>
    .ite (searchOnStack_upholds hP S c pace.exchange boot _) (.pure _)

theorem pollSearch_upholds (hP : Pool.Lasting P) (S : Services τ) (c : Client)
    (delay : Delay τ) (search : Search) : Upholds (OnPool P) fit (pollSearch S c delay search) := by
  cases search with
  | detecting boot stack polls =>
    exact .ite (.pure _) (searchOnStack_upholds hP S c delay boot stack)
  | asking boot tried left reply polls =>
    exact .ite (.pure _) (.bind (outside_upholds _) fun _ => afterSearch_upholds hP boot tried _)

/-! ## Searches that succeed -/

/-- The roster was read from a body and is not empty. -/
def Listed (S : Services τ) (roster : Roster) : Prop :=
  roster.isEmpty = false ∧ ∃ body w, roster = (S.readSchedule body w).1

theorem listed_of_some {reply : Reply} {w : τ} {roster : Roster}
    (h : (Bootstrap.listed S reply w).1 = some roster) : Listed S roster := by
  unfold Bootstrap.listed at h
  cases reply with
  | error => cases h
  | ok response =>
    cases hok : response.isOk with
    | false => simp [hok] at h
    | true =>
      cases he : (S.readSchedule response.body w).1.isEmpty with
      | true => simp [hok, he] at h
      | false =>
        obtain rfl : (S.readSchedule response.body w).1 = roster := by simpa [hok, he] using h
        exact ⟨he, response.body, w, rfl⟩

theorem searchOn_found (delay : Delay τ) : ∀ (left : List String) (reply : Reply) (w : τ)
    {roster : Roster}, (searchOn S c delay left reply w).1 = .found roster → Listed S roster
  | [], reply, w, roster, h => by
    rw [searchOn] at h
    cases hl : (Bootstrap.listed S reply w).1 with
    | none => simp [hl] at h
    | some r =>
      obtain rfl : r = roster := by simpa [hl] using h
      exact listed_of_some hl
  | server :: left, reply, w, roster, h => by
    rw [searchOn] at h
    cases hl : (Bootstrap.listed S reply w).1 with
    | none =>
      simp only [Action.bind_apply, hl] at h
      split at h
      · exact searchOn_found delay left _ _ h
      · cases h
    | some r =>
      obtain rfl : r = roster := by simpa [hl] using h
      exact listed_of_some hl

theorem searchFrom_found (delay : Delay τ) (servers : List String) (w : τ) {roster : Roster}
    (h : (searchFrom S c delay servers w).1 = .found roster) : Listed S roster := by
  cases servers with
  | nil => cases h
  | cons server left =>
    simp only [searchFrom, Action.bind_apply] at h
    split at h
    · exact searchOn_found delay left _ _ h
    · cases h

theorem learned_of_afterSearch {boot : Roster} {tried : Nat} {step : SearchStep} {w : State τ}
    (hstep : ∀ roster, step = .found roster → Listed S roster)
    (h : (afterSearch boot tried step w).1 = .error (.ok ())) :
    ∃ roster, Listed S roster
      ∧ (afterSearch boot tried step w).2.2.2.1 = w.2.1.add roster.ipv4 roster.ipv6 := by
  cases step with
  | suspended | failed => cases h
  | found roster => exact ⟨roster, hstep roster rfl, rfl⟩

/-- A search that succeeds appends what an answer lists to the pool. -/
theorem learned_of_pollSearch {delay : Delay τ} {search : Search} {w : State τ}
    (h : (pollSearch S c delay search w).1 = .error (.ok ())) :
    ∃ roster, Listed S roster
      ∧ (pollSearch S c delay search w).2.2.2.1 = w.2.1.add roster.ipv4 roster.ipv6 := by
  cases search with
  | detecting boot stack polls =>
    by_cases hpolls : 1 < polls
    · simp [pollSearch, hpolls] at h
    · simp only [pollSearch, hpolls, if_false] at h ⊢
      exact learned_of_afterSearch (fun _ hs => searchFrom_found delay _ _ hs) h
  | asking boot tried left reply polls =>
    by_cases hpolls : 1 < polls
    · simp [pollSearch, hpolls] at h
    · simp only [pollSearch, hpolls, if_false] at h ⊢
      exact learned_of_afterSearch (fun _ hs => searchOn_found delay left reply _ hs) h

theorem pooled_of_pollSearch (hnamed : ∀ roster, Listed S roster → roster.IsNamed)
    {delay : Delay τ} {search : Search} {w : State τ}
    (h : (pollSearch S c delay search w).1 = .error (.ok ())) :
    Pooled (pollSearch S c delay search w).2.2 := by
  obtain ⟨roster, hlisted, hpool⟩ := learned_of_pollSearch h
  rw [Pooled, hpool]
  exact Pool.isEmpty_add_of_roster w.2.1 hlisted.1 (hnamed roster hlisted)

end Session

end Client

end HttpDns
