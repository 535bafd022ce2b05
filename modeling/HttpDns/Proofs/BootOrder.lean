import HttpDns.Proofs.Accord
import HttpDns.Proofs.Enlisting
import Mathlib.Data.List.Rotate
import Mathlib.Data.Nat.ModEq

/-!
# The order in which boot servers are asked

A bootstrap goes round the boot servers for the stack once, from wherever chance has it begin, and
ends with the first one that lists a server (`walk_tours`). It fails if it has come all the way
round, and so whether it succeeds does not depend on where it began, as long as each boot server
keeps to what it does (`isSome_walk`).
-/

namespace HttpDns

namespace Bootstrap

variable {τ : Type} {S : Services τ} {c : ClientConfig}

/-! ## Round a list -/

/-- The positions of `k` of `n` servers, one after the other from `start` on and round the end. -/
def positions (start n k : Nat) : List Nat :=
  (List.range k).map fun j => (start + j) % n

theorem nodup_positions (start : Nat) {n k : Nat} (h : k ≤ n) : (positions start n k).Nodup := by
  refine List.Nodup.map_on (fun i hi j hj heq => ?_) List.nodup_range
  rw [List.mem_range] at hi hj
  have hmod : i ≡ j [MOD n] := Nat.ModEq.add_left_cancel' start heq
  exact hmod.eq_of_lt_of_lt (hi.trans_le h) (hj.trans_le h)

theorem rotateLeft_eq_rotate {α : Type} (l : List α) (k : Nat) : l.rotateLeft k = l.rotate k := by
  rw [List.rotate_eq_drop_append_take_mod]
  unfold List.rotateLeft
  dsimp only
  split
  · rename_i hle
    match l with
    | [] => simp
    | [x] => simp [Nat.mod_one]
  · rfl

/-- The first `k` servers of a list that has been turned are those at these positions. -/
theorem take_rotateLeft {α : Type} (l : List α) (start : Nat) : ∀ {k : Nat}, k ≤ l.length →
    (l.rotateLeft start).take k = (positions start l.length k).filterMap (l[·]?)
  | 0, _ => rfl
  | k + 1, h => by
    have hnext : (l.rotateLeft start)[k]? = l[(start + k) % l.length]? := by
      rw [rotateLeft_eq_rotate, List.getElem?_rotate h, Nat.add_comm]
    have hlast : positions start l.length (k + 1)
        = positions start l.length k ++ [(start + k) % l.length] := by
      rw [positions, List.range_succ, List.map_append]
      rfl
    rw [List.take_add_one, take_rotateLeft l start (Nat.le_of_succ_le h), hnext, hlast,
      List.filterMap_append]
    rfl

/-! ## One boot server after the other -/

/-- What a boot server was sent and replied, and the servers listed by the reply, if it lists
any. -/
structure Visit where
  exchange : Exchange
  reply : Reply
  offer : Option Roster

/-- What a reply offers: nothing unless it is of the right status and its body lists a server. -/
inductive Offers (S : Services τ) : Reply → τ → Option Roster → τ → Prop
  | unreached (fault : ExchangeFault) (w : τ) : Offers S (.error fault) w none w
  | refused {response : Response} (w : τ) (h : response.status ≠ statusOk) :
      Offers S (.ok response) w none w
  | barren {response : Response} {w : τ} (h : response.status = statusOk)
      (hempty : (S.readSchedule response.body w).1.isEmpty = true) :
      Offers S (.ok response) w none (S.readSchedule response.body w).2
  | listing {response : Response} {w : τ} (h : response.status = statusOk)
      (hlists : (S.readSchedule response.body w).1.isEmpty = false) :
      Offers S (.ok response) w (some (S.readSchedule response.body w).1)
        (S.readSchedule response.body w).2

/-- A boot server is asked, in a schedule request of the present second and with a new nonce. -/
structure Visited (S : Services τ) (c : ClientConfig) (server : String) (w : τ) (v : Visit)
    (w' : τ) : Prop where
  exchange_eq : v.exchange =
    { url := Url.schedule (.ofConfig S.signer c) c server (S.seconds w) (S.nonce w).1
      server
      timeoutMs := c.timeoutMs }
  reply_eq : v.reply = (S.send v.exchange (S.nonce w).2).1
  offers : Offers S v.reply (S.send v.exchange (S.nonce w).2).2 v.offer w'

/-- Some boot servers are asked, one after the other. -/
inductive Tour (S : Services τ) (c : ClientConfig) : List String → τ → List Visit → τ → Prop
  | nil (w : τ) : Tour S c [] w [] w
  | cons {server : String} {servers : List String} {w w₁ w₂ : τ} {v : Visit} {vs : List Visit}
      (first : Visited S c server w v w₁) (rest : Tour S c servers w₁ vs w₂) :
      Tour S c (server :: servers) w (v :: vs) w₂

/-- How a search among `n` boot servers ends: with the first one that lists a server, or when all
have been asked and none does. -/
inductive Searched (n : Nat) : List Visit → Option Roster → Prop
  | found {before : List Visit} {last : Visit} {roster : Roster}
      (failed : ∀ v ∈ before, v.offer = none) (h : last.offer = some roster) :
      Searched n (before ++ [last]) (some roster)
  | exhausted {visits : List Visit} (failed : ∀ v ∈ visits, v.offer = none)
      (all : visits.length = n) : Searched n visits none

/-- What is told as boot servers are asked. -/
def asked (visits : List Visit) : List Event :=
  visits.map fun v => .asked v.exchange

theorem listed_offers (reply : Reply) (w : τ) :
    (listed S reply w).2.1 = [] ∧ Offers S reply w (listed S reply w).1 (listed S reply w).2.2 := by
  cases reply with
  | error fault => exact ⟨rfl, .unreached fault w⟩
  | ok response =>
    unfold listed
    by_cases hok : response.status = statusOk
    · cases hempty : (S.readSchedule response.body w).1.isEmpty with
      | true =>
        simp only [Response.isOk, hok, decide_true, if_true, Action.bind_apply, Action.call_apply,
          Action.pure_apply, hempty]
        exact ⟨rfl, .barren hok hempty⟩
      | false =>
        simp only [Response.isOk, hok, decide_true, if_true, Action.bind_apply, Action.call_apply,
          Action.pure_apply, hempty]
        exact ⟨rfl, .listing hok hempty⟩
    · simp only [Response.isOk, hok, decide_false]
      exact ⟨rfl, .refused w hok⟩

theorem Offers.eq_listed {reply : Reply} {w w' : τ} {offer : Option Roster}
    (h : Offers S reply w offer w') : offer = (listed S reply w).1 := by
  cases h with
  | unreached => rfl
  | refused _ h => simp [listed, Response.isOk, h]
  | barren h hempty => simp [listed, Response.isOk, h, hempty]
  | listing h hlists => simp [listed, Response.isOk, h, hlists]

/-- The step of a walk: a boot server is asked, and the walk ends or goes on. -/
theorem walk_cons (server : String) (rest : List String) (w : τ) :
    ∃ v w', Visited S c server w v w' ∧ walk S c (server :: rest) w
      = match v.offer with
        | some roster => (some roster, [.asked v.exchange], w')
        | none => ((walk S c rest w').1, .asked v.exchange :: (walk S c rest w').2.1,
          (walk S c rest w').2.2) := by
  have hlisted := listed_offers (S := S) (ask S c server w).1 (ask S c server w).2.2
  generalize hl : listed S (ask S c server w).1 (ask S c server w).2.2 = l at hlisted
  obtain ⟨offer, es, w'⟩ := l
  obtain ⟨rfl, hoffers⟩ := hlisted
  refine ⟨⟨(exchangeWith S c server w).1, (ask S c server w).1, offer⟩, w', ⟨rfl, rfl, hoffers⟩, ?_⟩
  simp only [walk, Action.bind_apply, hl]
  cases offer <;> rfl

theorem Searched.none_iff {n : Nat} {visits : List Visit} {offer : Option Roster}
    (h : Searched n visits offer) :
    offer = none ↔ visits.length = n ∧ ∀ v ∈ visits, v.offer = none := by
  cases h with
  | @found before last roster failed h =>
    refine iff_of_false nofun fun ⟨_, hnone⟩ => ?_
    rw [hnone last (List.mem_append_right _ (List.mem_singleton_self last))] at h
    cases h
  | exhausted failed all => exact iff_of_true rfl ⟨all, failed⟩

theorem Searched.cons {n : Nat} {visits : List Visit} {offer : Option Roster}
    (h : Searched n visits offer) {v : Visit} (hv : v.offer = none) :
    Searched (n + 1) (v :: visits) offer := by
  cases h with
  | @found before last roster failed h =>
    exact @Searched.found (n + 1) (v :: before) last roster
      (List.forall_mem_cons.2 ⟨hv, failed⟩) h
  | exhausted failed all =>
    exact .exhausted (List.forall_mem_cons.2 ⟨hv, failed⟩) (congrArg (· + 1) all)

/-- A walk asks some of the servers, in their order and from the first one on, and stops at the
first one that lists a server. -/
theorem walk_tours : ∀ (servers : List String) (w : τ), ∃ visits w',
    Tour S c (servers.take visits.length) w visits w' ∧ visits.length ≤ servers.length
      ∧ Searched servers.length visits (walk S c servers w).1
      ∧ (walk S c servers w).2 = (asked visits, w')
  | [], w => ⟨[], w, .nil w, le_rfl, .exhausted (by simp) rfl, rfl⟩
  | server :: rest, w => by
    obtain ⟨v, w₁, hv, hwalk⟩ := walk_cons (S := S) (c := c) server rest w
    cases hoffer : v.offer with
    | some roster =>
      rw [hoffer] at hwalk
      refine ⟨[v], w₁, .cons hv (.nil w₁), by simp, ?_, ?_⟩
      · rw [hwalk]
        exact @Searched.found _ [] v roster (by simp) hoffer
      · rw [hwalk]
        rfl
    | none =>
      rw [hoffer] at hwalk
      obtain ⟨visits, w', htour, hlen, hsearched, hrest⟩ := walk_tours rest w₁
      refine ⟨v :: visits, w', .cons hv htour, Nat.succ_le_succ hlen, ?_, ?_⟩
      · rw [hwalk]
        exact hsearched.cons hoffer
      · rw [hwalk, hrest]
        rfl

/-- Where each boot server keeps to what it does, a walk succeeds if any of them lists a server. -/
theorem isSome_walk {good : String → Prop} : ∀ {servers : List String},
    (∀ server ∈ servers, ∀ w v w', Visited S c server w v w' → (v.offer.isSome ↔ good server)) →
      ∀ w, (walk S c servers w).1.isSome ↔ ∃ server ∈ servers, good server
  | [], _, _ => by simp [walk]
  | server :: rest, h, w => by
    obtain ⟨v, w₁, hv, hwalk⟩ := walk_cons (S := S) (c := c) server rest w
    have hfirst := h server List.mem_cons_self w v w₁ hv
    have hrest := isSome_walk (fun s hs => h s (List.mem_cons_of_mem _ hs)) w₁
    cases hoffer : v.offer with
    | some roster => simp [hwalk, hoffer, ← hfirst]
    | none => simpa [hwalk, hoffer, ← hfirst] using hrest

/-! ## A bootstrap -/

/-- What a bootstrap comes to with the offer that its walk among `n` boot servers ended with. What
is new of the list is appended to the boot servers and to the pool; without one the pool stays as it
is. -/
def settle (boot : Roster) (p : Pool) (n : Nat) : Option Roster → Except Error Roster × Pool
  | none => (.error (.bootstrapFailed n), p)
  | some roster =>
    (.ok ⟨boot.ipv4 ++ newcomers boot.ipv4 roster.ipv4,
        boot.ipv6 ++ newcomers boot.ipv6 roster.ipv6⟩,
      ⟨p.ipv4 ++ (newcomers p.ipv4.addrs roster.ipv4).map (⟨·, none⟩),
        p.ipv6 ++ (newcomers p.ipv6.addrs roster.ipv6).map (⟨·, none⟩)⟩)

theorem settle_some (boot : Roster) (p : Pool) (n : Nat) (roster : Roster) :
    settle boot p n (some roster) = (.ok (boot.union roster), p.add roster.ipv4 roster.ipv6) := by
  rw [settle, Roster.union, Pool.add, appendUnique_eq, appendUnique_eq, Endpoints.merge_eq,
    Endpoints.merge_eq]

theorem settle_failed_iff {boot : Roster} {p : Pool} {n : Nat} {offer : Option Roster} :
    (settle boot p n offer).1 = .error (.bootstrapFailed n) ↔ offer = none := by
  cases offer <;> simp [settle]

theorem bootstrap_apply (S : Services τ) (c : ClientConfig) (boot : Roster) (p : Pool) (w : τ) :
    bootstrap S c boot (p, w)
      = let servers := order S boot w
        let found := walk S c servers.1 servers.2.2
        let outcome := settle boot p servers.1.length found.1
        (outcome.1, servers.2.1 ++ found.2.1, (outcome.2, found.2.2)) := by
  simp only [bootstrap, Action.bind_apply, Action.beside_apply]
  cases (walk S c (order S boot w).1 (order S boot w).2.2).1 with
  | none => simp [settle]
  | some roster => simp [learn, settle_some]

theorem order_of_nil {boot : Roster} {w : τ} (h : boot.candidates (S.stack w).1 = []) :
    order S boot w = ([], [.detected (S.stack w).1], (S.stack w).2) := by
  simp [order, orderOn, detect, h]

theorem order_of_cons {boot : Roster} {w : τ} (h : boot.candidates (S.stack w).1 ≠ []) :
    order S boot w
      = let candidates := boot.candidates (S.stack w).1
        let drawn := S.chance candidates.length (S.stack w).2
        (candidates.rotateLeft drawn.1, [.detected (S.stack w).1], drawn.2) := by
  simp [order, orderOn, detect, h]

theorem mem_order {boot : Roster} {w : τ} {server : String} :
    server ∈ (order S boot w).1 ↔ server ∈ boot.candidates (S.stack w).1 := by
  by_cases h : boot.candidates (S.stack w).1 = []
  · rw [order_of_nil h, h]
  · rw [order_of_cons h]
    simp only [rotateLeft_eq_rotate, List.mem_rotate]

/-- A walk has no use for chance. -/
theorem walk_chance (chance : Nat → τ → Nat × τ) : ∀ servers : List String,
    walk { S with chance } c servers = walk S c servers
  | [] => rfl
  | server :: rest => by
    rw [walk, walk, walk_chance chance rest]
    rfl

theorem isOk_bootstrap {good : String → Prop} {boot : Roster} {w : τ}
    (h : ∀ server ∈ boot.candidates (S.stack w).1, ∀ w v w', Visited S c server w v w' →
      (v.offer.isSome ↔ good server)) (p : Pool) (chance : Nat → τ → Nat × τ) :
    (bootstrap { S with chance } c boot (p, w)).1.isOk
      ↔ ∃ server ∈ boot.candidates (S.stack w).1, good server := by
  have hmem : ∀ server, server ∈ (order { S with chance } boot w).1
      ↔ server ∈ boot.candidates (S.stack w).1 := fun _ => mem_order
  have hsome := isSome_walk (fun server hs => h server ((hmem server).1 hs))
    (order { S with chance } boot w).2.2
  simp only [hmem] at hsome
  rw [← walk_chance chance] at hsome
  rw [bootstrap_apply, ← hsome]
  dsimp only
  cases (walk { S with chance } c _ _).1 <;> simp [settle, Except.isOk, Except.toBool]

end Bootstrap

namespace Client

variable {τ : Type}

/-- A client's bootstrap leaves the cache alone and takes the boot servers over from the one that it
runs. -/
theorem bootstrap_apply (S : Services τ) (c : Client) (cache : Cache) (p : Pool) (boot : Roster)
    (w : τ) :
    bootstrap S c (cache, p, boot, w)
      = let out := Bootstrap.bootstrap S c.config boot (p, w)
        (out.1.map fun _ => (), out.2.1,
          (cache, out.2.2.1, out.1.toOption.getD boot, out.2.2.2)) := by
  have hbeside : Bootstrap.bootstrap (Services.beside S) c.config boot (p, boot, w)
      = let out := Bootstrap.bootstrap S c.config boot (p, w)
        (out.1, out.2.1, (out.2.2.1, boot, out.2.2.2)) := by
    obtain ⟨hvalue, hevents, hpool, hworld⟩ := Bootstrap.bootstrap_mirrors c.config
      (S.accords_beside boot) boot (p, boot, w) (p, w) ⟨rfl, rfl⟩
    exact Prod.ext hvalue (Prod.ext hevents (Prod.ext hpool hworld))
  simp only [bootstrap, bootServers, Action.bind_apply, Action.read_apply, Action.beside_apply,
    hbeside]
  cases hout : (Bootstrap.bootstrap S c.config boot (p, w)).1 with
  | error e => simp [Except.map, Except.toOption]
  | ok known =>
    obtain ⟨roster, -, -, rfl, -⟩ := Bootstrap.bootstrap_ok hout
    simp [absorb, Except.map, Except.toOption, Roster.union_snapshot (.refl boot)]

end Client

namespace Bootstrap

variable {τ : Type}

/-- A bootstrap asks the boot servers for the stack at positions that follow one another round the
end, from the one that chance draws, none of them twice, and stops at the first one that offers a
list. What is new of the list is appended to the boot servers and to the pool. It fails if and only
if all have been asked and offered nothing, and then neither has changed; without any boot server
for the stack none is asked. Where each boot server keeps to what it does, it succeeds wherever it
begins, or nowhere. A client's bootstrap comes to the same. -/
theorem bootstrap_tours (S : Services τ) (c : ClientConfig) (boot : Roster) (p : Pool) (w : τ) :
    let stack := (S.stack w).1
    let candidates := boot.candidates stack
    let n := candidates.length
    let drawn := S.chance n (S.stack w).2
    let out := bootstrap S c boot (p, w)
    (candidates = [] →
        out = (.error (.bootstrapFailed 0), [.detected stack], (p, (S.stack w).2)))
      ∧ (candidates ≠ [] → ∃ visits offer w',
        Tour S c ((positions drawn.1 n visits.length).filterMap (candidates[·]?)) drawn.2 visits w'
          ∧ (positions drawn.1 n visits.length).Nodup ∧ visits.length ≤ n
          ∧ Searched n visits offer ∧ (out.1, out.2.2.1) = settle boot p n offer
          ∧ (out.1 = .error (.bootstrapFailed n)
            ↔ visits.length = n ∧ ∀ v ∈ visits, v.offer = none)
          ∧ out.2.1 = .detected stack :: asked visits ∧ out.2.2.2 = w')
      ∧ (∀ good : String → Prop, (∀ server ∈ candidates, ∀ w v w', Visited S c server w v w' →
          (v.offer.isSome ↔ good server)) → ∀ chance,
            (bootstrap { S with chance } c boot (p, w)).1.isOk ↔ ∃ server ∈ candidates, good server)
      ∧ ∀ (cache : Cache) (h : c.fault? = none), Client.bootstrap S ⟨c, h⟩ (cache, p, boot, w)
        = (out.1.map fun _ => (), out.2.1,
          (cache, out.2.2.1, out.1.toOption.getD boot, out.2.2.2)) := by
  intro stack candidates n drawn out
  refine ⟨fun hnil => ?_, fun hne => ?_, fun good hgood chance => isOk_bootstrap hgood p chance,
    fun cache h => Client.bootstrap_apply S ⟨c, h⟩ cache p boot w⟩
  · show bootstrap S c boot (p, w) = _
    rw [bootstrap_apply, order_of_nil hnil]
    rfl
  · obtain ⟨visits, w', htour, hlen, hsearched, hwalk⟩ :=
      walk_tours (S := S) (c := c) (candidates.rotateLeft drawn.1) drawn.2
    have hlength : (candidates.rotateLeft drawn.1).length = n := by
      rw [rotateLeft_eq_rotate, List.length_rotate]
    rw [hlength] at hlen hsearched
    rw [take_rotateLeft _ _ hlen] at htour
    have hout : out = ((settle boot p n (walk S c (candidates.rotateLeft drawn.1) drawn.2).1).1,
        .detected stack :: asked visits,
        ((settle boot p n (walk S c (candidates.rotateLeft drawn.1) drawn.2).1).2, w')) := by
      show bootstrap S c boot (p, w) = _
      rw [bootstrap_apply, order_of_cons hne]
      dsimp only
      rw [hwalk, hlength]
      rfl
    rw [hout]
    exact ⟨visits, _, w', htour, nodup_positions drawn.1 hlen, hlen, hsearched, rfl,
      settle_failed_iff.trans hsearched.none_iff, rfl, rfl⟩

/-- Of three boot servers the last one is asked first and is silent, the first one lists nothing,
and the second one lists one server that is known and one that is not. -/
theorem bootstrap_tours_round :
    let answer (e : Exchange) : Reply :=
      if e.server = "192.0.2.3" then .error (.timeout 2500)
      else if e.server = "192.0.2.1" then .ok ⟨statusOk, "\x7b\x7d", 8⟩
      else .ok ⟨statusOk, "\x7b\"service_ip\":[\"192.0.2.1\",\"192.0.2.53\"]\x7d", 8⟩
    let S := { (Services.steady (fun _ => none) answer fun _ => none).withJson with
      chance := fun _ w => (2, w) }
    let c : ClientConfig := { accountId := "100000" }
    let boot : Roster := ⟨["192.0.2.1", "192.0.2.2", "192.0.2.3"], []⟩
    let out := bootstrap S c boot ({}, ())
    (boot.candidates (S.stack ()).1 ≠ [] ∧ ∀ server ∈ boot.candidates (S.stack ()).1,
        ∀ w v w', Visited S c server w v w' → (v.offer.isSome ↔ server = "192.0.2.2"))
      ∧ (∃ visits, Tour S c ["192.0.2.3", "192.0.2.1", "192.0.2.2"] () visits ()
        ∧ out.2.1 = .detected .ipv4Only :: asked visits)
      ∧ out.1 = .ok ⟨["192.0.2.1", "192.0.2.2", "192.0.2.3", "192.0.2.53"], []⟩
      ∧ out.2.2.1 = ⟨[⟨"192.0.2.1", none⟩, ⟨"192.0.2.53", none⟩], []⟩
      ∧ ∀ chance, (bootstrap { S with chance } c boot ({}, ())).1.isOk := by
  intro answer S c boot out
  obtain ⟨-, hasked, hplace, -⟩ := bootstrap_tours S c boot {} ()
  have hgood : ∀ server ∈ boot.candidates (S.stack ()).1,
      ∀ w v w', Visited S c server w v w' → (v.offer.isSome ↔ server = "192.0.2.2") := by
    intro server hserver w v w' hv
    have hserver' : v.exchange.server = server := by rw [hv.exchange_eq]
    have hoffer : v.offer = (listed S (answer v.exchange) ()).1 := by
      rw [hv.offers.eq_listed, hv.reply_eq]
      rfl
    have hthree : server ∈ ["192.0.2.1", "192.0.2.2", "192.0.2.3"] := hserver
    simp only [List.mem_cons, List.not_mem_nil, or_false] at hthree
    simp only [hoffer, answer, hserver']
    rcases hthree with rfl | rfl | rfl <;> decide +kernel
  obtain ⟨visits, _, w', hvisits, -, -, -, -, -, hevents, -⟩ := hasked (by decide)
  have hcount : visits.length = 3 := by
    have hlength : out.2.1.length = 4 := by decide +kernel
    rw [hevents] at hlength
    simpa [asked] using hlength
  have hservers : (positions 2 3 3).filterMap (boot.ipv4[·]?)
      = ["192.0.2.3", "192.0.2.1", "192.0.2.2"] := by decide
  rw [hcount] at hvisits
  have htour : Tour S c ((positions 2 3 3).filterMap (boot.ipv4[·]?)) () visits () := hvisits
  rw [hservers] at htour
  exact ⟨⟨by decide, hgood⟩, ⟨visits, htour, hevents⟩, by decide +kernel, by decide +kernel,
    fun chance => (hplace _ hgood chance).2 ⟨"192.0.2.2", by decide, rfl⟩⟩

end Bootstrap

end HttpDns
