import HttpDns.Client
import HttpDns.Proofs.Cells
import HttpDns.Proofs.Upkeep

/-!
# Caches over fixed records

Where every answer comes from fixed records of the addresses that each host owns, no entry of a
cache has a family that its host does not own: no operation of the cache brings one in
(`Faithful.update`, `Faithful.lookup`, `Faithful.rotate`). A pool keeps its addresses whatever it
learns about them. A client's own services so keep both (`maintains_services`).
-/

namespace HttpDns

/-- The addresses that each host owns. -/
structure Records where
  ipv4 : String → List String
  ipv6 : String → List String

namespace Records

/-- The host owns addresses of a family that the type asks for. -/
def Owns (R : Records) (host : String) (type : QueryType) : Prop :=
  type.wantsIpv4 = true ∧ R.ipv4 host ≠ [] ∨ type.wantsIpv6 = true ∧ R.ipv6 host ≠ []

/-- The host owns addresses of exactly one family. -/
def OneFamily (R : Records) (host : String) : Prop :=
  R.ipv4 host = [] ↔ R.ipv6 host ≠ []

instance (R : Records) (host : String) : Decidable (R.OneFamily host) :=
  inferInstanceAs (Decidable (_ ↔ _))

/-- What is answered about a host to who asks for a type; an answer may leave out its host. -/
structure Answers (R : Records) (host : String) (type : QueryType) (a : Answer) : Prop where
  host_eq : a.host = host ∨ a.host = ""
  ips_eq : a.ips = if type.wantsIpv4 then R.ipv4 host else []
  ipsv6_eq : a.ipsv6 = if type.wantsIpv6 then R.ipv6 host else []

/-- The host owns the families of the resolution. -/
def Backs (R : Records) (host : String) (r : Resolution) : Prop :=
  (r.ips ≠ [] → R.ipv4 host ≠ []) ∧ (r.ipsv6 ≠ [] → R.ipv6 host ≠ [])

end Records

/-! ## The cache -/

/-- The host under whose name an entry is kept owns its families. -/
def Faithful (R : Records) (c : Cache) : Prop :=
  ∀ e ∈ c.entries, R.Backs e.1 e.2

namespace Faithful

variable {R : Records} {c : Cache}

theorem of_get? (h : Faithful R c) {key : String} {r : Resolution}
    (hr : c.entries.get? key = some r) : R.Backs key r :=
  h _ (Entries.mem_of_get? hr)

theorem put (h : Faithful R c) {key : String} {r : Resolution} (hr : R.Backs key r) :
    ∀ e ∈ c.entries.put key r, R.Backs e.1 e.2 := by
  intro e he
  rcases Entries.mem_put he with rfl | he
  · exact hr
  · exact h e he

theorem backs_refresh {host : String} {stored update : Resolution} (hs : R.Backs host stored)
    (hu : R.Backs host update) : R.Backs host (Cache.refresh stored update) := by
  unfold Cache.refresh Resolution.fillGaps
  constructor
  · intro hne
    dsimp only at hne
    split at hne
    · exact hu.1 hne
    · exact hs.1 hne
  · intro hne
    dsimp only at hne
    split at hne
    · exact hu.2 hne
    · exact hs.2 hne

theorem rotate_eq_nil {l : Endpoints} : l.rotate = [] ↔ l = [] := by
  cases l <;> simp [Endpoints.rotate]

theorem backs_rotate {host : String} {r : Resolution} (h : R.Backs host r) :
    R.Backs host r.rotate := by
  unfold Records.Backs Resolution.rotate
  simp only [Ne, rotate_eq_nil]
  exact h

theorem update (h : Faithful R c) {r : Resolution} (hr : R.Backs r.cacheKey r) :
    Faithful R (c.update r) := by
  unfold Cache.update
  split
  · exact h
  · split
    · exact h.put hr
    · rename_i stored hg
      split
      · exact h.put hr
      · exact h.put (backs_refresh (h.of_get? hg) hr)

theorem rotate (h : Faithful R c) (key : String) : Faithful R (c.rotate key) := by
  unfold Cache.rotate
  split
  · exact h
  · rename_i r hg
    exact h.put (backs_rotate (h.of_get? hg))

theorem lookup (h : Faithful R c) (key : String) (type : QueryType) (now : Nat) :
    Faithful R (c.lookup key type now).2 := by
  unfold Cache.lookup
  split
  · exact h
  · split
    · exact fun e he => h e (Entries.mem_erase he)
    · split
      · exact h
      · exact h

end Faithful

/-! ## The pool -/

namespace Pool

/-- The pools have the same addresses in the same order. -/
def SameServers (p p' : Pool) : Prop :=
  p.ipv4.addrs = p'.ipv4.addrs ∧ p.ipv6.addrs = p'.ipv6.addrs

theorem addrs_modify (addr : String) (sample : UInt32) : ∀ l : Endpoints,
    (l.modify addr (measured sample)).addrs = l.addrs
  | [] => rfl
  | x :: rest => by
    have ih := addrs_modify addr sample rest
    unfold Endpoints.addrs at ih ⊢
    rw [Endpoints.modify]
    split
    · rfl
    · rw [List.map_cons, ih, List.map_cons]

theorem SameServers.update {p p' : Pool} (h : SameServers p p') (addr : String)
    (sample : UInt32) : SameServers p (p'.update addr sample) := by
  unfold Pool.update
  split
  · exact ⟨by rw [addrs_modify]; exact h.1, h.2⟩
  · exact ⟨h.1, by rw [addrs_modify]; exact h.2⟩

theorem addrs_eq_nil {l : Endpoints} : l.addrs = [] ↔ l = [] := List.map_eq_nil_iff

theorem SameServers.isEmpty_eq {p p' : Pool} (h : SameServers p p') :
    p'.isEmpty = p.isEmpty := by
  have h4 : p'.ipv4 = [] ↔ p.ipv4 = [] := by rw [← addrs_eq_nil, ← h.1, addrs_eq_nil]
  have h6 : p'.ipv6 = [] ↔ p.ipv6 = [] := by rw [← addrs_eq_nil, ← h.2, addrs_eq_nil]
  unfold Pool.isEmpty
  rw [Bool.eq_iff_iff]
  simp [h4, h6]

theorem SameServers.servers_eq_nil {p p' : Pool} (h : SameServers p p') (stack : Stack) :
    p'.servers stack = [] ↔ p.servers stack = [] := by
  rw [← addrs_eq_nil, ← addrs_eq_nil]
  cases stack <;> simp only [servers, h.1, h.2]

theorem fastest_eq_none : ∀ {l : Endpoints}, l.fastest = none ↔ l = []
  | [] => by simp [Endpoints.fastest]
  | x :: rest => by
    rw [Endpoints.fastest]
    cases Endpoints.fastest rest with
    | none => simp
    | some y => cases h : y.before x <;> simp [h]

theorem pick_eq_none {p : Pool} {stack : Stack} : p.pick stack = none ↔ p.servers stack = [] :=
  fastest_eq_none

end Pool

/-! ## A client's services -/

namespace Client

variable {τ : Type}

/-- The state of a client over fixed records whose servers are those of a pool. -/
def Upkept (R : Records) (p : Pool) (s : State τ) : Prop :=
  Faithful R s.1 ∧ p.SameServers s.2.1

/-- A client's services keep its cache faithful and its servers, if only what hosts own is
cached. -/
theorem maintains_services (S : Services τ) (R : Records) (p : Pool) :
    (services S).Maintains (Upkept R p) fun r => R.Backs r.cacheKey r where
  stack h := h
  pick h := h
  pickOther _ _ h := h
  sample addr ms _ h := ⟨h.1, h.2.update addr ms⟩
  lookup key type _ h := ⟨h.1.lookup key type _, h.2⟩
  rotate key _ h := ⟨h.1.rotate key, h.2⟩
  store _ _ hr h := ⟨h.1.update hr, h.2⟩
  sendAll _ _ h := h
  readSingle _ _ h := h
  readMulti _ _ h := h

end Client

end HttpDns
