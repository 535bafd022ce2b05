import HttpDns.Proofs.Failover

/-!
# Which server is drawn

A draw hands out the first listed server that none other precedes, one that is not measured before
all that are. A draw that avoids an address is the draw from the pool without it, unless that leaves
the stack no server (`draws_select`). A draw changes nothing in the pool.
-/

namespace HttpDns

namespace Endpoint

variable {x y : Endpoint}

/-- The round-trip time is the less one, or not measured where the other one is. -/
def Precedes (x y : Endpoint) : Prop :=
  match x.rtt, y.rtt with
  | none, some _ => True
  | some r, some s => r < s
  | _, none => False

theorem precedes_iff : x.Precedes y ↔ x.rank < y.rank := by
  obtain ⟨_, _ | r⟩ := x <;> obtain ⟨_, _ | s⟩ := y <;>
    simp [Precedes, rank, UInt32.lt_iff_toNat_lt]

instance (x y : Endpoint) : Decidable (x.Precedes y) :=
  decidable_of_iff (x.rank < y.rank) precedes_iff.symm

end Endpoint

namespace Endpoints

variable {l : Endpoints} {e : Endpoint}

/-- The first endpoint that none of the list precedes. -/
def first (l : Endpoints) : Option Endpoint :=
  l.find? fun e => ∀ y ∈ l, ¬ y.Precedes e

theorem Foremost.first_eq (h : l.Foremost e) : l.first = some e := by
  obtain ⟨front, back, rfl, hfront, hback⟩ := h
  have hnone : ∀ y ∈ front, ¬ ∀ z ∈ front ++ e :: back, ¬ z.Precedes y := by
    intro y hy hleast
    exact hleast e (by simp) (Endpoint.precedes_iff.2 (hfront y hy))
  have hleast : ∀ z ∈ front ++ e :: back, ¬ z.Precedes e := by
    intro z hz
    rw [Endpoint.precedes_iff]
    rcases List.mem_append.1 hz with hz | hz
    · have := hfront z hz
      omega
    · rcases List.mem_cons.1 hz with rfl | hz
      · omega
      · have := hback z hz
        omega
  refine List.find?_eq_some_iff_append.2 ⟨by simpa using hleast, front, back, rfl, fun y hy => ?_⟩
  simpa using hnone y hy

theorem fastest_eq_first (l : Endpoints) : l.fastest = l.first := by
  cases h : l.fastest with
  | none =>
    obtain rfl := Pool.fastest_eq_none.1 h
    rfl
  | some e => exact (foremost_of_fastest h).first_eq.symm

end Endpoints

namespace Pool

variable {p : Pool} {stack : Stack} {addr : String}

/-- The pool without the servers at an address. -/
def without (p : Pool) (addr : String) : Pool :=
  ⟨p.ipv4.filter (·.addr ≠ addr), p.ipv6.filter (·.addr ≠ addr)⟩

theorem servers_without (p : Pool) (stack : Stack) (addr : String) :
    (p.without addr).servers stack = (p.servers stack).filter (·.addr ≠ addr) := by
  cases stack <;> rfl

theorem pickOther_eq (p : Pool) (stack : Stack) (addr : String) : p.pickOther stack addr
    = if (p.without addr).servers stack = [] then p.pick stack
      else (p.without addr).pick stack := by
  rw [pickOther, pick, pick, servers_without]
  cases h : Endpoints.fastest ((p.servers stack).filter (·.addr ≠ addr)) with
  | none => rw [if_pos (fastest_eq_none.1 h)]
  | some e =>
    have hne : (p.servers stack).filter (·.addr ≠ addr) ≠ [] := by
      rw [Ne, ← fastest_eq_none, h]
      exact Option.some_ne_none e
    rw [if_neg hne]

theorem pickOther_eq_none : p.pickOther stack addr = none ↔ p.pick stack = none := by
  rw [pickOther_eq]
  split
  · rfl
  · rename_i hleft
    refine iff_of_false (fun h => hleft (pick_eq_none.1 h)) fun h => hleft ?_
    rw [servers_without, pick_eq_none.1 h, List.filter_nil]

/-- Whatever the stack is told to be and whatever the pool lists, a draw is the first of the stack's
servers that none of them precedes, and there is one unless none is listed. A draw that avoids an
address is the one from the pool without it, or from the whole pool if that leaves the stack no
server; so it fails with the other draw only, and never hands out the address while another one is
listed. Neither changes the pool. -/
theorem draws_select {τ : Type} (S : Services τ) (p : Pool) (w : τ) (addr : String) :
    let stack := (S.stack w).1
    let listed := p.servers stack
    let left := p.without addr
    let drawn := S.withPool.pick (p, w)
    let other := S.withPool.pickOther addr (p, w)
    drawn.1 = listed.find? (fun e => ∀ y ∈ listed, ¬ y.Precedes e)
      ∧ (drawn.1 = none ↔ listed = [])
      ∧ other.1 = (if left.servers stack = [] then drawn.1 else (S.withPool.pick (left, w)).1)
      ∧ (other.1 = none ↔ drawn.1 = none)
      ∧ (∀ e y, other.1 = some e → y ∈ listed → y.addr ≠ addr → e.addr ≠ addr)
      ∧ drawn.2.1 = p ∧ other.2.1 = p := by
  intro stack listed left drawn other
  refine ⟨Endpoints.fastest_eq_first listed, pick_eq_none, pickOther_eq p stack addr,
    pickOther_eq_none, fun e y he hy hne => ?_, rfl, rfl⟩
  exact (takesOver_of_pickOther he).ne hy hne

/-- Of two servers that are not measured the first is drawn, and the second if that one is avoided,
not the measured one before them; a server that is listed alone is drawn though it is avoided. -/
theorem draws_select_unmeasured :
    let S := Services.unheard fun _ => none
    let p : Pool := ⟨[⟨"192.0.2.1", some 0⟩, ⟨"192.0.2.2", none⟩, ⟨"192.0.2.3", none⟩],
      [⟨"2001:db8::1", none⟩]⟩
    (S.withPool.pick (p, ())).1 = some ⟨"192.0.2.2", none⟩
      ∧ (S.withPool.pickOther "192.0.2.2" (p, ())).1 = some ⟨"192.0.2.3", none⟩
      ∧ "192.0.2.3" ≠ "192.0.2.2"
      ∧ (p.without "2001:db8::1").servers .ipv6Only = []
      ∧ p.pickOther .ipv6Only "2001:db8::1" = some ⟨"2001:db8::1", none⟩ := by
  intro S p
  obtain ⟨hdrawn, -, hother, -, havoids, -⟩ := draws_select S p () "192.0.2.2"
  have hsecond : (S.withPool.pickOther "192.0.2.2" (p, ())).1 = some ⟨"192.0.2.3", none⟩ :=
    hother.trans (by decide)
  exact ⟨hdrawn.trans (by decide), hsecond,
    havoids _ ⟨"192.0.2.1", some 0⟩ hsecond (by decide) (by decide), by decide, by decide⟩

end Pool

end HttpDns
