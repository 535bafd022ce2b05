import HttpDns.Proofs.Cells
import Mathlib.Data.List.DropRight

/-!
# The counters of a cache balance

A clearing starts the counters anew, so they tell of the calls since the last one
(`run_sinceClear`). Every lookup is counted once, as a hit, a miss or a partial hit, and each
eviction comes with a miss. Every answer that comes in is counted once, as an insertion or a merge;
and an answer that was inserted is still there, or it was evicted by a lookup, deleted, or
displaced by an update that found it expired (`counters_balance`).
-/

namespace HttpDns

/-- All the counters. -/
def Counters.all (n : Counters) : List Nat :=
  [n.hits, n.misses, n.partialHits, n.lazyDeletions, n.insertions, n.merges]

/-! ## How many entries there are -/

namespace Entries

theorem length_put (key : String) (r : Resolution) : ∀ es : Entries,
    (es.put key r).length + (es.get? key).isSome.toNat = es.length + 1
  | [] => rfl
  | (k, s) :: rest => by
    have ih := length_put key r rest
    by_cases hk : k = key
    · simp [put, get?, hk]
    · simp only [put, get?, hk, if_false, List.length_cons]
      omega

theorem length_erase (key : String) : ∀ es : Entries,
    (es.erase key).length + (es.get? key).isSome.toNat = es.length
  | [] => rfl
  | (k, s) :: rest => by
    have ih := length_erase key rest
    by_cases hk : k = key
    · simp [erase, get?, hk]
    · simp only [erase, get?, hk, if_false, List.length_cons]
      omega

end Entries

namespace Cache

/-! ## Calls that count -/

namespace Op

/-- It asks for an entry. -/
def asks : Op → Bool
  | .lookup .. => true
  | .add _ | .update _ | .delete _ | .rotate _ | .clear => false

/-- It adds an answer and is not refused. -/
def adds (c : Cache) : Op → Bool
  | .add r => (c.add r).isOk
  | .lookup .. | .update _ | .delete _ | .rotate _ | .clear => false

/-- It is an update of an answer that has a key. -/
def updates : Op → Bool
  | .update r => r.cacheKey ≠ ""
  | .lookup .. | .add _ | .delete _ | .rotate _ | .clear => false

/-- It deletes an entry that is there. -/
def deletes (c : Cache) : Op → Bool
  | .delete key => (c.delete key).1
  | .lookup .. | .add _ | .update _ | .rotate _ | .clear => false

/-- It is an update that puts its answer in the place of an expired entry. -/
def displaces (c : Cache) : Op → Bool
  | .update r =>
    r.cacheKey ≠ "" && (c.entries.get? r.cacheKey).any (·.isExpiredAt r.learnedAt)
  | .lookup .. | .add _ | .delete _ | .rotate _ | .clear => false

end Op

/-- The calls in turn, each with the cache it comes to. -/
def visits : Cache → List Op → List (Cache × Op)
  | _, [] => []
  | c, op :: rest => (c, op) :: visits (c.apply op) rest

/-- How many of some calls on a new cache are of a kind, each judged by the cache it comes to. -/
def tally (ops : List Op) (kind : Cache → Op → Bool) : Nat :=
  (visits {} ops).countP fun v => kind v.1 v.2

theorem visits_append : ∀ (ops more : List Op) (c : Cache),
    visits c (ops ++ more) = visits c ops ++ visits (ops.foldl apply c) more
  | [], _, _ => rfl
  | op :: ops, more, c => by
    rw [List.cons_append, visits, visits_append ops more (c.apply op)]
    rfl

theorem tally_snoc (ops : List Op) (op : Op) (kind : Cache → Op → Bool) :
    tally (ops ++ [op]) kind = tally ops kind + (kind (run ops) op).toNat := by
  unfold tally
  rw [visits_append, List.countP_append, Nat.add_left_cancel_iff]
  show [(run ops, op)].countP _ = _
  cases h : kind (run ops) op <;> simp [h]

/-! ## What a call counts -/

/-- What a call adds to the counters that has made a cache of another one: so many lookups, so many
answers that came in, and so many entries that went neither by a lookup nor by a clearing. -/
structure Counts (c c' : Cache) (asked entered gone : Nat) : Prop where
  asked : c'.counters.hits + c'.counters.misses + c'.counters.partialHits
    = c.counters.hits + c.counters.misses + c.counters.partialHits + asked
  evicted : c'.counters.lazyDeletions + c.counters.misses
    ≤ c.counters.lazyDeletions + c'.counters.misses
  entered : c'.counters.insertions + c'.counters.merges
    = c.counters.insertions + c.counters.merges + entered
  kept : c'.counters.insertions + c.size + c.counters.lazyDeletions
    = c.counters.insertions + c'.size + c'.counters.lazyDeletions + gone

theorem Counts.of_unchanged {c c' : Cache} (hcounters : c'.counters = c.counters)
    (hsize : c'.size = c.size) : Counts c c' 0 0 0 := by
  constructor <;> rw [hcounters] <;> omega

theorem lookup_counts (c : Cache) (key : String) (type : QueryType) (now : Nat) :
    Counts c (c.lookup key type now).2 1 0 0 := by
  unfold lookup
  cases hg : c.entries.get? key with
  | none => constructor <;> simp only [countMiss, size] <;> omega
  | some r =>
    cases he : r.isExpiredAt now with
    | true =>
      have hlen : (c.entries.erase key).length + 1 = c.entries.length := by
        simpa [hg] using Entries.length_erase key c.entries
      simp only [he, if_true]
      constructor <;> simp only [evict, countMiss, size] <;> omega
    | false =>
      cases hu : usable r type <;> cases hs : r.satisfies type <;>
        simp only [he, hu, hs, Bool.false_eq_true, if_true, if_false] <;>
        constructor <;>
          simp only [countMiss, countFound, size, Bool.false_eq_true, if_true, if_false] <;>
          omega

theorem add_counts (c : Cache) (r : Resolution) :
    Counts c (c.apply (.add r)) 0 ((Op.add r).adds c).toNat 0 := by
  simp only [apply, Op.adds, add]
  by_cases hk : r.cacheKey = ""
  · simp only [if_pos hk]
    exact .of_unchanged rfl rfl
  · have hlen := Entries.length_put r.cacheKey r c.entries
    simp only [if_neg hk]
    cases hg : c.entries.get? r.cacheKey with
    | some stored => exact .of_unchanged rfl rfl
    | none =>
      rw [hg, Option.isSome_none, Bool.toNat_false] at hlen
      constructor <;>
        simp only [countInsertion, size, Except.isOk, Except.toBool, Bool.toNat_true] <;> omega

theorem update_counts (c : Cache) (r : Resolution) :
    Counts c (c.update r) 0 (Op.update r).updates.toNat
      ((Op.update r).displaces c).toNat := by
  simp only [Op.updates, Op.displaces, update]
  by_cases hk : r.cacheKey = ""
  · simp only [hk, if_true]
    exact .of_unchanged rfl rfl
  · have hkey : decide (r.cacheKey ≠ "") = true := decide_eq_true hk
    simp only [if_neg hk, hkey, Bool.true_and]
    cases hg : c.entries.get? r.cacheKey with
    | none =>
      have hlen := Entries.length_put r.cacheKey r c.entries
      rw [hg, Option.isSome_none, Bool.toNat_false] at hlen
      constructor <;>
        simp only [countInsertion, size, Option.any_none, Bool.toNat_true, Bool.toNat_false] <;>
        omega
    | some stored =>
      have hlen : ∀ e, (c.entries.put r.cacheKey e).length = c.entries.length := fun e => by
        simpa [hg] using Entries.length_put r.cacheKey e c.entries
      cases he : stored.isExpiredAt r.learnedAt <;>
        simp only [he, Bool.false_eq_true, if_true, if_false] <;>
        constructor <;>
          simp only [countInsertion, size, hlen, Option.any_some, he, Bool.toNat_true,
            Bool.toNat_false] <;>
          omega

theorem delete_counts (c : Cache) (key : String) :
    Counts c (c.delete key).2 0 0 ((Op.delete key).deletes c).toNat := by
  have hlen := Entries.length_erase key c.entries
  constructor <;> simp only [delete, Op.deletes, size] <;> omega

theorem rotate_counts (c : Cache) (key : String) : Counts c (c.rotate key) 0 0 0 := by
  unfold rotate
  cases hg : c.entries.get? key with
  | none => exact .of_unchanged rfl rfl
  | some r =>
    have hlen := Entries.length_put key r.rotate c.entries
    rw [hg, Option.isSome_some, Bool.toNat_true, Nat.add_right_cancel_iff] at hlen
    exact .of_unchanged rfl hlen

theorem apply_counts (c : Cache) {op : Op} (hop : op ≠ .clear) :
    Counts c (c.apply op) op.asks.toNat ((op.adds c).toNat + op.updates.toNat)
      ((op.deletes c).toNat + (op.displaces c).toNat) := by
  cases op with
  | lookup key type now => exact lookup_counts c key type now
  | add r => exact add_counts c r
  | update r =>
    have h := update_counts c r
    rwa [← Nat.zero_add (Op.updates _).toNat, ← Nat.zero_add (Op.displaces _ _).toNat] at h
  | delete key => exact delete_counts c key
  | rotate key => exact rotate_counts c key
  | clear => exact absurd rfl hop

/-! ## The balance -/

/-- The counters of a cache agree with the calls that were made on it when it was new. -/
structure Balanced (ops : List Op) (c : Cache) : Prop where
  asked : c.counters.hits + c.counters.misses + c.counters.partialHits
    = tally ops fun _ => Op.asks
  evicted : c.counters.lazyDeletions ≤ c.counters.misses
  entered : c.counters.insertions + c.counters.merges
    = tally ops Op.adds + tally ops fun _ => Op.updates
  kept : c.counters.insertions
    = c.size + c.counters.lazyDeletions + tally ops Op.deletes + tally ops Op.displaces

theorem Op.adds_add_updates_le (c : Cache) (op : Op) :
    (op.adds c).toNat + op.updates.toNat ≤ 1 := by
  cases op with
  | add r | update r => simpa [adds, updates] using Bool.toNat_le _
  | lookup | delete | rotate | clear => simp [adds, updates]

theorem Balanced.snoc {ops : List Op} (h : Balanced ops (run ops)) {op : Op} (hop : op ≠ .clear) :
    Balanced (ops ++ [op]) ((run ops).apply op) := by
  obtain ⟨hasked, hevicted, hentered, hkept⟩ := h
  obtain ⟨hasked', hevicted', hentered', hkept'⟩ := apply_counts (run ops) hop
  constructor
  · rw [tally_snoc]
    omega
  · omega
  · rw [tally_snoc, tally_snoc]
    omega
  · rw [tally_snoc, tally_snoc]
    omega

theorem run_snoc (ops : List Op) (op : Op) : run (ops ++ [op]) = (run ops).apply op := by
  rw [run, run, List.foldl_append]
  rfl

theorem run_balanced (ops : List Op) (hclear : .clear ∉ ops) : Balanced ops (run ops) := by
  induction ops using List.reverseRecOn with
  | nil => constructor <;> simp [run, tally, visits, size]
  | append_singleton ops op ih =>
    simp only [List.mem_append, List.mem_singleton, not_or] at hclear
    rw [run_snoc]
    exact (ih hclear.1).snoc (Ne.symm hclear.2)

/-- The calls after the last clearing; all of them if there was none. -/
def sinceClear (ops : List Op) : List Op :=
  ops.rtakeWhile (· ≠ .clear)

theorem sinceClear_snoc (ops : List Op) (op : Op) :
    sinceClear (ops ++ [op]) = if op = .clear then [] else sinceClear ops ++ [op] := by
  by_cases hop : op = .clear <;> simp [sinceClear, hop]

theorem clear_not_mem_sinceClear (ops : List Op) : .clear ∉ sinceClear ops := fun h => by
  simpa using List.mem_rtakeWhile_imp h

/-- A cache stands as if it were new at the last clearing. -/
theorem run_sinceClear (ops : List Op) : run (sinceClear ops) = run ops := by
  induction ops using List.reverseRecOn with
  | nil => rfl
  | append_singleton ops op ih =>
    rw [sinceClear_snoc, run_snoc]
    split
    · rename_i hop
      rw [hop]
      rfl
    · rw [run_snoc, ih]

theorem length_visits : ∀ (ops : List Op) (c : Cache), (visits c ops).length = ops.length
  | [], _ => rfl
  | op :: ops, c => congrArg (· + 1) (length_visits ops (c.apply op))

theorem tally_le (ops : List Op) (kind : Cache → Op → Bool) : tally ops kind ≤ ops.length :=
  List.countP_le_length.trans (length_visits ops {}).le

theorem tally_adds_updates_le (ops : List Op) :
    tally ops Op.adds + tally ops (fun _ => Op.updates) ≤ ops.length := by
  induction ops using List.reverseRecOn with
  | nil => simp [tally, visits]
  | append_singleton ops op ih =>
    have hop := Op.adds_add_updates_le (run ops) op
    rw [tally_snoc, tally_snoc, List.length_append, List.length_singleton]
    omega

theorem Balanced.le_length {ops : List Op} {c : Cache} (h : Balanced ops c) :
    ∀ count ∈ c.counters.all, count ≤ ops.length := by
  obtain ⟨hasked, hevicted, hentered, -⟩ := h
  have hlookups := tally_le ops fun _ => Op.asks
  have hanswers := tally_adds_updates_le ops
  intro count hcount
  simp only [Counters.all, List.mem_cons, List.not_mem_nil, or_false] at hcount
  rcases hcount with rfl | rfl | rfl | rfl | rfl | rfl <;> omega

/-- What a cache has counted since it was last cleared balances: the lookups, the answers that came
in and the entries that are there. No counter goes beyond the number of these calls, so 64 bits
hold it as long as they are fewer than `2 ^ 64`. -/
theorem counters_balance (ops : List Op) :
    let recent := sinceClear ops
    let c := run ops
    let n := c.counters
    n.hits + n.misses + n.partialHits = tally recent (fun _ => Op.asks)
      ∧ n.lazyDeletions ≤ n.misses
      ∧ n.insertions + n.merges = tally recent Op.adds + tally recent (fun _ => Op.updates)
      ∧ n.insertions
        = c.size + n.lazyDeletions + tally recent Op.deletes + tally recent Op.displaces
      ∧ ∀ count ∈ n.all, count ≤ recent.length := by
  intro recent c n
  have hbalanced : Balanced recent c := by
    have h := run_balanced recent (clear_not_mem_sinceClear ops)
    rwa [run_sinceClear] at h
  exact ⟨hbalanced.asked, hbalanced.evicted, hbalanced.entered, hbalanced.kept,
    hbalanced.le_length⟩

/-- The lookup before the clearing is not counted, and of the two insertions after it one is
displaced and the other evicted. -/
theorem counters_balance_evicted :
    let r : Resolution :=
      { host := "a.com", cacheKey := "a.com", ips := [⟨"192.0.2.1", none⟩], ttl := 10 }
    let ops : List Op := [.add r, .lookup "a.com" .both 0, .clear, .update r,
      .update { r with learnedAt := 10000 }, .lookup "a.com" .a 20000]
    let c := run ops
    let recent := sinceClear ops
    c.counters = { misses := 1, lazyDeletions := 1, insertions := 2 }
      ∧ c.counters.insertions
        = c.size + c.counters.lazyDeletions + tally recent Op.deletes + tally recent Op.displaces
      ∧ (c.size = 0 ∧ tally recent Op.deletes = 0 ∧ tally recent Op.displaces = 1)
      ∧ c.counters.misses ≤ recent.length := by
  intro r ops c recent
  have hcounters : c.counters = { misses := 1, lazyDeletions := 1, insertions := 2 } := by
    decide +kernel
  have hends : c.size = 0 ∧ tally recent Op.deletes = 0 ∧ tally recent Op.displaces = 1 := by
    decide +kernel
  have hbalance := counters_balance ops
  have hmisses : c.counters.misses ∈ c.counters.all := by simp [Counters.all]
  with_reducible exact ⟨hcounters, hbalance.2.2.2.1, hends, hbalance.2.2.2.2 _ hmisses⟩

end Cache

end HttpDns
