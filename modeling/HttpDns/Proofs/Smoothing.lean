import HttpDns.Proofs.Enlisting
import Mathlib.Algebra.Order.Round
import Mathlib.Data.List.Induction
import Mathlib.Data.Rat.Floor
import Mathlib.Tactic.Ring

/-!
# Smoothed estimates

A sample that is no outlier draws the estimate three tenths of the way, rounded half up
(`Smooths`), and 64-bit words hold all that is worked out for it (`worked_eq`). So the estimate
never leaves the span of the samples it is made from, and neither does that of a server, however
its pool is used (`estimates_smooth`).
-/

namespace HttpDns

namespace Latency

/-! ## One sample -/

/-- What a sample makes of an estimate: it is dropped as an outlier, or else the estimate is the
weighted mean, rounded half up. Either way it stays between the two. -/
structure Smooths (old sample next : UInt32) : Prop where
  dropped : 10 * old.toNat < 3 * sample.toNat → next = old
  floored : 3 * sample.toNat ≤ 10 * old.toNat →
    next.toNat = (3 * sample.toNat + 7 * old.toNat + 5) / 10
  rounded : 3 * sample.toNat ≤ 10 * old.toNat →
    (next.toNat : ℤ) = round ((3 / 10 : ℚ) * sample.toNat + (7 / 10 : ℚ) * old.toNat)
  least : min old sample ≤ next
  greatest : next ≤ max old sample

/-- To round tenths half up is to add five of them and to cut off. -/
theorem round_tenths (n : ℕ) : round ((n : ℚ) / 10) = ((n + 5) / 10 : ℕ) := by
  have hhalf : (n : ℚ) / 10 + 1 / 2 = ((n + 5 : ℕ) : ℚ) / ((10 : ℕ) : ℚ) := by
    push_cast
    ring
  rw [round_eq, hhalf, Rat.floor_natCast_div_natCast]
  rfl

/-- An estimate and a sample within some bounds come to an estimate within them. -/
theorem estimate_within {lo hi old sample : UInt32} (hold : lo ≤ old ∧ old ≤ hi)
    (hsample : lo ≤ sample ∧ sample ≤ hi) :
    lo ≤ estimate (some old) sample ∧ estimate (some old) sample ≤ hi := by
  by_cases hout : 10 * old.toNat < 3 * sample.toNat
  · rw [estimate_of_outlier hout]
    exact hold
  · have hmean := toNat_estimate (not_lt.1 hout)
    simp only [UInt32.le_iff_toNat_le] at hold hsample ⊢
    omega

theorem smooths_estimate (old sample : UInt32) :
    Smooths old sample (estimate (some old) sample) where
  dropped := estimate_of_outlier
  floored := toNat_estimate
  rounded h := by
    have hsum : (3 / 10 : ℚ) * sample.toNat + (7 / 10 : ℚ) * old.toNat
        = ((3 * sample.toNat + 7 * old.toNat : ℕ) : ℚ) / 10 := by
      push_cast
      ring
    rw [hsum, round_tenths, toNat_estimate h]
  least := (estimate_within ⟨Std.min_le_left, Std.left_le_max⟩
    ⟨Std.min_le_right, Std.right_le_max⟩).1
  greatest := (estimate_within ⟨Std.min_le_left, Std.left_le_max⟩
    ⟨Std.min_le_right, Std.right_le_max⟩).2

/-- Where the sample is an outlier for the lower estimate only, the mean with the higher one is
above the sample's tenths, which are above the lower one. -/
theorem estimate_mono {old old' : UInt32} (h : old ≤ old') (sample : UInt32) :
    estimate (some old) sample ≤ estimate (some old') sample := by
  rw [UInt32.le_iff_toNat_le] at h ⊢
  by_cases hout : 10 * old.toNat < 3 * sample.toNat
  · rw [estimate_of_outlier hout]
    by_cases hout' : 10 * old'.toNat < 3 * sample.toNat
    · rwa [estimate_of_outlier hout']
    · have hmean' := toNat_estimate (not_lt.1 hout')
      omega
  · have hmean := toNat_estimate (not_lt.1 hout)
    have hmean' := @toNat_estimate old' sample (by omega)
    omega

theorem estimate_self (e : UInt32) : estimate (some e) e = e := by
  have hmean := @toNat_estimate e e (by omega)
  rw [← UInt32.toNat_inj]
  omega

/-! ## In 64-bit words -/

/-- The product of two words, unless it is greater than any word. -/
def mul? (a b : UInt64) : Option UInt64 :=
  if a.toNat * b.toNat < UInt64.size then some (a * b) else none

/-- The sum of two words, unless it is greater than any word. -/
def add? (a b : UInt64) : Option UInt64 :=
  if a.toNat + b.toNat < UInt64.size then some (a + b) else none

/-- A word as half a word, unless it is greater than any of these. -/
def narrow? (a : UInt64) : Option UInt32 :=
  if a.toNat < UInt32.size then some a.toUInt32 else none

/-- The estimate as it is worked out in words, unless a product or a sum overflows or the mean is
to be cut down to the greatest half word. -/
def worked (old : Option UInt32) (sample : UInt32) : Option UInt32 :=
  match old with
  | none => some sample
  | some old => do
    let share ← mul? sample.toUInt64 3
    let whole ← mul? old.toUInt64 10
    if whole < share then some old
    else
      let kept ← mul? old.toUInt64 (10 - 3)
      let sum ← add? share kept
      let rounded ← add? sum 5
      narrow? (rounded / 10)

theorem mul?_eq {a b : UInt64} (h : a.toNat * b.toNat < UInt64.size) :
    ∃ p, mul? a b = some p ∧ p.toNat = a.toNat * b.toNat :=
  ⟨a * b, if_pos h, by rw [UInt64.toNat_mul, Nat.mod_eq_of_lt h]⟩

theorem add?_eq {a b : UInt64} (h : a.toNat + b.toNat < UInt64.size) :
    ∃ s, add? a b = some s ∧ s.toNat = a.toNat + b.toNat :=
  ⟨a + b, if_pos h, by rw [UInt64.toNat_add, Nat.mod_eq_of_lt h]⟩

theorem narrow?_eq {a : UInt64} {n : UInt32} (h : a.toNat = n.toNat) : narrow? a = some n := by
  have hlt : a.toNat < UInt32.size := h ▸ n.toNat_lt
  rw [narrow?, if_pos hlt, Option.some.injEq, ← UInt32.toNat_inj, UInt64.toNat_toUInt32, ← h]
  exact Nat.mod_eq_of_lt hlt

/-- Nothing overflows as an estimate is worked out, and nothing is cut down. -/
theorem worked_eq (old : Option UInt32) (sample : UInt32) :
    worked old sample = some (estimate old sample) := by
  cases old with
  | none => rfl
  | some old =>
    have hold : old.toUInt64.toNat = old.toNat := UInt32.toNat_toUInt64 old
    have hsample : sample.toUInt64.toNat = sample.toNat := UInt32.toNat_toUInt64 sample
    have hlt : old.toNat < 2 ^ 32 := old.toNat_lt
    have hlt' : sample.toNat < 2 ^ 32 := sample.toNat_lt
    obtain ⟨share, hshare, hshare'⟩ : ∃ share, mul? sample.toUInt64 3 = some share
        ∧ share.toNat = sample.toNat * 3 :=
      hsample ▸ mul?_eq (show sample.toUInt64.toNat * 3 < 2 ^ 64 by omega)
    obtain ⟨whole, hwhole, hwhole'⟩ : ∃ whole, mul? old.toUInt64 10 = some whole
        ∧ whole.toNat = old.toNat * 10 :=
      hold ▸ mul?_eq (show old.toUInt64.toNat * 10 < 2 ^ 64 by omega)
    obtain ⟨kept, hkept, hkept'⟩ : ∃ kept, mul? old.toUInt64 (10 - 3) = some kept
        ∧ kept.toNat = old.toNat * 7 :=
      hold ▸ mul?_eq (show old.toUInt64.toNat * 7 < 2 ^ 64 by omega)
    obtain ⟨sum, hsum, hsum'⟩ := add?_eq (show share.toNat + kept.toNat < 2 ^ 64 by omega)
    obtain ⟨rounded, hrounded, hrounded'⟩ : ∃ rounded, add? sum 5 = some rounded
        ∧ rounded.toNat = sum.toNat + 5 :=
      add?_eq (show sum.toNat + 5 < 2 ^ 64 by omega)
    have houtlier : whole < share ↔ 10 * old.toNat < 3 * sample.toNat := by
      rw [UInt64.lt_iff_toNat_lt]
      omega
    simp only [worked, hshare, hwhole, hkept, hsum, hrounded, Option.bind_eq_bind, Option.bind_some]
    split
    · rename_i hout
      rw [estimate_of_outlier (houtlier.1 hout)]
    · rename_i hin
      refine narrow?_eq ?_
      rw [toNat_estimate (not_lt.1 (mt houtlier.2 hin)), UInt64.toNat_div]
      show rounded.toNat / 10 = _
      omega

/-! ## Some samples -/

/-- The estimate of a server that is not measured, after some samples. -/
def smoothed (samples : List UInt32) : Option UInt32 :=
  samples.foldl (fun old sample => some (estimate old sample)) none

theorem smoothed_snoc (samples : List UInt32) (sample : UInt32) :
    smoothed (samples ++ [sample]) = some (estimate (smoothed samples) sample) := by
  unfold smoothed
  rw [List.foldl_append]
  rfl

/-- Samples within some bounds come to an estimate within them. -/
theorem smoothed_within {lo hi : UInt32} {samples : List UInt32} (hne : samples ≠ [])
    (hbounds : ∀ sample ∈ samples, lo ≤ sample ∧ sample ≤ hi) :
    ∃ e, smoothed samples = some e ∧ lo ≤ e ∧ e ≤ hi := by
  induction samples using List.reverseRecOn with
  | nil => exact absurd rfl hne
  | append_singleton samples last ih =>
    have hlast := hbounds last (by simp)
    rw [smoothed_snoc]
    cases samples with
    | nil => exact ⟨last, rfl, hlast⟩
    | cons first rest =>
      obtain ⟨e, he, hwithin⟩ := ih (List.cons_ne_nil _ _) fun sample hmem =>
        hbounds sample (List.mem_append_left _ hmem)
      exact ⟨_, by rw [he], estimate_within hwithin hlast⟩

/-- A number is between the least and the greatest of a list. -/
def Spans (samples : List UInt32) (e : UInt32) : Prop :=
  ∃ lo hi, samples.min? = some lo ∧ samples.max? = some hi ∧ lo ≤ e ∧ e ≤ hi

theorem spans_smoothed {samples taken : List UInt32} (hsub : taken ⊆ samples)
    (htaken : taken ≠ []) : ∃ e, smoothed taken = some e ∧ Spans samples e := by
  have hne : samples ≠ [] := by
    rintro rfl
    exact htaken (List.subset_nil.1 hsub)
  obtain ⟨lo, hlo⟩ := Option.isSome_iff_exists.1 (List.isSome_min?_iff.2 hne)
  obtain ⟨hi, hhi⟩ := Option.isSome_iff_exists.1 (List.isSome_max?_iff.2 hne)
  obtain ⟨-, hleast⟩ := List.min?_eq_some_iff.1 hlo
  obtain ⟨-, hgreatest⟩ := List.max?_eq_some_iff.1 hhi
  obtain ⟨e, he, hwithin⟩ := smoothed_within htaken fun sample hmem =>
    ⟨hleast sample (hsub hmem), hgreatest sample (hsub hmem)⟩
  exact ⟨e, he, lo, hi, hlo, hhi, hwithin⟩

end Latency

/-! ## The servers of a pool -/

theorem Endpoints.mem_modify {addr : String} {f : Endpoint → Endpoint} {e : Endpoint} :
    ∀ {l : Endpoints}, e ∈ l.modify addr f → e ∈ l ∨ ∃ x ∈ l, x.addr = addr ∧ e = f x
  | [], h => absurd h List.not_mem_nil
  | x :: rest, h => by
    rw [modify] at h
    split at h
    · rename_i hx
      rcases List.mem_cons.1 h with rfl | h
      · exact .inr ⟨x, List.mem_cons_self, hx, rfl⟩
      · exact .inl (List.mem_cons_of_mem _ h)
    · rcases List.mem_cons.1 h with rfl | h
      · exact .inl List.mem_cons_self
      · rcases mem_modify h with h | ⟨y, hy, hfold⟩
        · exact .inl (List.mem_cons_of_mem _ h)
        · exact .inr ⟨y, List.mem_cons_of_mem _ hy, hfold⟩

namespace Pool

/-- The samples of the server at an address since the pool was cleared, after one more call. -/
def Op.hear (addr : String) (heard : List UInt32) : Op → List UInt32
  | .update other sample => if other = addr then heard ++ [sample] else heard
  | .clear => []
  | .add .. | .bootstrap _ | .pick | .pickOther _ => heard

/-- The samples of the server at an address since a pool was cleared. -/
def heard (addr : String) (ops : List Op) : List UInt32 :=
  ops.foldl (Op.hear addr) []

theorem heard_snoc (addr : String) (ops : List Op) (op : Op) :
    heard addr (ops ++ [op]) = op.hear addr (heard addr ops) := by
  unfold heard
  rw [List.foldl_append]
  rfl

theorem Op.sublist_hear_update (addr other : String) (sample : UInt32) (heard : List UInt32) :
    heard.Sublist ((Op.update other sample).hear addr heard) := by
  show heard.Sublist (if other = addr then heard ++ [sample] else heard)
  split
  · exact List.sublist_append_left _ _
  · exact .refl _

/-- The estimates of some servers are made from samples among those at hand for their addresses. -/
def Smoothed (samples : String → List UInt32) (l : Endpoints) : Prop :=
  ∀ e ∈ l, ∃ taken, taken.Sublist (samples e.addr) ∧ e.rtt = Latency.smoothed taken

variable {samples : String → List UInt32} {l l' : Endpoints}

theorem Smoothed.nil : Smoothed samples [] := fun _ he => absurd he List.not_mem_nil

theorem Smoothed.extends (h : Smoothed samples l) (hext : l.Extends l') : Smoothed samples l' := by
  obtain ⟨added, rfl, hnew⟩ := hext
  intro e he
  rcases List.mem_append.1 he with he | he
  · exact h e he
  · exact ⟨[], List.nil_sublist _, hnew e he⟩

theorem Smoothed.update (h : Smoothed samples l) (addr : String) (sample : UInt32) :
    Smoothed (fun a => (Op.update addr sample).hear a (samples a)) l := by
  intro e he
  obtain ⟨taken, htaken, hrtt⟩ := h e he
  exact ⟨taken, htaken.trans (Op.sublist_hear_update e.addr addr sample _), hrtt⟩

theorem Smoothed.modify (h : Smoothed samples l) (addr : String) (sample : UInt32) :
    Smoothed (fun a => (Op.update addr sample).hear a (samples a))
      (l.modify addr (measured sample)) := by
  intro e he
  rcases Endpoints.mem_modify he with he | ⟨x, hx, rfl, rfl⟩
  · exact h.update addr sample e he
  · obtain ⟨taken, htaken, hrtt⟩ := h x hx
    refine ⟨taken ++ [sample], ?_, ?_⟩
    · show (taken ++ [sample]).Sublist (if x.addr = x.addr then _ else _)
      rw [if_pos rfl]
      exact htaken.append (.refl _)
    · rw [Latency.smoothed_snoc, ← hrtt]
      rfl

variable {τ : Type} {S : Services τ} {c : ClientConfig}

theorem Smoothed.apply {s : Pool × τ} (h4 : Smoothed samples s.1.ipv4)
    (h6 : Smoothed samples s.1.ipv6) (op : Op) :
    Smoothed (fun addr => op.hear addr (samples addr)) (apply S c s op).1.ipv4
      ∧ Smoothed (fun addr => op.hear addr (samples addr)) (apply S c s op).1.ipv6 := by
  have hchanges : op.Changes s.1 (Pool.apply S c s op).1 := apply_changes s op
  cases op with
  | add | bootstrap => exact ⟨h4.extends hchanges.1, h6.extends hchanges.2⟩
  | update addr sample =>
    show Smoothed _ (s.1.update addr sample).ipv4 ∧ Smoothed _ (s.1.update addr sample).ipv6
    unfold Pool.update
    split
    · exact ⟨h4.modify addr sample, h6.update addr sample⟩
    · exact ⟨h4.update addr sample, h6.modify addr sample⟩
  | pick | pickOther => exact ⟨hchanges ▸ h4, hchanges ▸ h6⟩
  | clear => exact ⟨.nil, .nil⟩

theorem smoothed_run (ops : List Op) (w : τ) :
    Smoothed (heard · ops) (run S c ops w).1.ipv4
      ∧ Smoothed (heard · ops) (run S c ops w).1.ipv6 := by
  induction ops using List.reverseRecOn with
  | nil => exact ⟨.nil, .nil⟩
  | append_singleton ops op ih =>
    rw [run, List.foldl_append]
    simp only [heard_snoc]
    exact ih.1.apply ih.2 op

/-- The estimate of a measured server is between the least and the greatest of its samples. -/
theorem spans_heard (ops : List Op) (w : τ) {e : Endpoint}
    (he : e ∈ (run S c ops w).1.ipv4 ++ (run S c ops w).1.ipv6) {rtt : UInt32}
    (hrtt : e.rtt = some rtt) : Latency.Spans (heard e.addr ops) rtt := by
  obtain ⟨h4, h6⟩ := smoothed_run (S := S) (c := c) ops w
  obtain ⟨taken, hsub, htaken⟩ : ∃ taken, taken.Sublist (heard e.addr ops)
      ∧ e.rtt = Latency.smoothed taken := by
    rcases List.mem_append.1 he with he | he
    · exact h4 e he
    · exact h6 e he
  rw [hrtt] at htaken
  have hne : taken ≠ [] := by
    rintro rfl
    cases htaken
  obtain ⟨e', he', hspans⟩ := Latency.spans_smoothed hsub.subset hne
  obtain rfl : rtt = e' := Option.some.inj (htaken.trans he')
  exact hspans

end Pool

namespace Latency

open Pool (Op)

/-- The first sample is the estimate; any other one is dropped as an outlier or draws the estimate
three tenths of the way, rounded half up, with no overflow on the way. A higher estimate stays
higher, a sample equal to the estimate leaves it, and after any samples the estimate is between
the least and the greatest of them; so is the estimate of each server that a pool has measured. -/
theorem estimates_smooth :
    (∀ sample, estimate none sample = sample)
      ∧ (∀ old sample, Smooths old sample (estimate (some old) sample))
      ∧ (∀ old sample, worked old sample = some (estimate old sample))
      ∧ (∀ old old' sample, old ≤ old' →
        estimate (some old) sample ≤ estimate (some old') sample)
      ∧ (∀ e, estimate (some e) e = e)
      ∧ (∀ samples, samples ≠ [] → ∃ e, smoothed samples = some e ∧ Spans samples e)
      ∧ ∀ {τ : Type} (S : Services τ) (c : ClientConfig) (ops : List Op) (w : τ),
        let s := Pool.run S c ops w
        ∀ e ∈ s.1.ipv4 ++ s.1.ipv6, ∀ rtt, e.rtt = some rtt →
          Spans (Pool.heard e.addr ops) rtt :=
  ⟨fun _ => rfl, smooths_estimate, worked_eq, fun _ _ sample h => estimate_mono h sample,
    estimate_self, fun _ => spans_smoothed fun _ h => h,
    fun _ _ ops w _ he _ hrtt => Pool.spans_heard ops w he hrtt⟩

/-- A mean of eight and a half, a threshold between two estimates, and a server that is measured
before and after its pool is cleared. -/
theorem estimates_smooth_samples :
    let S := Client.listing.withJson
    let c : ClientConfig := { accountId := "100000" }
    let samples : List UInt32 := [10, 5, 2500]
    let ops : List Op := [.add ["192.0.2.1"] [], .update "192.0.2.1" 4, .clear,
      .add ["192.0.2.1"] []] ++ samples.map (.update "192.0.2.1")
    (estimate (some 10) 5).toNat = 9
      ∧ round ((3 / 10 : ℚ) * (5 : ℕ) + (7 / 10 : ℚ) * (10 : ℕ)) = 9
      ∧ estimate (some 9) 2500 = 9
      ∧ estimate (some 29) 100 = 29 ∧ estimate (some 29) 100 ≤ estimate (some 30) 100
      ∧ smoothed samples = some 9 ∧ Spans samples 9
      ∧ (Pool.run S c ops ()).1.ipv4 = [⟨"192.0.2.1", some 9⟩]
      ∧ Pool.heard "192.0.2.1" ops = samples ∧ Spans (Pool.heard "192.0.2.1" ops) 9 := by
  intro S c samples ops
  obtain ⟨-, hsmooths, -, hmono, -, hspans, hservers⟩ := estimates_smooth
  have hmean := hsmooths 10 5
  have hpool : (Pool.run S c ops ()).1.ipv4 = [⟨"192.0.2.1", some 9⟩] := by decide +kernel
  obtain ⟨e, he, hspan⟩ := hspans samples (List.cons_ne_nil _ _)
  have hvalue : smoothed samples = some 9 := by decide +kernel
  obtain rfl : e = 9 := Option.some.inj (he.symm.trans hvalue)
  refine ⟨hmean.floored (by decide), ?_, (hsmooths 9 2500).dropped (by decide),
    (hsmooths 29 100).dropped (by decide), hmono 29 30 100 (by decide), he, hspan, hpool,
    by decide +kernel, ?_⟩
  · exact (hmean.rounded (by decide)).symm.trans (by decide)
  · refine hservers S c ops () ⟨"192.0.2.1", some 9⟩ ?_ 9 rfl
    rw [hpool]
    exact List.mem_append_left _ (List.mem_singleton_self _)

end Latency

end HttpDns
