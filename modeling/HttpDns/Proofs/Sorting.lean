import HttpDns.Proofs.Selection
import Mathlib.Data.List.Sort

/-!
# Endpoints in the order of their round-trip times

Sorting is an insertion sort by round-trip times, so it rearranges a list into their order and keeps
the endpoints of one time as they stand. That determines the list (`eq_of_filter`), and its head is
the first of the fastest endpoints of the list as it was (`foremost_of_filter`): to sort a list and
take its head is to look for the fastest endpoint (`sorted_fastest_first`).
-/

namespace HttpDns

namespace Endpoint

variable {x y : Endpoint}

/-- The round-trip time is not the greater one; one that is not measured is less than any. -/
def NotAfter (x y : Endpoint) : Prop :=
  ¬ y.Precedes x

theorem notAfter_iff : x.NotAfter y ↔ x.rank ≤ y.rank := by
  rw [NotAfter, precedes_iff, not_lt]

theorem rank_eq_iff : x.rank = y.rank ↔ x.rtt = y.rtt := by
  obtain ⟨_, _ | r⟩ := x <;> obtain ⟨_, _ | s⟩ := y <;> simp [rank, UInt32.toNat_inj]

instance : DecidableRel NotAfter := fun x y => inferInstanceAs (Decidable (¬ y.Precedes x))

instance : Std.Total NotAfter where
  total x y := by
    rw [notAfter_iff, notAfter_iff]
    exact Nat.le_total x.rank y.rank

instance : IsTrans Endpoint NotAfter where
  trans x y z hxy hyz := by
    rw [notAfter_iff] at hxy hyz ⊢
    exact hxy.trans hyz

end Endpoint

namespace Endpoints

open Endpoint (NotAfter notAfter_iff rank_eq_iff)

variable {l rest : Endpoints} {x : Endpoint}

/-! ## An insertion sort -/

theorem insertSorted_eq (x : Endpoint) : ∀ l : Endpoints,
    insertSorted x l = l.orderedInsert NotAfter x
  | [] => rfl
  | y :: rest => by
    rw [insertSorted, List.orderedInsert_cons, insertSorted_eq x rest]
    by_cases h : y.before x = true
    · have hafter : ¬ x.NotAfter y := by
        rw [notAfter_iff]
        exact Nat.not_le_of_lt (Endpoint.before_iff.1 h)
      rw [if_pos h, if_neg hafter]
    · have hnot : x.NotAfter y := by
        rw [notAfter_iff]
        exact Nat.le_of_not_lt (h ∘ Endpoint.before_iff.2)
      rw [if_neg h, if_pos hnot]

theorem sorted_eq : ∀ l : Endpoints, l.sorted = l.insertionSort NotAfter
  | [] => rfl
  | x :: rest => by rw [sorted, insertSorted_eq, sorted_eq rest, List.insertionSort_cons]

theorem sorted_perm (l : Endpoints) : l.sorted.Perm l := by
  rw [sorted_eq]
  exact l.perm_insertionSort NotAfter

theorem sorted_ascending (l : Endpoints) : l.sorted.Pairwise NotAfter := by
  rw [sorted_eq]
  exact l.pairwise_insertionSort NotAfter

theorem sorted_of_ascending (h : l.Pairwise NotAfter) : l.sorted = l := by
  rw [sorted_eq, h.insertionSort_eq]

theorem filter_sorted (l : Endpoints) (rtt : Option UInt32) :
    l.sorted.filter (·.rtt = rtt) = l.filter (·.rtt = rtt) := by
  -- endpoints of one time are in order already, so sorting leaves them as they stand
  have htied : (l.filter (·.rtt = rtt)).Pairwise NotAfter := by
    refine List.pairwise_of_forall_mem_list fun x hx y hy => ?_
    have hrtt : x.rtt = y.rtt :=
      (of_decide_eq_true (List.mem_filter.1 hx).2).trans
        (of_decide_eq_true (List.mem_filter.1 hy).2).symm
    rw [notAfter_iff, rank_eq_iff.2 hrtt]
  have hkept : (l.filter (·.rtt = rtt)).Sublist l.sorted := by
    rw [sorted_eq]
    exact List.sublist_insertionSort htied List.filter_sublist
  have hsub : (l.filter (·.rtt = rtt)).Sublist (l.sorted.filter (·.rtt = rtt)) := by
    simpa using hkept.filter (·.rtt = rtt)
  exact (hsub.eq_of_length ((sorted_perm l).filter _).length_eq.symm).symm

/-! ## The order determined -/

/-- The head of a list in order is the foremost of every list that has the same endpoints of each
time in the same order. -/
theorem foremost_of_filter (hasc : (x :: rest).Pairwise NotAfter)
    (h : ∀ rtt, (x :: rest).filter (·.rtt = rtt) = l.filter (·.rtt = rtt)) : l.Foremost x := by
  have hleast : ∀ y ∈ l, x.rank ≤ y.rank := by
    intro y hy
    have hmem : y ∈ (x :: rest).filter (·.rtt = y.rtt) := by
      rw [h]
      exact List.mem_filter.2 ⟨hy, decide_eq_true rfl⟩
    rcases List.mem_cons.1 (List.mem_of_mem_filter hmem) with rfl | hrest
    · exact le_rfl
    · exact notAfter_iff.1 (List.rel_of_pairwise_cons hasc hrest)
  have hfirst : l.filter (·.rtt = x.rtt) = x :: rest.filter (·.rtt = x.rtt) := by
    rw [← h, List.filter_cons_of_pos (by simp)]
  obtain ⟨front, back, rfl, hfront, -, -⟩ := List.filter_eq_cons_iff.1 hfirst
  refine ⟨front, back, rfl, fun y hy => ?_, fun y hy => hleast y (by simp [hy])⟩
  have hne : x.rank ≠ y.rank := fun hrank =>
    hfront y hy (decide_eq_true (rank_eq_iff.1 hrank).symm)
  exact lt_of_le_of_ne (hleast y (List.mem_append_left _ hy)) hne

theorem foremost_of_ascending (hasc : (x :: rest).Pairwise NotAfter) :
    Endpoints.Foremost (x :: rest) x :=
  foremost_of_filter hasc fun _ => rfl

theorem Foremost.unique {y : Endpoint} (hx : l.Foremost x) (hy : l.Foremost y) : x = y :=
  Option.some.inj (hx.first_eq.symm.trans hy.first_eq)

/-- Two lists in order are the same if they have the same endpoints of each time in the same
order. -/
theorem eq_of_filter : ∀ {l l' : Endpoints}, l.Pairwise NotAfter → l'.Pairwise NotAfter →
    (∀ rtt, l.filter (·.rtt = rtt) = l'.filter (·.rtt = rtt)) → l = l'
  | [], [], _, _, _ => rfl
  | x :: rest, [], _, _, h => by simpa using h x.rtt
  | [], y :: rest', _, _, h => by simpa using h y.rtt
  | x :: rest, y :: rest', hasc, hasc', h => by
    -- both heads are the foremost endpoint of the second list
    obtain rfl : x = y := (foremost_of_filter hasc h).unique (foremost_of_ascending hasc')
    have hrest : rest = rest' := by
      refine eq_of_filter hasc.of_cons hasc'.of_cons fun rtt => ?_
      have hrtt := h rtt
      rw [List.filter_cons, List.filter_cons] at hrtt
      split at hrtt
      · exact List.tail_eq_of_cons_eq hrtt
      · exact hrtt
    rw [hrest]

/-! ## The fastest endpoint -/

theorem fastest_eq_head (l : Endpoints) : l.fastest = l.sorted.head? := by
  cases h : l.sorted with
  | nil =>
    have hperm := sorted_perm l
    rw [h] at hperm
    obtain rfl := hperm.nil_eq
    rfl
  | cons x rest =>
    have hasc := sorted_ascending l
    have hfilter := filter_sorted l
    rw [h] at hasc hfilter
    rw [fastest_eq_first, (foremost_of_filter hasc hfilter).first_eq, List.head?_cons]

/-- Sorting rearranges the endpoints into the order of their round-trip times, those that are not
measured first, and leaves the endpoints of one time in the order in which they were; no other list
is like this. The fastest endpoint of the list is its head, and is still the fastest once the list
is sorted; there is none only if the list is empty. -/
theorem sorted_fastest_first (l : Endpoints) :
    l.sorted.Perm l
      ∧ l.sorted.Pairwise (fun x y => ¬ y.Precedes x)
      ∧ (∀ rtt, l.sorted.filter (·.rtt = rtt) = l.filter (·.rtt = rtt))
      ∧ (∀ l' : Endpoints, l' = l.sorted ↔ l'.Pairwise (fun x y => ¬ y.Precedes x)
        ∧ ∀ rtt, l'.filter (·.rtt = rtt) = l.filter (·.rtt = rtt))
      ∧ l.fastest = l.sorted.head?
      ∧ l.sorted.fastest = l.sorted.head?
      ∧ (l.fastest = none ↔ l = []) := by
  refine ⟨sorted_perm l, sorted_ascending l, filter_sorted l, fun l' => ⟨?_, ?_⟩,
    fastest_eq_head l, ?_, Pool.fastest_eq_none⟩
  · rintro rfl
    exact ⟨sorted_ascending l, filter_sorted l⟩
  · rintro ⟨hasc, hfilter⟩
    refine eq_of_filter hasc (sorted_ascending l) fun rtt => ?_
    rw [hfilter, filter_sorted]
  · rw [fastest_eq_head, sorted_of_ascending (sorted_ascending l)]

example : sorted [⟨"a", some 20⟩, ⟨"b", some 7⟩, ⟨"c", none⟩, ⟨"d", some 7⟩, ⟨"e", none⟩]
    = [⟨"c", none⟩, ⟨"e", none⟩, ⟨"b", some 7⟩, ⟨"d", some 7⟩, ⟨"a", some 20⟩] := by
  decide

end Endpoints

end HttpDns
