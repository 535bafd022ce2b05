import HttpDns.Address.Endpoint
import HttpDns.Roster
import Mathlib.Tactic.Tauto

/-!
# One union of addresses

A pool merges addresses into a list of endpoints and counts those it appends; a roster appends them
to a list of texts and takes by how much that has grown. Each goes through the addresses and looks
for every one in the list as it is by then, and both come to the same: the list as it was and then
the newcomers, which are the addresses neither empty nor listed, once each (`appendUnique_eq`,
`Endpoints.merge_eq`). So addresses may be merged in parts, and those that are merged again change
nothing (`unions_agree`).
-/

namespace HttpDns

/-! ## What is new in a list -/

/-- What a list tells that is neither empty nor known, each address where it is first told. -/
def newcomers (known told : List String) : List String :=
  (told.filter fun a => a ≠ "" ∧ a ∉ known).eraseDups

section

variable {known told : List String} {addr : String}

theorem newcomers_nil (told : List String) :
    newcomers [] told = (told.filter (· ≠ "")).eraseDups := by
  simp [newcomers]

/-- From the second address on, the first one is known. -/
theorem newcomers_cons (known : List String) (x : String) (told : List String) :
    newcomers known (x :: told)
      = if x = "" ∨ x ∈ known then newcomers known told
        else x :: newcomers (known ++ [x]) told := by
  unfold newcomers
  split
  · rename_i hx
    have hnot : ¬ (x ≠ "" ∧ x ∉ known) := by tauto
    rw [List.filter_cons_of_neg (by simpa using hnot)]
  · rename_i hx
    obtain ⟨hne, hnew⟩ := not_or.1 hx
    rw [List.filter_cons_of_pos (by simp [hne, hnew]), List.eraseDups_cons, List.filter_filter]
    congr 2
    refine List.filter_congr fun a _ => ?_
    by_cases ha : a = x <;> simp [ha]

theorem newcomers_filter (known told : List String) :
    newcomers known (told.filter (· ≠ "")) = newcomers known told := by
  rw [newcomers, newcomers, List.filter_filter]
  congr 1
  refine List.filter_congr fun a _ => ?_
  by_cases ha : a = "" <;> simp [ha]

theorem mem_newcomers : addr ∈ newcomers known told ↔ addr ∈ told ∧ addr ≠ "" ∧ addr ∉ known := by
  simp [newcomers]

theorem nodup_newcomers : ∀ known told : List String, (newcomers known told).Nodup
  | _, [] => List.nodup_nil
  | known, x :: told => by
    rw [newcomers_cons]
    split
    · exact nodup_newcomers known told
    · have hfirst : x ∉ newcomers (known ++ [x]) told := by simp [mem_newcomers]
      exact List.nodup_cons.2 ⟨hfirst, nodup_newcomers _ told⟩

theorem newcomers_eq_nil : newcomers known told = [] ↔ ∀ a ∈ told, a = "" ∨ a ∈ known := by
  rw [List.eq_nil_iff_forall_not_mem]
  refine forall_congr' fun a => ?_
  rw [mem_newcomers]
  tauto

/-- What was known before is no news, so nothing is lost by what was new then. -/
theorem newcomers_newcomers : ∀ (told : List String) {old known : List String},
    (∀ x ∈ old, x ∈ known) → newcomers known (newcomers old told) = newcomers known told
  | [], _, _, _ => rfl
  | x :: told, old, known, h => by
    rw [newcomers_cons old, newcomers_cons known x told]
    by_cases hx : x = "" ∨ x ∈ old
    · rw [if_pos hx, if_pos (hx.imp_right (h x)), newcomers_newcomers told h]
    · rw [if_neg hx, newcomers_cons]
      split
      · rename_i hknown
        refine newcomers_newcomers told fun y hy => ?_
        rcases List.mem_append.1 hy with hy | hy
        · exact h y hy
        · rw [List.mem_singleton.1 hy]
          exact hknown.resolve_left fun he => hx (.inl he)
      · rw [newcomers_newcomers told fun y hy => ?_]
        rw [List.mem_append] at hy ⊢
        exact hy.imp_left (h y)

end

/-! ## Lists of addresses -/

section

variable {l xs : List String}

theorem appendUnique_eq : ∀ xs l : List String, appendUnique l xs = l ++ newcomers l xs
  | [], l => (List.append_nil l).symm
  | x :: xs, l => by
    rw [appendUnique, newcomers_cons]
    split
    · exact appendUnique_eq xs l
    · rw [appendUnique_eq xs, List.append_assoc, List.singleton_append]

theorem appendUnique_append (l : List String) : ∀ xs ys : List String,
    appendUnique l (xs ++ ys) = appendUnique (appendUnique l xs) ys
  | [], _ => rfl
  | x :: xs, ys => by
    rw [List.cons_append, appendUnique, appendUnique]
    split
    · exact appendUnique_append l xs ys
    · exact appendUnique_append _ xs ys

theorem prefix_appendUnique (xs l : List String) : l <+: appendUnique l xs :=
  ⟨newcomers l xs, (appendUnique_eq xs l).symm⟩

theorem appendUnique_eq_self (h : ∀ x ∈ xs, x ∈ l) : appendUnique l xs = l := by
  rw [appendUnique_eq, newcomers_eq_nil.2 fun x hx => .inr (h x hx), List.append_nil]

/-- Addresses that are appended to an earlier list and then, with it, to the present one are just
appended to the present one. -/
theorem appendUnique_snapshot (xs : List String) {old : List String} (h : ∀ x ∈ old, x ∈ l) :
    appendUnique l (appendUnique old xs) = appendUnique l xs := by
  calc appendUnique l (appendUnique old xs)
      = appendUnique l (newcomers old xs) := by
        rw [appendUnique_eq xs old, appendUnique_append, appendUnique_eq_self h]
    _ = appendUnique l xs := by
        rw [appendUnique_eq, newcomers_newcomers xs h, ← appendUnique_eq]

end

namespace Endpoints

variable {l : Endpoints} {xs : List String} {addr : String}

/-! ## Lists of endpoints -/

theorem merge_eq : ∀ (xs : List String) (l : Endpoints),
    l.merge xs = l ++ (newcomers l.addrs xs).map (⟨·, none⟩)
  | [], l => (List.append_nil l).symm
  | x :: xs, l => by
    simp only [merge, newcomers_cons, contains_iff]
    split
    · exact merge_eq xs l
    · rw [merge_eq xs, List.append_assoc, addrs, List.map_append]
      rfl

theorem addrs_merge (xs : List String) (l : Endpoints) :
    (l.merge xs).addrs = appendUnique l.addrs xs := by
  rw [merge_eq, appendUnique_eq]
  simp [addrs, Function.comp_def]

theorem mem_addrs_merge : addr ∈ (l.merge xs).addrs ↔ addr ∈ l.addrs ∨ addr ∈ xs ∧ addr ≠ "" := by
  rw [addrs_merge, appendUnique_eq, List.mem_append, mem_newcomers]
  tauto

theorem merge_eq_self (h : ∀ x ∈ xs, x = "" ∨ x ∈ l.addrs) : l.merge xs = l := by
  rw [merge_eq, newcomers_eq_nil.2 h, List.map_nil, List.append_nil]

theorem merge_merge (l : Endpoints) (xs : List String) : (l.merge xs).merge xs = l.merge xs := by
  refine merge_eq_self fun x hx => ?_
  rw [mem_addrs_merge]
  tauto

theorem merge_eq_nil : l.merge xs = [] ↔ l = [] ∧ ∀ a ∈ xs, a = "" := by
  rw [merge_eq, List.append_eq_nil_iff, List.map_eq_nil_iff, newcomers_eq_nil]
  refine and_congr_right ?_
  rintro rfl
  simp [addrs]

/-! ## How many are appended -/

theorem length_merge : ∀ (xs : List String) (l : Endpoints),
    (l.merge xs).length = l.length + l.mergeCount xs
  | [], _ => rfl
  | x :: xs, l => by
    rw [merge, mergeCount]
    split
    · exact length_merge xs l
    · rw [length_merge xs, List.length_append, List.length_singleton]
      omega

theorem mergeCount_eq (l : Endpoints) (xs : List String) :
    l.mergeCount xs = appendUniqueCount l.addrs xs := by
  have hlength := length_merge xs l
  rw [appendUniqueCount, ← addrs_merge, addrs, addrs, List.length_map, List.length_map]
  omega

theorem mergeCount_append (l : Endpoints) (xs ys : List String) :
    l.mergeCount (xs ++ ys) = l.mergeCount xs + (l.merge xs).mergeCount ys := by
  have hwhole := length_merge (xs ++ ys) l
  have hfirst := length_merge xs l
  have hsecond := length_merge ys (l.merge xs)
  rw [merge_append] at hwhole
  omega

/-- Merging addresses into endpoints and appending them to the addresses of these give the same
addresses and count the same, by which the list grows. The endpoints stay as they are; behind them
come, once each and not measured, the addresses that are neither empty nor listed, so that those
listed are the ones that were and all that are merged but the empty one. Addresses merged one after
the other are merged as a whole, and what is merged once more is counted as nothing. -/
theorem unions_agree (l : Endpoints) (xs ys : List String) :
    ((l.merge xs).addrs = appendUnique l.addrs xs
        ∧ l.mergeCount xs = appendUniqueCount l.addrs xs
        ∧ (l.merge xs).length = l.length + l.mergeCount xs)
      ∧ (∃ learned : List String, l.merge xs = l ++ learned.map (⟨·, none⟩) ∧ learned.Nodup
        ∧ ∀ a, a ∈ learned ↔ a ∈ xs ∧ a ≠ "" ∧ a ∉ l.addrs)
      ∧ (∀ a, a ∈ (l.merge xs).addrs ↔ a ∈ l.addrs ∨ a ∈ xs ∧ a ≠ "")
      ∧ ((l.merge xs).merge ys = l.merge (xs ++ ys)
        ∧ l.mergeCount xs + (l.merge xs).mergeCount ys = l.mergeCount (xs ++ ys))
      ∧ ((l.merge xs).merge xs = l.merge xs ∧ (l.merge xs).mergeCount xs = 0) := by
  have hnothing : (l.merge xs).mergeCount xs = 0 := by
    have hlength := length_merge xs (l.merge xs)
    rw [merge_merge] at hlength
    omega
  exact ⟨⟨addrs_merge xs l, mergeCount_eq l xs, length_merge xs l⟩,
    ⟨newcomers l.addrs xs, merge_eq xs l, nodup_newcomers _ _, fun _ => mem_newcomers⟩,
    fun _ => mem_addrs_merge, ⟨(merge_append l xs ys).symm, (mergeCount_append l xs ys).symm⟩,
    merge_merge l xs, hnothing⟩

/-- A list that holds an address twice keeps both. -/
example :
    let l : Endpoints := [⟨"a", some 5⟩, ⟨"a", none⟩]
    l.merge ["", "b", "a", "b"] = l ++ [⟨"b", none⟩] ∧ l.mergeCount ["", "b", "a", "b"] = 1 := by
  decide

end Endpoints

end HttpDns
