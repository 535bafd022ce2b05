import HttpDns.Cache

/-!
# Caches key by key

The operations of a cache come in any order and at any instants (`Cache.run`). However they come,
each key stands once, is not empty and has its own entry (`run_wellKept`), and what an operation
makes of the entry under a key hangs on that entry alone (`get?_apply`): the keys of a cache live
side by side.
-/

namespace HttpDns

/-! ## Tables -/

namespace Entries

variable {key : String} {r : Resolution} {e : String × Resolution}

theorem mem_of_get? : ∀ {es : Entries}, es.get? key = some r → (key, r) ∈ es
  | [], h => by cases h
  | (k, s) :: rest, h => by
    rw [get?] at h
    split at h
    · rename_i hk
      cases h
      exact hk ▸ List.mem_cons_self
    · exact List.mem_cons_of_mem _ (mem_of_get? h)

theorem mem_put : ∀ {es : Entries}, e ∈ es.put key r → e = (key, r) ∨ e ∈ es
  | [], h => .inl (List.mem_singleton.1 h)
  | (k, s) :: rest, h => by
    rw [put] at h
    split at h
    · rename_i hk
      rcases List.mem_cons.1 h with rfl | h
      · exact .inl (by rw [hk])
      · exact .inr (List.mem_cons_of_mem _ h)
    · rcases List.mem_cons.1 h with rfl | h
      · exact .inr List.mem_cons_self
      · exact (mem_put h).imp id (List.mem_cons_of_mem _)

theorem mem_erase : ∀ {es : Entries}, e ∈ es.erase key → e ∈ es
  | [], h => h
  | (k, s) :: rest, h => by
    rw [erase] at h
    split at h
    · exact List.mem_cons_of_mem _ h
    · rcases List.mem_cons.1 h with rfl | h
      · exact List.mem_cons_self
      · exact List.mem_cons_of_mem _ (mem_erase h)

/-- The keys, in order. -/
def keys (es : Entries) : List String :=
  es.map (·.1)

theorem get?_eq_none_iff (key : String) : ∀ {es : Entries}, es.get? key = none ↔ key ∉ es.keys
  | [] => by simp [get?, keys]
  | (k, s) :: rest => by
    have ih : get? rest key = none ↔ key ∉ keys rest := get?_eq_none_iff key
    unfold keys at ih ⊢
    by_cases hk : k = key
    · simp [get?, hk]
    · simp [get?, hk, Ne.symm hk, ih]

theorem nodup_put : ∀ {es : Entries}, es.keys.Nodup → (es.put key r).keys.Nodup
  | [], _ => List.pairwise_singleton _ _
  | (k, s) :: rest, h => by
    obtain ⟨hk, hrest⟩ := List.nodup_cons.1 h
    rw [put]
    split
    · exact h
    · rename_i hne
      refine List.nodup_cons.2 ⟨fun hmem => ?_, nodup_put hrest⟩
      obtain ⟨e, he, hek⟩ := List.mem_map.1 hmem
      rcases mem_put he with rfl | he
      · exact hne hek.symm
      · exact hk (List.mem_map.2 ⟨e, he, hek⟩)

theorem nodup_erase : ∀ {es : Entries}, es.keys.Nodup → (es.erase key).keys.Nodup
  | [], h => h
  | (k, s) :: rest, h => by
    obtain ⟨hk, hrest⟩ := List.nodup_cons.1 h
    rw [erase]
    split
    · exact hrest
    · refine List.nodup_cons.2 ⟨fun hmem => ?_, nodup_erase hrest⟩
      obtain ⟨e, he, hek⟩ := List.mem_map.1 hmem
      exact hk (List.mem_map.2 ⟨e, mem_erase he, hek⟩)

/-- Where each key stands once, erasing one takes its entry and no other. -/
theorem get?_erase (key k : String) : ∀ {es : Entries}, es.keys.Nodup →
    (es.erase key).get? k = if key = k then none else es.get? k
  | [], _ => by simp [erase, get?]
  | (k', s) :: rest, h => by
    obtain ⟨hk', hrest⟩ := List.nodup_cons.1 h
    have ih := get?_erase key k hrest
    by_cases he : k' = key
    · subst he
      by_cases hk : k' = k
      · subst hk
        simpa [erase] using (get?_eq_none_iff k').2 hk'
      · simp [erase, get?, hk]
    · by_cases hk : k' = k
      · subst hk
        simp [erase, get?, he, Ne.symm he]
      · simp [erase, get?, he, hk, ih]

end Entries

namespace Cache

/-- A call on a cache. -/
inductive Op
  /-- asks for the entry under a key at an instant -/
  | lookup (key : String) (type : QueryType) (now : Nat)
  | add (r : Resolution)
  | update (r : Resolution)
  | delete (key : String)
  | rotate (key : String)
  | clear
  deriving DecidableEq, Repr

/-- The cache after a call; an answer that is refused leaves it as it is. -/
def apply (c : Cache) : Op → Cache
  | .lookup key type now => (c.lookup key type now).2
  | .add r =>
    match c.add r with
    | .ok c => c
    | .error _ => c
  | .update r => c.update r
  | .delete key => (c.delete key).2
  | .rotate key => c.rotate key
  | .clear => {}

/-- A new cache after some calls. -/
def run (ops : List Op) : Cache :=
  ops.foldl apply {}

/-! ## What the operations do to the entries -/

theorem entries_lookup (c : Cache) (key : String) (type : QueryType) (now : Nat) :
    (c.lookup key type now).2.entries
      = if (c.entries.get? key).any (·.isExpiredAt now) then c.entries.erase key
        else c.entries := by
  unfold lookup
  cases hg : c.entries.get? key with
  | none => rfl
  | some r =>
    cases he : r.isExpiredAt now with
    | true => simp [he, evict, countMiss]
    | false => cases hu : usable r type <;> simp [he, hu, countMiss, countFound]

/-- An answer is added under its key if the key is neither empty nor taken. -/
def accepts (c : Cache) (r : Resolution) : Bool :=
  r.cacheKey ≠ "" && (c.entries.get? r.cacheKey).isNone

theorem entries_add (c : Cache) (r : Resolution) :
    (c.apply (.add r)).entries
      = if c.accepts r then c.entries.put r.cacheKey r else c.entries := by
  unfold apply add accepts
  by_cases hk : r.cacheKey = ""
  · simp [hk]
  · cases hg : c.entries.get? r.cacheKey <;> simp [hk, hg, countInsertion]

/-- The entry that an update leaves under its key. -/
def renewed (r : Resolution) : Option Resolution → Resolution
  | none => r
  | some stored => if stored.isExpiredAt r.learnedAt then r else refresh stored r

theorem entries_update (c : Cache) (r : Resolution) :
    (c.update r).entries
      = if r.cacheKey = "" then c.entries
        else c.entries.put r.cacheKey (renewed r (c.entries.get? r.cacheKey)) := by
  unfold update renewed
  split
  · rfl
  · cases c.entries.get? r.cacheKey with
    | none => rfl
    | some stored => cases he : stored.isExpiredAt r.learnedAt <;> simp [he, countInsertion]

theorem entries_rotate (c : Cache) (key : String) :
    (c.rotate key).entries
      = match c.entries.get? key with
        | none => c.entries
        | some r => c.entries.put key r.rotate := by
  unfold rotate
  cases c.entries.get? key <;> rfl

/-! ## Well-kept caches -/

/-- Each key stands once, is not empty and has its own entry. -/
structure WellKept (c : Cache) : Prop where
  nodup : c.entries.keys.Nodup
  cacheKey_eq : ∀ e ∈ c.entries, e.2.cacheKey = e.1
  ne_empty : ∀ e ∈ c.entries, e.1 ≠ ""

namespace WellKept

variable {c c' : Cache}

theorem of_entries (h : c.WellKept) (he : c'.entries = c.entries) : c'.WellKept :=
  ⟨he ▸ h.nodup, he ▸ h.cacheKey_eq, he ▸ h.ne_empty⟩

theorem of_put (h : c.WellKept) {key : String} {r : Resolution} (hr : r.cacheKey = key)
    (hk : key ≠ "") (he : c'.entries = c.entries.put key r) : c'.WellKept where
  nodup := he ▸ Entries.nodup_put h.nodup
  cacheKey_eq e hmem := by
    rcases Entries.mem_put (he ▸ hmem) with rfl | hmem
    · exact hr
    · exact h.cacheKey_eq e hmem
  ne_empty e hmem := by
    rcases Entries.mem_put (he ▸ hmem) with rfl | hmem
    · exact hk
    · exact h.ne_empty e hmem

theorem of_erase (h : c.WellKept) {key : String} (he : c'.entries = c.entries.erase key) :
    c'.WellKept where
  nodup := he ▸ Entries.nodup_erase h.nodup
  cacheKey_eq e hmem := h.cacheKey_eq e (Entries.mem_erase (he ▸ hmem))
  ne_empty e hmem := h.ne_empty e (Entries.mem_erase (he ▸ hmem))

theorem of_get? (h : c.WellKept) {key : String} {r : Resolution}
    (hr : c.entries.get? key = some r) : r.cacheKey = key ∧ key ≠ "" :=
  ⟨h.cacheKey_eq _ (Entries.mem_of_get? hr), h.ne_empty _ (Entries.mem_of_get? hr)⟩

theorem cacheKey_renewed (h : c.WellKept) (r : Resolution) :
    (renewed r (c.entries.get? r.cacheKey)).cacheKey = r.cacheKey := by
  cases hg : c.entries.get? r.cacheKey with
  | none => rfl
  | some stored =>
    have hstored : (refresh stored r).cacheKey = r.cacheKey := (h.of_get? hg).1
    cases he : stored.isExpiredAt r.learnedAt <;> simp [renewed, he, hstored]

theorem apply (h : c.WellKept) (op : Op) : (c.apply op).WellKept := by
  cases op with
  | lookup key type now =>
    have he := entries_lookup c key type now
    split at he
    · exact h.of_erase he
    · exact h.of_entries he
  | add r =>
    have he := entries_add c r
    split at he
    · rename_i haccepts
      exact h.of_put rfl (by simpa using (Bool.and_eq_true_iff.1 haccepts).1) he
    · exact h.of_entries he
  | update r =>
    have he := entries_update c r
    split at he
    · exact h.of_entries he
    · rename_i hk
      exact h.of_put (h.cacheKey_renewed r) hk he
  | delete key => exact h.of_erase rfl
  | rotate key =>
    have he := entries_rotate c key
    split at he
    · exact h.of_entries he
    · rename_i r hg
      obtain ⟨hr, hk⟩ := h.of_get? hg
      exact h.of_put (r := r.rotate) hr hk he
  | clear => exact ⟨List.nodup_nil, by simp [Cache.apply], by simp [Cache.apply]⟩

end WellKept

theorem run_wellKept (ops : List Op) : (run ops).WellKept :=
  List.foldlRecOn ops apply ⟨List.nodup_nil, by simp, by simp⟩ fun _ h op _ => h.apply op

/-! ## One key -/

/-- What an operation makes of the entry under a key, or of there being none. -/
def Op.next (key : String) : Op → Option Resolution → Option Resolution
  | .lookup k _ now, x => if k = key then x.filter (!·.isExpiredAt now) else x
  | .add r, x => if r.cacheKey = key ∧ key ≠ "" then x.or (some r) else x
  | .update r, x => if r.cacheKey = key ∧ key ≠ "" then some (renewed r x) else x
  | .delete k, x => if k = key then none else x
  | .rotate k, x => if k = key then x.map Resolution.rotate else x
  | .clear, _ => none

theorem get?_apply {c : Cache} (h : c.WellKept) (op : Op) (key : String) :
    (c.apply op).entries.get? key = op.next key (c.entries.get? key) := by
  cases op with
  | lookup k type now =>
    rw [apply, entries_lookup, Op.next]
    by_cases hk : k = key
    · subst hk
      cases hg : c.entries.get? k with
      | none => simp [hg]
      | some r => cases he : r.isExpiredAt now <;>
        simp [he, hg, Option.filter, Entries.get?_erase k k h.nodup]
    · split <;> simp [hk, Entries.get?_erase k key h.nodup]
  | add r =>
    rw [entries_add, Op.next, accepts]
    by_cases hk : r.cacheKey = key
    · subst hk
      by_cases hne : r.cacheKey = ""
      · simp [hne]
      · cases hg : c.entries.get? r.cacheKey <;> simp [hne, hg, Entries.get?_put]
    · split <;> simp [hk, Entries.get?_put]
  | update r =>
    rw [apply, entries_update, Op.next]
    by_cases hne : r.cacheKey = ""
    · simp [hne]
    · by_cases hk : r.cacheKey = key
      · subst hk
        simp [hne, Entries.get?_put]
      · simp [hne, hk, Entries.get?_put]
  | delete k => exact Entries.get?_erase k key h.nodup
  | rotate k =>
    rw [apply, entries_rotate, Op.next]
    by_cases hk : k = key
    · subst hk
      cases hg : c.entries.get? k <;> simp [hg, Entries.get?_put]
    · cases hg : c.entries.get? k <;> simp [hk, Entries.get?_put]
  | clear => rfl

/-- What has become of the entry under a key after some operations. -/
theorem get?_foldl (key : String) : ∀ (ops : List Op) {c : Cache}, c.WellKept →
    (ops.foldl apply c).entries.get? key
      = ops.foldl (fun x op => op.next key x) (c.entries.get? key)
  | [], _, _ => rfl
  | op :: ops, c, h => by
    rw [List.foldl_cons, get?_foldl key ops (h.apply op), get?_apply h, List.foldl_cons]

end Cache

end HttpDns
