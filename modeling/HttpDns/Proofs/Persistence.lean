import HttpDns.Proofs.Cells
import Mathlib.Data.List.Rotate

/-!
# How long an entry stays

An entry is taken away by a deletion, by clearing the cache or by a lookup that finds it expired,
and put out of its place by an update that finds it expired. Nothing else ends it: through all
other operations it stays the same entry, and a family that has addresses keeps them in the order
they came in, perhaps advanced (`Resolution.Continues`, `entries_persist`).
-/

namespace HttpDns

/-! ## One entry, earlier and later -/

theorem Endpoints.rotate_isRotated (l : Endpoints) : Endpoints.rotate l ~r l := by
  cases l with
  | nil => exact .refl _
  | cons x rest => exact .symm ⟨1, by simp [Endpoints.rotate]⟩

/-- The later resolution is the earlier one still: it may have its addresses advanced, a family
filled that was empty and its lifetimes renewed. -/
structure Resolution.Continues (r r' : Resolution) : Prop where
  host_eq : r'.host = r.host
  cacheKey_eq : r'.cacheKey = r.cacheKey
  extra_eq : r'.extra = r.extra
  hitCache_eq : r'.hitCache = r.hitCache
  ips : r.ips ≠ [] → r'.ips ~r r.ips
  ipsv6 : r.ipsv6 ≠ [] → r'.ipsv6 ~r r.ipsv6

namespace Resolution.Continues

variable {r r' r'' : Resolution}

theorem refl (r : Resolution) : r.Continues r :=
  ⟨rfl, rfl, rfl, rfl, fun _ => .refl _, fun _ => .refl _⟩

theorem trans (h : r.Continues r') (h' : r'.Continues r'') : r.Continues r'' where
  host_eq := h'.host_eq.trans h.host_eq
  cacheKey_eq := h'.cacheKey_eq.trans h.cacheKey_eq
  extra_eq := h'.extra_eq.trans h.extra_eq
  hitCache_eq := h'.hitCache_eq.trans h.hitCache_eq
  ips hne := by
    have hips := h.ips hne
    exact (h'.ips fun hnil => hne (List.isRotated_nil_iff.1 (hnil ▸ hips).symm)).trans hips
  ipsv6 hne := by
    have hips := h.ipsv6 hne
    exact (h'.ipsv6 fun hnil => hne (List.isRotated_nil_iff.1 (hnil ▸ hips).symm)).trans hips

theorem rotate (r : Resolution) : r.Continues r.rotate :=
  ⟨rfl, rfl, rfl, rfl, fun _ => Endpoints.rotate_isRotated _, fun _ => Endpoints.rotate_isRotated _⟩

theorem refresh (r update : Resolution) : r.Continues (Cache.refresh r update) where
  host_eq := rfl
  cacheKey_eq := rfl
  extra_eq := rfl
  hitCache_eq := rfl
  ips hne := by
    have hsame : (Cache.refresh r update).ips = r.ips := by
      simp [Cache.refresh, Resolution.fillGaps, hne]
    rw [hsame]
  ipsv6 hne := by
    have hsame : (Cache.refresh r update).ipsv6 = r.ipsv6 := by
      simp [Cache.refresh, Resolution.fillGaps, hne]
    rw [hsame]

end Resolution.Continues

namespace Cache

/-! ## What ends an entry -/

/-- The operation takes the entry under a key away. -/
def Op.Removes (key : String) (r : Resolution) : Op → Prop
  | .lookup k _ now => k = key ∧ r.expiresAt ≤ now
  | .delete k => k = key
  | .clear => True
  | .add _ | .update _ | .rotate _ => False

/-- The operation puts another entry in the place of the one under a key. -/
def Op.Replaces (key : String) (r : Resolution) : Op → Prop
  | .update e => e.cacheKey = key ∧ r.expiresAt ≤ e.learnedAt
  | .lookup .. | .add _ | .delete _ | .rotate _ | .clear => False

instance (key : String) (r : Resolution) : DecidablePred (Op.Removes key r)
  | .lookup .. => inferInstanceAs (Decidable (_ ∧ _))
  | .delete _ => inferInstanceAs (Decidable (_ = _))
  | .clear => inferInstanceAs (Decidable True)
  | .add _ | .update _ | .rotate _ => inferInstanceAs (Decidable False)

instance (key : String) (r : Resolution) : DecidablePred (Op.Replaces key r)
  | .update _ => inferInstanceAs (Decidable (_ ∧ _))
  | .lookup .. | .add _ | .delete _ | .rotate _ | .clear => inferInstanceAs (Decidable False)

/-- No operation ends the entry under a key, each judged by the entry there is when it comes. -/
def Undisturbed (key : String) : Cache → List Op → Prop
  | _, [] => True
  | c, op :: rest =>
    (∀ r ∈ c.entries.get? key, ¬ op.Removes key r ∧ ¬ op.Replaces key r)
      ∧ Undisturbed key (c.apply op) rest

instance (key : String) : ∀ (c : Cache) (ops : List Op), Decidable (Undisturbed key c ops)
  | _, [] => inferInstanceAs (Decidable True)
  | c, op :: rest =>
    have := instDecidableUndisturbed key (c.apply op) rest
    inferInstanceAs (Decidable (_ ∧ _))

variable {key : String} {r : Resolution}

theorem next_eq_none_iff (op : Op) : op.next key (some r) = none ↔ op.Removes key r := by
  cases op with
  | lookup k type now =>
    by_cases hk : k = key <;>
      simp [Op.next, Op.Removes, hk, Option.filter, Resolution.isExpiredAt]
  | add e | update e =>
    simp only [Op.next, Op.Removes, iff_false]
    split <;> simp
  | delete k => simp [Op.next, Op.Removes]
  | rotate k =>
    simp only [Op.next, Op.Removes, iff_false]
    split <;> simp
  | clear => simp [Op.next, Op.Removes]

/-- What is left under a key that had an entry: another one that has replaced it, or the same
entry still. -/
theorem next_cases (hkey : key ≠ "") {op : Op} {r' : Resolution}
    (h : op.next key (some r) = some r') :
    op.Replaces key r ∧ op = .update r' ∨ ¬ op.Replaces key r ∧ r.Continues r' := by
  cases op with
  | lookup k type now =>
    refine .inr ⟨id, ?_⟩
    have hr : r' = r := by
      simp only [Op.next] at h
      split at h
      · exact (Option.some.inj (Option.eq_some_of_filter_eq_some h)).symm
      · exact (Option.some.inj h).symm
    exact hr ▸ .refl r
  | add e =>
    refine .inr ⟨id, ?_⟩
    have hr : r' = r := by
      simp only [Op.next] at h
      split at h <;> exact (Option.some.inj h).symm
    exact hr ▸ .refl r
  | update e =>
    by_cases hk : e.cacheKey = key
    · rw [Op.next, if_pos ⟨hk, hkey⟩] at h
      cases he : r.isExpiredAt e.learnedAt with
      | true =>
        have hr : r' = e := by simpa [renewed, he] using h.symm
        exact .inl ⟨⟨hk, by simpa [Resolution.isExpiredAt] using he⟩, by rw [hr]⟩
      | false =>
        have hr : r' = refresh r e := by simpa [renewed, he] using h.symm
        refine .inr ⟨fun hrep => ?_, hr ▸ .refresh r e⟩
        simp [Resolution.isExpiredAt, hrep.2] at he
    · rw [Op.next, if_neg fun hc => hk hc.1] at h
      cases h
      exact .inr ⟨fun hrep => hk hrep.1, .refl r⟩
  | delete k =>
    refine .inr ⟨id, ?_⟩
    simp only [Op.next] at h
    split at h
    · cases h
    · cases h
      exact .refl r
  | rotate k =>
    refine .inr ⟨id, ?_⟩
    simp only [Op.next] at h
    split at h
    · cases h
      exact .rotate r
    · cases h
      exact .refl r
  | clear => cases h

/-- An entry that nothing ends is there still. -/
theorem continues_of_undisturbed : ∀ (more : List Op) {c : Cache} {r : Resolution}, c.WellKept →
    c.entries.get? key = some r → Undisturbed key c more →
      ∃ r', (more.foldl apply c).entries.get? key = some r' ∧ r.Continues r'
  | [], _, r, _, hr, _ => ⟨r, hr, .refl r⟩
  | op :: more, c, r, hc, hr, ⟨hop, hmore⟩ => by
    obtain ⟨hkeep, hplace⟩ := hop r hr
    have hget := get?_apply hc op key
    rw [hr] at hget
    cases hn : op.next key (some r) with
    | none => exact absurd ((next_eq_none_iff op).1 hn) hkeep
    | some r₁ =>
      obtain ⟨r', hr', hcont⟩ :=
        continues_of_undisturbed more (hc.apply op) (hget.trans hn) hmore
      rcases next_cases (hc.of_get? hr).2 hn with ⟨hrep, -⟩ | ⟨-, hfirst⟩
      · exact absurd hrep hplace
      · exact ⟨r', hr', hfirst.trans hcont⟩

/-- Every entry is kept under its own key. It disappears exactly by what removes it, is replaced as
a whole exactly by what replaces it, and is otherwise the same entry after any operations: a family
that had addresses has them still, in the same cyclic order. -/
theorem entries_persist (ops : List Op) :
    (∀ e ∈ (run ops).entries, e.2.cacheKey = e.1 ∧ e.1 ≠ "")
      ∧ ∀ {key : String} {r : Resolution}, (run ops).entries.get? key = some r →
        (∀ op, (run (ops ++ [op])).entries.get? key = none ↔ op.Removes key r)
          ∧ (∀ op r', (run (ops ++ [op])).entries.get? key = some r' →
              op.Replaces key r ∧ op = .update r' ∨ ¬ op.Replaces key r ∧ r.Continues r')
          ∧ ∀ more, Undisturbed key (run ops) more →
              ∃ r', (run (ops ++ more)).entries.get? key = some r' ∧ r.Continues r' := by
  have hkept := run_wellKept ops
  refine ⟨fun e he => ⟨hkept.cacheKey_eq e he, hkept.ne_empty e he⟩, fun {key r} hr => ?_⟩
  have hnext : ∀ op, (run (ops ++ [op])).entries.get? key = op.next key (some r) := by
    intro op
    rw [run, List.foldl_append, ← hr]
    exact get?_apply hkept op key
  refine ⟨fun op => ?_, fun op r' hr' => ?_, fun more hmore => ?_⟩
  · rw [hnext]
    exact next_eq_none_iff op
  · exact next_cases (hkept.of_get? hr).2 ((hnext op).symm.trans hr')
  · rw [run, List.foldl_append]
    exact continues_of_undisturbed more hkept hr hmore

/-- An answer with two IPv4 addresses, for ten seconds. -/
def shortAnswer : Resolution where
  host := "a.com"
  cacheKey := "a.com"
  ips := [⟨"192.0.2.1", none⟩, ⟨"192.0.2.2", none⟩]
  ttl := 10

/-- An answer with another IPv4 address and one of IPv6, for an hour, five seconds later. -/
def longAnswer : Resolution where
  host := "a.com"
  cacheKey := "a.com"
  ips := [⟨"198.51.100.1", none⟩]
  ipsv6 := [⟨"2001:db8::1", none⟩]
  ttl := 3600
  learnedAt := 5000

/-- An entry stays through lookups, rotations and a merge, although its own ten seconds are over,
and goes when the hour is. -/
theorem merged_entry_persists :
    let more : List Op := [.rotate "a.com", .update longAnswer, .lookup "a.com" .both 20000]
    (run [.update shortAnswer]).entries.get? "a.com" = some shortAnswer
      ∧ Undisturbed "a.com" (run [.update shortAnswer]) more
      ∧ (∃ r, (run (.update shortAnswer :: more)).entries.get? "a.com" = some r
          ∧ shortAnswer.Continues r)
      ∧ (run (.update shortAnswer :: more ++ [.lookup "a.com" .a 3605000])).entries.get? "a.com"
          = none := by
  intro more
  have hget : (run [.update shortAnswer]).entries.get? "a.com" = some shortAnswer := by
    decide +kernel
  have hmore : Undisturbed "a.com" (run [.update shortAnswer]) more := by decide +kernel
  obtain ⟨-, -, hstays⟩ := (entries_persist [.update shortAnswer]).2 hget
  obtain ⟨r, hr, hcont⟩ := hstays more hmore
  obtain ⟨hgone, -⟩ := (entries_persist (.update shortAnswer :: more)).2 hr
  refine ⟨hget, hmore, ⟨r, hr, hcont⟩, (hgone _).2 ⟨rfl, ?_⟩⟩
  have hexpires : ((run (.update shortAnswer :: more)).entries.get? "a.com").map (·.expiresAt)
      = some 3605000 := by decide +kernel
  have hr' : (run (.update shortAnswer :: more)).entries.get? "a.com" = some r := hr
  rw [hr'] at hexpires
  exact (Option.some.inj hexpires).le

end Cache

end HttpDns
