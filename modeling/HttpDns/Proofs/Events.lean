import HttpDns.Services

/-!
# Whose events they are

Every event but the detector's answer, the sending of a round and the asking of a boot server is
about one query. An action that goes through a list element by element passes each of them by its
own events (`Passes`); the events about a position are then those of its element, also when the
list goes through one action after the other (`Passes.comp`).
-/

namespace HttpDns

/-- The position of the query an event is about. -/
def Event.query? : Event → Option Nat
  | drew i _ | probed i _ _ _ | rotated i _ | switched i _ _ | sampled i _ _ | stored i _
  | fired i _ => some i
  | detected _ | sent _ _ | asked _ => none

/-- The events about a query. -/
def about (i : Nat) (es : List Event) : List Event :=
  es.filter fun e => e.query? = some i

/-- The results that callbacks were called with, in order. -/
def firings (es : List Event) : List (List Resolution) :=
  es.filterMap fun
    | .fired _ results => some results
    | _ => none

@[simp] theorem about_nil (i : Nat) : about i [] = [] := rfl

@[simp] theorem about_append (i : Nat) (es fs : List Event) :
    about i (es ++ fs) = about i es ++ about i fs :=
  List.filter_append es fs

@[simp] theorem firings_nil : firings [] = [] := rfl

@[simp] theorem firings_append (es fs : List Event) :
    firings (es ++ fs) = firings es ++ firings fs :=
  List.filterMap_append

theorem about_eq_self {i : Nat} {es : List Event} (h : ∀ e ∈ es, e.query? = some i) :
    about i es = es := by
  unfold about
  rw [List.filter_eq_self]
  intro e he
  simpa using h e he

theorem about_eq_nil {i : Nat} {es : List Event} (h : ∀ e ∈ es, e.query? ≠ some i) :
    about i es = [] := by
  unfold about
  rw [List.filter_eq_nil_iff]
  intro e he
  simpa using h e he

theorem mem_about {i : Nat} {e : Event} {es : List Event} (he : e ∈ es)
    (hi : e.query? = some i) : e ∈ about i es := by
  unfold about
  exact List.mem_filter.2 ⟨he, decide_eq_true hi⟩

theorem mem_of_mem_about {i : Nat} {e : Event} {es : List Event} (he : e ∈ about i es) :
    e ∈ es :=
  (List.mem_filter.1 he).1

theorem firings_eq_nil {es : List Event} (h : ∀ k, firings (about k es) = []) :
    firings es = [] := by
  unfold firings
  rw [List.filterMap_eq_nil_iff]
  intro e he
  cases e with
  | fired i results =>
    have := List.filterMap_eq_nil_iff.1 (h i) _ (mem_about he rfl)
    exact this
  | detected | drew | probed | rotated | switched | sent | sampled | stored | asked => rfl

/-! ## Lists passed element by element -/

variable {α β γ : Type}

/-- The elements of `as`, at the positions from `i` on, have become those of `bs`, each by the
events about its position. -/
structure Passes (R : Nat → α → β → List Event → Prop) (i : Nat) (as : List α) (bs : List β)
    (es : List Event) : Prop where
  length_eq : bs.length = as.length
  each : ∀ {k a b}, as[k]? = some a → bs[k]? = some b → R (i + k) a b (about (i + k) es)
  others : ∀ k, k < i ∨ i + as.length ≤ k → about k es = []

/-- What one step does and what another one does after it makes one step. -/
def Composes (R : Nat → α → α → List Event → Prop) : Prop :=
  ∀ ⦃i a b c es fs⦄, R i a b es → R i b c fs → R i a c (es ++ fs)

namespace Passes

variable {R : Nat → α → β → List Event → Prop} {T : Nat → β → γ → List Event → Prop} {i : Nat}
  {as : List α} {bs : List β} {es fs : List Event}

theorem nil : Passes R i [] [] [] where
  length_eq := rfl
  each h := by simp at h
  others _ _ := rfl

/-- The first element passes by events about nothing else, then the rest does. -/
theorem cons {a : α} {b : β} (hab : R i a b (about i es)) (hes : ∀ k, k ≠ i → about k es = [])
    (h : Passes R (i + 1) as bs fs) : Passes R i (a :: as) (b :: bs) (es ++ fs) where
  length_eq := by rw [List.length_cons, List.length_cons, h.length_eq]
  each {k a' b'} ha hb := by
    cases k with
    | zero =>
      obtain rfl : a = a' := by simpa using ha
      obtain rfl : b = b' := by simpa using hb
      rw [Nat.add_zero, about_append, h.others i (by omega), List.append_nil]
      exact hab
    | succ k =>
      rw [List.getElem?_cons_succ] at ha hb
      have := h.each ha hb
      rw [about_append, hes _ (by omega), List.nil_append]
      rwa [show i + 1 + k = i + (k + 1) by omega] at this
  others k hk := by
    rw [List.length_cons] at hk
    rw [about_append, hes k (by omega), h.others k (by omega), List.append_nil]

/-- A list that goes through two actions passes each element by the events of both. -/
theorem comp {cs : List γ} (h : Passes R i as bs es) (h' : Passes T i bs cs fs) :
    Passes (fun j a c gs => ∃ b gs₁ gs₂, R j a b gs₁ ∧ T j b c gs₂ ∧ gs = gs₁ ++ gs₂) i as cs
      (es ++ fs) where
  length_eq := h'.length_eq.trans h.length_eq
  each {k a c} ha hc := by
    have hk : k < bs.length := h'.length_eq ▸ (List.getElem?_eq_some_iff.1 hc).1
    have hb : bs[k]? = some bs[k] := List.getElem?_eq_getElem hk
    exact ⟨bs[k], _, _, h.each ha hb, h'.each hb hc, about_append ..⟩
  others k hk := by
    rw [about_append, h.others k hk, h'.others k (by rw [h.length_eq]; exact hk), List.append_nil]

theorem trans {T : Nat → α → α → List Event → Prop} (hT : Composes T) {as' as'' : List α}
    (h : Passes T i as as' es) (h' : Passes T i as' as'' fs) : Passes T i as as'' (es ++ fs) where
  length_eq := (h.comp h').length_eq
  each ha hc := by
    obtain ⟨b, gs₁, gs₂, h₁, h₂, hgs⟩ := (h.comp h').each ha hc
    rw [hgs]
    exact hT h₁ h₂
  others := (h.comp h').others

theorem of_refl {T : Nat → α → α → List Event → Prop} (hT : ∀ j a, T j a a []) :
    ∀ (i : Nat) (as : List α), Passes T i as as []
  | _, [] => .nil
  | i, a :: as => by
    have ha : T i a a (about i []) := hT i a
    exact (of_refl hT (i + 1) as).cons ha fun _ _ => rfl

theorem mono {P : Nat → α → β → List Event → Prop} (h : Passes R i as bs es)
    (hR : ∀ j a b gs, R j a b gs → P j a b gs) : Passes P i as bs es where
  length_eq := h.length_eq
  each ha hb := hR _ _ _ _ (h.each ha hb)
  others := h.others

theorem snoc (h : Passes R 0 as bs es) {a : α} {b : β} (hab : R as.length a b []) :
    Passes R 0 (as ++ [a]) (bs ++ [b]) es where
  length_eq := by simp [h.length_eq]
  each {k a' b'} ha hb := by
    by_cases hk : k < as.length
    · rw [List.getElem?_append_left hk] at ha
      rw [List.getElem?_append_left (h.length_eq ▸ hk)] at hb
      exact h.each ha hb
    · have hlen : k < as.length + 1 := by
        simpa using (List.getElem?_eq_some_iff.1 ha).1
      obtain rfl : k = as.length := by omega
      obtain rfl : a = a' := by simpa using ha
      obtain rfl : b = b' := by
        rw [← h.length_eq] at hb
        simpa using hb
      rw [Nat.zero_add, h.others _ (by omega)]
      exact hab
  others k hk := by
    rw [List.length_append, List.length_singleton] at hk
    exact h.others k (by omega)

theorem map (h : Passes R i as bs es) (f : β → γ) {P : Nat → α → γ → List Event → Prop}
    (hP : ∀ j a b gs, R j a b gs → P j a (f b) gs) : Passes P i as (bs.map f) es where
  length_eq := List.length_map f ▸ h.length_eq
  each {k a c} ha hc := by
    rw [List.getElem?_map] at hc
    obtain ⟨b, hb, rfl⟩ := Option.map_eq_some_iff.1 hc
    exact hP _ _ _ _ (h.each ha hb)
  others := h.others

/-- Each element stands at its place in the list it has gone over to. -/
theorem located (h : Passes R i as bs es) :
    Passes (fun j a b gs => R j a b gs ∧ bs[j - i]? = some b) i as bs es where
  length_eq := h.length_eq
  each {k a b} ha hb := ⟨h.each ha hb, by rwa [Nat.add_sub_cancel_left]⟩
  others := h.others

theorem append_silent (h : Passes R i as bs es) (hfs : ∀ k, about k fs = []) :
    Passes R i as bs (es ++ fs) where
  length_eq := h.length_eq
  each ha hb := by
    rw [about_append, hfs, List.append_nil]
    exact h.each ha hb
  others k hk := by rw [about_append, h.others k hk, hfs, List.append_nil]

theorem singleton {a : α} (h : Passes R i [a] bs es) :
    ∃ b, bs = [b] ∧ R i a b (about i es) := by
  obtain ⟨b, rfl⟩ := List.length_eq_one_iff.1 h.length_eq
  exact ⟨b, rfl, h.each (k := 0) rfl rfl⟩

theorem get_after (h : Passes R i as bs es) {k : Nat} {a : α} (ha : as[k]? = some a) :
    ∃ b, bs[k]? = some b := by
  have hk : k < bs.length := h.length_eq ▸ (List.getElem?_eq_some_iff.1 ha).1
  exact ⟨_, List.getElem?_eq_getElem hk⟩

theorem get_before (h : Passes R i as bs es) {k : Nat} {b : β} (hb : bs[k]? = some b) :
    ∃ a, as[k]? = some a := by
  have hk : k < as.length := h.length_eq ▸ (List.getElem?_eq_some_iff.1 hb).1
  exact ⟨_, List.getElem?_eq_getElem hk⟩

/-- There are no events about a position, or those by which an element has passed. -/
theorem about_cases (h : Passes R i as bs es) (k : Nat) :
    about k es = [] ∨ ∃ (n : Nat) (a : α) (b : β), as[n]? = some a ∧ bs[n]? = some b
      ∧ R k a b (about k es) := by
  by_cases hk : k < i ∨ i + as.length ≤ k
  · exact .inl (h.others k hk)
  · have hle : i ≤ k := by omega
    have hlt : k - i < as.length := by omega
    have ha : as[k - i]? = some as[k - i] := List.getElem?_eq_getElem hlt
    obtain ⟨b, hb⟩ := h.get_after ha
    have hstep := h.each ha hb
    rw [Nat.add_sub_cancel' hle] at hstep
    exact .inr ⟨k - i, _, b, ha, hb, hstep⟩

end Passes

end HttpDns
