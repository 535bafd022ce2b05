/-!
# Separated texts

A list of pieces is written with a separator between them and read back by splitting at every
separator. Splitting never yields the empty list: a text without separators is one piece. Joining
undoes splitting, and splitting undoes joining when no piece holds the separator.
-/

namespace HttpDns.Text

/-- The pieces between the separators, from left to right. -/
def split (sep : Char) : List Char → List (List Char)
  | [] => [[]]
  | c :: cs =>
    if c = sep then [] :: split sep cs
    else
      match split sep cs with
      | [] => [[c]]
      | piece :: rest => (c :: piece) :: rest

/-- The pieces with the separator between them. -/
def join (sep : Char) : List (List Char) → List Char
  | [] => []
  | [piece] => piece
  | piece :: rest => piece ++ sep :: join sep rest

/-- The texts between the separators. -/
def splitText (sep : Char) (s : String) : List String :=
  (split sep s.toList).map String.ofList

/-- The texts with the separator between them. -/
def joinTexts (sep : Char) (pieces : List String) : String :=
  String.ofList (join sep (pieces.map String.toList))

theorem split_ne_nil (sep : Char) : ∀ cs : List Char, split sep cs ≠ []
  | [] => by simp [split]
  | c :: cs => by
    unfold split
    split
    · simp
    · split <;> simp

theorem split_of_not_mem {sep : Char} : ∀ {cs : List Char}, sep ∉ cs → split sep cs = [cs]
  | [], _ => rfl
  | c :: cs, h => by
    have hc : c ≠ sep := fun e => h (by simp [e])
    have hcs : sep ∉ cs := fun m => h (List.mem_cons_of_mem _ m)
    simp [split, hc, split_of_not_mem hcs]

theorem split_append_sep {sep : Char} (rest : List Char) :
    ∀ {piece : List Char}, sep ∉ piece → split sep (piece ++ sep :: rest) = piece :: split sep rest
  | [], _ => by simp [split]
  | c :: cs, h => by
    have hc : c ≠ sep := fun e => h (by simp [e])
    have hcs : sep ∉ cs := fun m => h (List.mem_cons_of_mem _ m)
    simp [split, hc, split_append_sep rest hcs]

/-- Splitting undoes joining when no piece holds the separator. -/
theorem split_join {sep : Char} : ∀ {pieces : List (List Char)}, pieces ≠ [] →
    (∀ p ∈ pieces, sep ∉ p) → split sep (join sep pieces) = pieces
  | [], h, _ => absurd rfl h
  | [p], _, h => split_of_not_mem (h p (by simp))
  | p :: q :: rest, _, h => by
    rw [join, split_append_sep _ (h p (by simp)),
      split_join (by simp) (fun x hx => h x (List.mem_cons_of_mem _ hx))]
    simp

theorem not_mem_split {sep : Char} : ∀ (cs : List Char), ∀ piece ∈ split sep cs, sep ∉ piece
  | [], piece, h => by
    obtain rfl := List.mem_singleton.1 h
    exact List.not_mem_nil
  | c :: cs, piece, h => by
    have ih : ∀ piece ∈ split sep cs, sep ∉ piece := not_mem_split cs
    rw [split] at h
    by_cases hc : c = sep
    · rw [if_pos hc] at h
      rcases List.mem_cons.1 h with rfl | h
      · exact List.not_mem_nil
      · exact ih piece h
    · rw [if_neg hc] at h
      cases hs : split sep cs with
      | nil => exact absurd hs (split_ne_nil sep cs)
      | cons first rest =>
        rw [hs] at h ih
        rcases List.mem_cons.1 h with rfl | h
        · simp [Ne.symm hc, ih first List.mem_cons_self]
        · exact ih piece (List.mem_cons_of_mem _ h)

theorem join_split {sep : Char} : ∀ cs : List Char, join sep (split sep cs) = cs
  | [] => rfl
  | c :: cs => by
    have ih : join sep (split sep cs) = cs := join_split cs
    cases hs : split sep cs with
    | nil => exact absurd hs (split_ne_nil sep cs)
    | cons first rest =>
      rw [hs] at ih
      rw [split]
      by_cases hc : c = sep
      · rw [if_pos hc, hs, join, ih, hc]
        · rfl
        · simp
      · rw [if_neg hc, hs]
        cases rest with
        | nil => simpa [join] using ih
        | cons => simpa [join] using ih

theorem joinTexts_splitText (sep : Char) (s : String) : joinTexts sep (splitText sep s) = s := by
  simp [joinTexts, splitText, List.map_map, join_split]

theorem splitText_joinTexts {sep : Char} {pieces : List String} (hne : pieces ≠ [])
    (h : ∀ piece ∈ pieces, sep ∉ piece.toList) : splitText sep (joinTexts sep pieces) = pieces := by
  have hsplit : split sep (join sep (pieces.map String.toList)) = pieces.map String.toList :=
    split_join (by simpa using hne) (by simpa using h)
  simp [splitText, joinTexts, hsplit, List.map_map]

end HttpDns.Text
