/-!
# Blank characters

The twenty-five characters with the Unicode property `White_Space`, and the trimming of a text at
both ends. A text is blank when nothing is left of it.
-/

namespace HttpDns.Text

/-- The character has the Unicode property `White_Space`. -/
def isBlank (c : Char) : Bool :=
  let n := c.toNat
  (9 ≤ n && n ≤ 13) || n == 0x20 || n == 0x85 || n == 0xA0 || n == 0x1680 ||
    (0x2000 ≤ n && n ≤ 0x200A) || n == 0x2028 || n == 0x2029 || n == 0x202F || n == 0x205F ||
    n == 0x3000

/-- The characters without the blank ones at either end. -/
def trimChars (cs : List Char) : List Char :=
  ((cs.dropWhile isBlank).reverse.dropWhile isBlank).reverse

/-- The text without the blank characters at either end. -/
def trim (s : String) : String :=
  String.ofList (trimChars s.toList)

/-- The text holds blank characters only. -/
def allBlank (s : String) : Bool :=
  s.toList.all isBlank

theorem isBlank_of_isWhitespace {c : Char} (h : c.isWhitespace = true) : isBlank c = true := by
  simp only [Char.isWhitespace, Bool.or_eq_true, decide_eq_true_eq] at h
  rcases h with ((h | h) | h) | h <;> subst h <;> decide

theorem dropWhile_eq_nil_iff_all {p : Char → Bool} :
    ∀ cs : List Char, cs.dropWhile p = [] ↔ cs.all p = true
  | [] => by simp
  | c :: cs => by
    cases h : p c with
    | false => simp [h]
    | true =>
      rw [List.dropWhile_cons, if_pos h, dropWhile_eq_nil_iff_all cs]
      simp [h]

theorem mem_of_mem_trimChars {c : Char} {cs : List Char} (h : c ∈ trimChars cs) : c ∈ cs := by
  unfold trimChars at h
  rw [List.mem_reverse] at h
  have hback := (List.dropWhile_sublist isBlank).mem h
  rw [List.mem_reverse] at hback
  exact (List.dropWhile_sublist isBlank).mem hback

theorem trimChars_eq_nil_iff {cs : List Char} : trimChars cs = [] ↔ cs.all isBlank = true := by
  unfold trimChars
  rw [List.reverse_eq_nil_iff, dropWhile_eq_nil_iff_all, List.all_reverse]
  constructor
  · intro h
    rw [← dropWhile_eq_nil_iff_all]
    cases hd : cs.dropWhile isBlank with
    | nil => rfl
    | cons c rest =>
      have hc : isBlank c = false := by
        have := List.head_dropWhile_not isBlank (l := cs) (by rw [hd]; simp)
        simpa [hd] using this
      rw [hd] at h
      simp [hc] at h
  · intro h
    rw [(dropWhile_eq_nil_iff_all cs).2 h]
    rfl

/-- A text is blank exactly when trimming leaves nothing. -/
theorem trim_eq_empty_iff {s : String} : trim s = "" ↔ allBlank s = true := by
  unfold trim allBlank
  rw [← trimChars_eq_nil_iff]
  constructor
  · intro h
    have := congrArg String.toList h
    simpa using this
  · intro h
    rw [h]

end HttpDns.Text
