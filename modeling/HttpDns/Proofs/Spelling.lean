import HttpDns.Proofs.Documents
import HttpDns.Toml.Document

/-!
# How TOML tokens are written

A text spells tokens if these are written in it one behind the other (`Lexed`): marks as
themselves, bare words of key characters, strings between quotes in which every character stands
for itself or is escaped in one of the ways the grammar has, and line breaks behind a remark, if
there is one. The tokens that are read off a text are those it spells (`tokens_of_lexed`).
-/

namespace HttpDns.Toml

/-! ## The grammar -/

/-- The character is a tab or no control character. -/
def Plain (c : Char) : Prop :=
  c = '\t' ∨ 0x20 ≤ c.toNat ∧ c ≠ '\x7f'

/-- The escapes of one letter, and what they stand for. -/
def shortEscapes : List (Char × Char) :=
  [('b', '\x08'), ('t', '\t'), ('n', '\n'), ('f', '\x0c'), ('r', '\r'), ('"', '"'), ('\\', '\\')]

/-- The escapes with a number, and how many digits it has. -/
def codeEscapes : List (Char × Nat) :=
  [('u', 4), ('U', 8)]

/-- Hexadecimal digits of either case, and their number. -/
inductive Hex : List Char → Nat → Prop
  | nil : Hex [] 0
  | snoc {ds : List Char} {n v : Nat} {d : Char} (front : Hex ds n) (hv : v < 16)
      (hd : d = v.digitChar ∨ d = v.digitChar.toUpper) : Hex (ds ++ [d]) (16 * n + v)

/-- What may stand between the quotes of a string, and the characters it stands for. -/
inductive Basic : List Char → List Char → Prop
  | nil : Basic [] []
  | plain {w s : List Char} {c : Char} (hc : Plain c) (hquote : c ≠ '"') (hslash : c ≠ '\\')
      (rest : Basic w s) : Basic (c :: w) (c :: s)
  | short {w s : List Char} {e c : Char} (h : (e, c) ∈ shortEscapes) (rest : Basic w s) :
      Basic ('\\' :: e :: w) (c :: s)
  | code {w s ds : List Char} {e c : Char} (h : (e, ds.length) ∈ codeEscapes)
      (hc : Hex ds c.toNat) (rest : Basic w s) : Basic ('\\' :: e :: (ds ++ w)) (c :: s)

/-- A remark, or nothing. -/
inductive Remark : List Char → Prop
  | absent : Remark []
  | given {cs : List Char} (h : ∀ c ∈ cs, Plain c) : Remark ('#' :: cs)

inductive LineBreak : List Char → Prop
  | feed : LineBreak ['\n']
  | returnFeed : LineBreak ['\r', '\n']

/-- The marks of assignments, headers and lists. -/
def marks : List (Token × Char) :=
  [(.blank ' ', ' '), (.blank '\t', '\t'), (.equals, '='), (.comma, ','), (.openList, '['),
    (.closeList, ']')]

/-- The character may stand in a bare key. -/
def isBare (c : Char) : Bool :=
  c.isAlphanum || c = '-' || c = '_'

/-- A word or a string may end before this text. -/
def Ended (cs : List Char) : Prop :=
  ∀ c ∈ cs.head?, c ∈ [' ', '\t', '\n', '\r', '#', '=', ',', ']']

/-- The text spells the tokens. -/
inductive Lexed : List Token → List Char → Prop
  | nil {note : List Char} (h : Remark note) : Lexed [] note
  | newline {ts : List Token} {note brk cs : List Char} (hnote : Remark note)
      (hbreak : LineBreak brk) (rest : Lexed ts cs) : Lexed (.newline :: ts) (note ++ brk ++ cs)
  | mark {ts : List Token} {t : Token} {c : Char} {cs : List Char} (h : (t, c) ∈ marks)
      (rest : Lexed ts cs) : Lexed (t :: ts) (c :: cs)
  | word {ts : List Token} {w cs : List Char} (hne : w ≠ []) (hw : w.all isBare = true)
      (hend : Ended cs) (rest : Lexed ts cs) : Lexed (.word w :: ts) (w ++ cs)
  | text {ts : List Token} {w s cs : List Char} (hw : Basic w s) (hend : Ended cs)
      (rest : Lexed ts cs) : Lexed (.text s :: ts) ('"' :: (w ++ '"' :: cs))

/-! ## Characters -/

theorem isPlain_of_plain {c : Char} (h : Plain c) : isPlain c = true := by
  have hdel : c ≠ '\x7f' → c.toNat ≠ 0x7F := fun hc hn => hc (Char.toNat_inj.1 hn)
  rcases h with rfl | ⟨hlow, hc⟩
  · rfl
  · simp [isPlain, hlow, hdel hc]

theorem isKeyChar_of_isBare {c : Char} (h : isBare c = true) : isKeyChar c = true := h

theorem isWordChar_of_isKeyChar {c : Char} (h : isKeyChar c = true) :
    Lexer.isWordChar c = true := by
  have hmark : mark c = none := by
    unfold mark
    split
    all_goals first | rfl | exact absurd h (by decide)
  have hreturn : c ≠ '\r' := by
    rintro rfl
    exact absurd h (by decide)
  have hnote : c ≠ '#' := by
    rintro rfl
    exact absurd h (by decide)
  simp [Lexer.isWordChar, hmark, hreturn, hnote]

theorem isWordChar_of_ended {c : Char} {cs : List Char} (h : Ended (c :: cs)) :
    Lexer.isWordChar c = false := by
  have hall : [' ', '\t', '\n', '\r', '#', '=', ',', ']'].all (!Lexer.isWordChar ·) = true := rfl
  simpa using List.all_eq_true.1 hall c (h c rfl)

theorem hexValue_of_digit : ∀ {v : Nat} {d : Char}, v < 16 →
    d = v.digitChar ∨ d = v.digitChar.toUpper → hexValue d = some v := by
  have hall : ∀ v < 16, hexValue v.digitChar = some v
      ∧ hexValue v.digitChar.toUpper = some v := by decide
  rintro v d hv (rfl | rfl)
  · exact (hall v hv).1
  · exact (hall v hv).2

theorem charOf_toNat (c : Char) : charOf c.toNat = some c := by
  have hrange : (decide (c.toNat < 0xD800)
      || decide (0xE000 ≤ c.toNat) && decide (c.toNat < 0x110000)) = true := by
    simpa using Json.char_range c
  rw [charOf, if_pos hrange, Char.ofNat_toNat]

/-! ## Reading -/

namespace Lexer

/-- The tokens of a text that is read on from some machine. -/
def tokensFrom (l : Lexer) (cs : List Char) : Option (List Token) :=
  (cs.foldlM step l).bind finish

variable {done : List Token} {rest : List Char}

theorem tokensFrom_of_step {l l' : Lexer} {c : Char} (h : l.step c = some l') (cs : List Char) :
    l.tokensFrom (c :: cs) = l'.tokensFrom cs := by
  unfold tokensFrom
  rw [List.foldlM_cons, h]
  rfl

/-- Two machines that take the next step alike read the same. -/
theorem tokensFrom_congr {l l' : Lexer} {c : Char} (h : l.step c = l'.step c) (cs : List Char) :
    l.tokensFrom (c :: cs) = l'.tokensFrom (c :: cs) := by
  unfold tokensFrom
  rw [List.foldlM_cons, List.foldlM_cons, h]

/-! ### Strings -/

theorem tokensFrom_hex {cs ds : List Char} {n : Nat} (h : Hex ds n) : ∀ left : Nat, 0 < left →
    (⟨.hex false cs (ds.length + left) 0, done⟩ : Lexer).tokensFrom (ds ++ rest)
      = (⟨.hex false cs left n, done⟩ : Lexer).tokensFrom rest := by
  induction h generalizing rest with
  | nil =>
    intro left _
    rw [List.length_nil, Nat.zero_add, List.nil_append]
  | @snoc ds n v d _ hv hd ih =>
    intro left hleft
    have hstep : (⟨.hex false cs (left + 1) n, done⟩ : Lexer).step d
        = some ⟨.hex false cs left (16 * n + v), done⟩ := by
      simp [step, hex, enter, hexValue_of_digit hv hd, hleft]
    rw [List.length_append, List.length_singleton, Nat.add_assoc, Nat.add_comm 1,
      List.append_assoc, ih (left + 1) (by omega), List.singleton_append, tokensFrom_of_step hstep]

/-- A character whose number is written out. -/
theorem tokensFrom_code {cs ds : List Char} {c : Char} (hne : ds ≠ []) (h : Hex ds c.toNat) :
    (⟨.hex false cs ds.length 0, done⟩ : Lexer).tokensFrom (ds ++ rest)
      = (⟨.text '"' (c :: cs), done⟩ : Lexer).tokensFrom rest := by
  generalize hn : c.toNat = n at h
  cases h with
  | nil => exact absurd rfl hne
  | @snoc ds n v d front hv hd =>
    have hlast : (⟨.hex false cs 1 n, done⟩ : Lexer).step d = some ⟨.text '"' (c :: cs), done⟩ := by
      simp [step, hex, enter, resume, hexValue_of_digit hv hd, ← hn, charOf_toNat]
    rw [List.length_append, List.length_singleton, List.append_assoc,
      tokensFrom_hex front 1 Nat.one_pos, List.singleton_append, tokensFrom_of_step hlast]

theorem step_backslash (cs : List Char) :
    (⟨.text '"' cs, done⟩ : Lexer).step '\\' = some ⟨.escape false cs, done⟩ := rfl

theorem tokensFrom_basic {w s : List Char} (h : Basic w s) : ∀ cs : List Char,
    (⟨.text '"' cs, done⟩ : Lexer).tokensFrom (w ++ rest)
      = (⟨.text '"' (s.reverse ++ cs), done⟩ : Lexer).tokensFrom rest := by
  induction h with
  | nil => exact fun _ => rfl
  | @plain w s c hc hquote hslash _ ih =>
    intro cs
    have hstep : (⟨.text '"' cs, done⟩ : Lexer).step c = some ⟨.text '"' (c :: cs), done⟩ := by
      simp [step, text, enter, hquote, hslash, isPlain_of_plain hc]
    rw [List.cons_append, tokensFrom_of_step hstep, ih, List.reverse_cons, List.append_assoc,
      List.singleton_append]
  | @short w s e c h _ ih =>
    intro cs
    have hall : ∀ p ∈ shortEscapes, escaped p.1 = some p.2 := by decide
    have hstep : (⟨.escape false cs, done⟩ : Lexer).step e
        = some ⟨.text '"' (c :: cs), done⟩ := by
      simp [step, escape, enter, resume, hall _ h]
    rw [List.cons_append, tokensFrom_of_step (step_backslash cs), List.cons_append,
      tokensFrom_of_step hstep, ih, List.reverse_cons, List.append_assoc, List.singleton_append]
  | @code w s ds e c h hc _ ih =>
    intro cs
    have hall : ∀ p ∈ codeEscapes, escaped p.1 = none ∧ hexDigits p.1 = some p.2 ∧ p.2 ≠ 0 := by
      decide
    obtain ⟨hletter, hdigits, hlength⟩ := hall _ h
    have hstep : (⟨.escape false cs, done⟩ : Lexer).step e
        = some ⟨.hex false cs ds.length 0, done⟩ := by
      simp [step, escape, enter, hletter, hdigits]
    have hne : ds ≠ [] := fun hnil => hlength (by rw [hnil]; rfl)
    rw [List.cons_append, tokensFrom_of_step (step_backslash cs), List.cons_append,
      List.append_assoc, tokensFrom_of_step hstep, tokensFrom_code hne hc, ih, List.reverse_cons,
      List.append_assoc, List.singleton_append]

/-- A quote begins no string over several lines, and closes the one it is in. -/
theorem tokensFrom_text {w s : List Char} (h : Basic w s) (hend : Ended rest) :
    (⟨.between, done⟩ : Lexer).tokensFrom ('"' :: (w ++ '"' :: rest))
      = (⟨.between, .text s :: done⟩ : Lexer).tokensFrom rest := by
  have hopen : (⟨.between, done⟩ : Lexer).step '"' = some ⟨.opening '"' false, done⟩ := rfl
  have hclose : (⟨.text '"' s.reverse, done⟩ : Lexer).step '"'
      = some ⟨.between, .text s :: done⟩ := by
    simp [step, text, emit]
  rw [tokensFrom_of_step hopen]
  cases w with
  | nil =>
    cases h
    have htwo : (⟨.opening '"' false, done⟩ : Lexer).step '"' = some ⟨.opening '"' true, done⟩ :=
      rfl
    rw [List.nil_append, tokensFrom_of_step htwo]
    cases rest with
    | nil => rfl
    | cons c rest =>
      have hc : c ≠ '"' := by
        rintro rfl
        exact absurd (isWordChar_of_ended hend) (by decide)
      refine tokensFrom_congr ?_ rest
      simp [step, emit, hc]
  | cons c w =>
    have hc : c ≠ '"' := by
      cases h with
      | plain _ hquote => exact hquote
      | short => decide
      | code => decide
    have hsame : (⟨.opening '"' false, done⟩ : Lexer).step c
        = (⟨.text '"' [], done⟩ : Lexer).step c := by
      simp [step, text, enter, hc]
    rw [List.cons_append, tokensFrom_congr hsame, ← List.cons_append, tokensFrom_basic h,
      List.append_nil, tokensFrom_of_step hclose]

/-! ### Words -/

theorem start_keyChar {c : Char} (h : isKeyChar c = true) :
    (⟨.between, done⟩ : Lexer).step c = some ⟨.word [c], done⟩ := by
  have hword := isWordChar_of_isKeyChar h
  have hquote : c ≠ '"' ∧ c ≠ '\'' := by
    constructor <;> rintro rfl <;> exact absurd h (by decide)
  simp only [isWordChar, Bool.and_eq_true, decide_eq_true_eq, Option.isNone_iff_eq_none] at hword
  obtain ⟨⟨hmark, hreturn⟩, hnote⟩ := hword
  simp [step, start, enter, hmark, hreturn, hnote, hquote]

theorem tokensFrom_wordChars {w : List Char} (h : ∀ c ∈ w, isKeyChar c = true) :
    ∀ cs : List Char, (⟨.word cs, done⟩ : Lexer).tokensFrom (w ++ rest)
      = (⟨.word (w.reverse ++ cs), done⟩ : Lexer).tokensFrom rest := by
  induction w with
  | nil => exact fun _ => rfl
  | cons c w ih =>
    intro cs
    have hstep : (⟨.word cs, done⟩ : Lexer).step c = some ⟨.word (c :: cs), done⟩ := by
      simp [step, enter, isWordChar_of_isKeyChar (h c List.mem_cons_self)]
    rw [List.cons_append, tokensFrom_of_step hstep, ih fun d hd => h d (List.mem_cons_of_mem c hd),
      List.reverse_cons, List.append_assoc, List.singleton_append]

theorem tokensFrom_word {w : List Char} (hne : w ≠ []) (hw : w.all isBare = true)
    (hend : Ended rest) :
    (⟨.between, done⟩ : Lexer).tokensFrom (w ++ rest)
      = (⟨.between, .word w :: done⟩ : Lexer).tokensFrom rest := by
  have h : ∀ c ∈ w, isKeyChar c = true := fun c hc =>
    isKeyChar_of_isBare (List.all_eq_true.1 hw c hc)
  obtain ⟨c, w, rfl⟩ := List.exists_cons_of_ne_nil hne
  rw [List.cons_append, tokensFrom_of_step (start_keyChar (h c List.mem_cons_self)),
    tokensFrom_wordChars fun d hd => h d (List.mem_cons_of_mem c hd)]
  cases rest with
  | nil => simp [tokensFrom, finish, emit]
  | cons d rest =>
    refine tokensFrom_congr ?_ rest
    simp [step, emit, isWordChar_of_ended hend]

/-! ### Line breaks -/

theorem tokensFrom_remarkChars {cs : List Char} (h : ∀ c ∈ cs, Plain c) :
    (⟨.comment, done⟩ : Lexer).tokensFrom (cs ++ rest)
      = (⟨.comment, done⟩ : Lexer).tokensFrom rest := by
  induction cs with
  | nil => rfl
  | cons c cs ih =>
    have hplain := isPlain_of_plain (h c List.mem_cons_self)
    have hbreak : c ≠ '\n' ∧ c ≠ '\r' := by
      constructor <;> rintro rfl <;> exact absurd hplain (by decide)
    have hstep : (⟨.comment, done⟩ : Lexer).step c = some ⟨.comment, done⟩ := by
      simp [step, hbreak, hplain]
    rw [List.cons_append, tokensFrom_of_step hstep, ih fun d hd => h d (List.mem_cons_of_mem c hd)]

theorem tokensFrom_break {brk : List Char} (h : LineBreak brk) {m : Mode}
    (hm : m = .between ∨ m = .comment) :
    (⟨m, done⟩ : Lexer).tokensFrom (brk ++ rest)
      = (⟨.between, .newline :: done⟩ : Lexer).tokensFrom rest := by
  rcases hm with rfl | rfl <;> cases h <;> rfl

theorem tokensFrom_newline {note brk : List Char} (hnote : Remark note) (hbreak : LineBreak brk) :
    (⟨.between, done⟩ : Lexer).tokensFrom (note ++ (brk ++ rest))
      = (⟨.between, .newline :: done⟩ : Lexer).tokensFrom rest := by
  cases hnote with
  | absent => exact tokensFrom_break hbreak (.inl rfl)
  | given h =>
    rw [List.cons_append, tokensFrom_of_step rfl]
    exact (tokensFrom_remarkChars h).trans (tokensFrom_break hbreak (.inr rfl))

theorem tokensFrom_remark {note : List Char} (h : Remark note) :
    (⟨.between, done⟩ : Lexer).tokensFrom note = some done.reverse := by
  cases h with
  | absent => rfl
  | @given cs h =>
    rw [tokensFrom_of_step rfl, ← List.append_nil cs]
    exact tokensFrom_remarkChars h

end Lexer

open Lexer in
theorem tokensFrom_lexed {ts : List Token} {cs : List Char} (h : Lexed ts cs) :
    ∀ done : List Token, (⟨.between, done⟩ : Lexer).tokensFrom cs = some (done.reverse ++ ts) := by
  induction h with
  | nil h =>
    intro done
    rw [tokensFrom_remark h, List.append_nil]
  | newline hnote hbreak _ ih =>
    intro done
    rw [List.append_assoc, tokensFrom_newline hnote hbreak, ih, List.reverse_cons,
      List.append_assoc, List.singleton_append]
  | @mark ts t c cs h _ ih =>
    intro done
    have hall : ∀ p ∈ marks, Toml.mark p.2 = some p.1 := by decide
    have hstep : (⟨.between, done⟩ : Lexer).step c = some ⟨.between, t :: done⟩ := by
      simp [step, start, emit, hall _ h]
    rw [tokensFrom_of_step hstep, ih, List.reverse_cons, List.append_assoc, List.singleton_append]
  | word hne hw hend _ ih =>
    intro done
    rw [tokensFrom_word hne hw hend, ih, List.reverse_cons, List.append_assoc,
      List.singleton_append]
  | text hw hend _ ih =>
    intro done
    rw [tokensFrom_text hw hend, ih, List.reverse_cons, List.append_assoc, List.singleton_append]

/-- The tokens of a text are those it spells. -/
theorem tokens_of_lexed {ts : List Token} {cs : List Char} (h : Lexed ts cs) :
    tokens cs = some ts :=
  tokensFrom_lexed h []

/-- No text that spells tokens begins with a byte order mark. -/
theorem dropMark_of_lexed {ts : List Token} {cs : List Char} (h : Lexed ts cs) :
    dropMark cs = cs := by
  have hhead : ∀ rest, '\uFEFF' :: rest ≠ cs := by
    rintro rest hcs
    cases h with
    | nil h => cases h <;> cases hcs
    | newline hnote hbreak => cases hnote <;> cases hbreak <;> cases hcs
    | mark h =>
      have hall : ∀ p ∈ marks, p.2 ≠ '\uFEFF' := by decide
      exact hall _ h (List.cons.inj hcs).1.symm
    | word hne hw =>
      obtain ⟨c, w, rfl⟩ := List.exists_cons_of_ne_nil hne
      obtain rfl : '\uFEFF' = c := (List.cons.inj hcs).1
      exact absurd (List.all_eq_true.1 hw _ List.mem_cons_self) (by decide)
    | text => cases hcs
  unfold dropMark
  split
  · exact absurd rfl (hhead _)
  · rfl

/-! ## Every token can be written -/

theorem exists_hex : ∀ k n : Nat, n < Nat.pow 16 k → ∃ ds, ds.length = k ∧ Hex ds n
  | 0, n, h => by
    obtain rfl : n = 0 := Nat.lt_one_iff.1 h
    exact ⟨[], rfl, .nil⟩
  | k + 1, n, h => by
    have hfront : n / 16 < Nat.pow 16 k := by
      refine Nat.div_lt_of_lt_mul ?_
      rw [Nat.mul_comm]
      exact h
    obtain ⟨ds, hlength, hds⟩ := exists_hex k (n / 16) hfront
    have hsnoc := hds.snoc (Nat.mod_lt n (by decide)) (.inl rfl)
    rw [Nat.div_add_mod] at hsnoc
    exact ⟨_, by rw [List.length_append, hlength, List.length_singleton], hsnoc⟩

/-- Any characters can be written, if need be all of them with their numbers. -/
theorem exists_basic : ∀ s : List Char, ∃ w, Basic w s
  | [] => ⟨[], .nil⟩
  | c :: s => by
    obtain ⟨w, hw⟩ := exists_basic s
    have hrange : c.toNat < Nat.pow 16 8 := Nat.lt_of_lt_of_le c.val.toNat_lt (by decide)
    obtain ⟨ds, hlength, hds⟩ := exists_hex 8 c.toNat hrange
    have hletter : ('U', ds.length) ∈ codeEscapes := by
      rw [hlength]
      decide
    exact ⟨_, .code hletter hds hw⟩

end HttpDns.Toml
