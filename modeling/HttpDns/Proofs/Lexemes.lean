import HttpDns.Json.Token
import Mathlib.Tactic.SplitIfs

/-!
# How JSON tokens are written

A text is made of tokens if these are written in it in their order, with blanks before, between and
behind them (`Lexed`). How a token is written is the grammar's: a number has no leading zero, a
string holds no bare quote, backslash or control character, and an escape is one letter or four
hexadecimal digits. The tokens the machine reads off a text are what it is made of
(`lexed_of_tokens`).
-/

namespace HttpDns.Json

/-! ## The grammar -/

/-- Only characters that may stand between tokens. -/
def Blank (cs : List Char) : Prop :=
  ∀ c ∈ cs, isSpace c = true

def Digits (ds : List Char) : Prop :=
  ∀ d ∈ ds, isDigit d = true

/-- The pieces are written one behind the other. -/
inductive Joined {α : Type} (P : α → List Char → Prop) : List α → List Char → Prop
  | nil : Joined P [] []
  | cons {a : α} {as : List α} {cs ds : List Char} (h : P a cs) (rest : Joined P as ds) :
      Joined P (a :: as) (cs ++ ds)

/-- Hexadecimal digits and the number they stand for. -/
inductive Hex : List Char → Nat → Prop
  | nil : Hex [] 0
  | snoc {ds : List Char} {n d : Nat} {c : Char} (h : Hex ds n) (hc : hexValue c = some d) :
      Hex (ds ++ [c]) (16 * n + d)

/-- The digits before the point, without a leading zero. -/
inductive WholePart : List Char → Prop
  | zero : WholePart ['0']
  | digits {d : Char} {ds : List Char} (hd : isDigit d = true) (h0 : d ≠ '0') (hds : Digits ds) :
      WholePart (d :: ds)

inductive FractionPart : Option (List Char) → List Char → Prop
  | absent : FractionPart none []
  | digits {d : Char} {ds : List Char} (h : Digits (d :: ds)) :
      FractionPart (some (d :: ds)) ('.' :: d :: ds)

/-- The sign of an exponent, and whether it makes it negative. -/
inductive ExponentSign : Bool → List Char → Prop
  | absent : ExponentSign false []
  | plus : ExponentSign false ['+']
  | minus : ExponentSign true ['-']

inductive ExponentPart : Option (Bool × List Char) → List Char → Prop
  | absent : ExponentPart none []
  | digits {mark d : Char} {negative : Bool} {sign ds : List Char}
      (hm : mark = 'e' ∨ mark = 'E') (hs : ExponentSign negative sign) (h : Digits (d :: ds)) :
      ExponentPart (some (negative, d :: ds)) (mark :: (sign ++ d :: ds))

def signChars (negative : Bool) : List Char :=
  if negative then ['-'] else []

inductive Numeral.Spelled : Numeral → List Char → Prop
  | parts (negative : Bool) {whole frac exp : List Char} {fraction : Option (List Char)}
      {exponent : Option (Bool × List Char)} (hw : WholePart whole)
      (hf : FractionPart fraction frac) (he : ExponentPart exponent exp) :
      Numeral.Spelled ⟨negative, whole, fraction, exponent⟩
        (signChars negative ++ whole ++ frac ++ exp)

inductive Piece.Spelled : Piece → List Char → Prop
  | plain {c : Char} (hq : c ≠ '"') (hb : c ≠ '\\') (hc : 0x20 ≤ c.toNat) :
      Piece.Spelled (.char c) [c]
  | short {e c : Char} (h : escaped e = some c) : Piece.Spelled (.char c) ['\\', e]
  | unit {ds : List Char} {n : Nat} (h : Hex ds n) (hl : ds.length = 4) :
      Piece.Spelled (.unit n) ('\\' :: 'u' :: ds)

inductive Token.Spelled : Token → List Char → Prop
  | openList : Token.Spelled .openList ['[']
  | closeList : Token.Spelled .closeList [']']
  | openObject : Token.Spelled .openObject ['\x7b']
  | closeObject : Token.Spelled .closeObject ['\x7d']
  | comma : Token.Spelled .comma [',']
  | colon : Token.Spelled .colon [':']
  | null : Token.Spelled .null ['n', 'u', 'l', 'l']
  | yes : Token.Spelled (.bool true) ['t', 'r', 'u', 'e']
  | no : Token.Spelled (.bool false) ['f', 'a', 'l', 's', 'e']
  | number {n : Numeral} {cs : List Char} (h : n.Spelled cs) : Token.Spelled (.number n) cs
  | text {pieces : List Piece} {cs : List Char} (h : Joined Piece.Spelled pieces cs) :
      Token.Spelled (.text pieces) ('"' :: cs ++ ['"'])

/-- A token behind some blanks. -/
def Token.Set (t : Token) (cs : List Char) : Prop :=
  ∃ blanks lexeme, Blank blanks ∧ t.Spelled lexeme ∧ cs = blanks ++ lexeme

/-- The text is made of the tokens, in their order. -/
def Lexed (ts : List Token) (cs : List Char) : Prop :=
  ∃ front blanks, Joined Token.Set ts front ∧ Blank blanks ∧ cs = front ++ blanks

namespace Joined

variable {α : Type} {P : α → List Char → Prop} {as bs : List α} {cs ds : List Char}

theorem append (h : Joined P as cs) (h' : Joined P bs ds) : Joined P (as ++ bs) (cs ++ ds) := by
  induction h with
  | nil => exact h'
  | cons hP _ ih =>
    rw [List.cons_append, List.append_assoc]
    exact .cons hP ih

theorem snoc (h : Joined P as cs) {a : α} (ha : P a ds) : Joined P (as ++ [a]) (cs ++ ds) := by
  have hone : Joined P [a] ds := by simpa using Joined.cons ha (Joined.nil (P := P))
  exact h.append hone

theorem append_inv : ∀ {as bs : List α} {cs : List Char}, Joined P (as ++ bs) cs →
    ∃ front back, Joined P as front ∧ Joined P bs back ∧ cs = front ++ back
  | [], _, cs, h => ⟨[], cs, .nil, h, rfl⟩
  | a :: as, bs, _, .cons ha hrest => by
    obtain ⟨front, back, hfront, hback, rfl⟩ := append_inv hrest
    exact ⟨_, back, .cons ha hfront, hback, (List.append_assoc ..).symm⟩

end Joined

theorem no_characters {p : Char → Prop} : ∀ c ∈ ([] : List Char), p c := by
  intro c hc
  cases hc

theorem Blank.append {cs ds : List Char} (h : Blank cs) (h' : Blank ds) : Blank (cs ++ ds) := by
  intro c hc
  rcases List.mem_append.1 hc with hc | hc
  · exact h c hc
  · exact h' c hc

/-! ## What the machine has read -/

/-- What has been read of a number. -/
inductive NumberPhase.Holds : NumberPhase → Numeral → List Char → Prop
  | sign : NumberPhase.Holds .sign { negative := true } ['-']
  | zero (negative : Bool) :
      NumberPhase.Holds .zero { negative, whole := ['0'] } (signChars negative ++ ['0'])
  | whole (negative : Bool) {d : Char} {ds : List Char} (hd : isDigit d = true) (h0 : d ≠ '0')
      (hds : Digits ds) :
      NumberPhase.Holds .whole { negative, whole := d :: ds } (signChars negative ++ d :: ds)
  | point (negative : Bool) {whole : List Char} (hw : WholePart whole) :
      NumberPhase.Holds .point { negative, whole } (signChars negative ++ whole ++ ['.'])
  | fraction (negative : Bool) {whole ds : List Char} {d : Char} (hw : WholePart whole)
      (h : Digits (d :: ds)) :
      NumberPhase.Holds .fraction { negative, whole, fraction := some (d :: ds) }
        (signChars negative ++ whole ++ '.' :: d :: ds)
  | mark (negative : Bool) {whole frac : List Char} {fraction : Option (List Char)} {c : Char}
      (hw : WholePart whole) (hf : FractionPart fraction frac) (hc : c = 'e' ∨ c = 'E') :
      NumberPhase.Holds .mark { negative, whole, fraction }
        (signChars negative ++ whole ++ frac ++ [c])
  | plus (negative : Bool) {whole frac : List Char} {fraction : Option (List Char)} {c : Char}
      (hw : WholePart whole) (hf : FractionPart fraction frac) (hc : c = 'e' ∨ c = 'E') :
      NumberPhase.Holds .markSign { negative, whole, fraction }
        (signChars negative ++ whole ++ frac ++ [c, '+'])
  | minus (negative : Bool) {whole frac : List Char} {fraction : Option (List Char)} {c : Char}
      (hw : WholePart whole) (hf : FractionPart fraction frac) (hc : c = 'e' ∨ c = 'E') :
      NumberPhase.Holds .markSign { negative, whole, fraction, exponent := some (true, []) }
        (signChars negative ++ whole ++ frac ++ [c, '-'])
  | exponent (negative down : Bool) {whole frac sign ds : List Char}
      {fraction : Option (List Char)} {c d : Char} (hw : WholePart whole)
      (hf : FractionPart fraction frac) (hc : c = 'e' ∨ c = 'E') (hs : ExponentSign down sign)
      (h : Digits (d :: ds)) :
      NumberPhase.Holds .exponent
        { negative, whole, fraction, exponent := some (down, d :: ds) }
        (signChars negative ++ whole ++ frac ++ c :: (sign ++ d :: ds))

theorem Digits.snoc {ds : List Char} {c : Char} (h : Digits ds) (hc : isDigit c = true) :
    Digits (ds ++ [c]) := by
  intro d hd
  rcases List.mem_append.1 hd with hd | hd
  · exact h d hd
  · rwa [List.mem_singleton.1 hd]

theorem Digits.singleton {c : Char} (hc : isDigit c = true) : Digits [c] := by
  intro d hd
  rwa [List.mem_singleton.1 hd]

namespace NumberPhase.Holds

variable {phase phase' : NumberPhase} {n n' : Numeral} {cs : List Char} {c : Char}

/-- One more character of a number. -/
theorem step (h : phase.Holds n cs) (hs : phase.extend n c = some (phase', n')) :
    phase'.Holds n' (cs ++ [c]) := by
  cases h with
  | sign =>
    simp only [extend] at hs
    split_ifs at hs with h0 hd <;> cases hs
    · exact h0 ▸ .zero true
    · exact .whole true hd h0 (no_characters)
  | zero negative =>
    simp only [extend, Bool.or_eq_true, decide_eq_true_eq] at hs
    split_ifs at hs with hp hm <;> cases hs
    · exact hp ▸ .point negative .zero
    · simpa using Holds.mark negative .zero .absent hm
  | whole negative hd h0 hds =>
    simp only [extend, Bool.or_eq_true, decide_eq_true_eq] at hs
    have hw := WholePart.digits hd h0 hds
    split_ifs at hs with hc hp hm <;> cases hs
    · simpa [Numeral.addWhole] using Holds.whole negative hd h0 (hds.snoc hc)
    · exact hp ▸ .point negative hw
    · simpa using Holds.mark negative hw .absent hm
  | point negative hw =>
    simp only [extend] at hs
    split_ifs at hs with hc hm
    · cases hs
      simpa [Numeral.addFraction] using Holds.fraction negative hw (.singleton hc)
    · simp at hm
  | fraction negative hw h =>
    simp only [extend, decide_true, Bool.true_and, Bool.or_eq_true, decide_eq_true_eq] at hs
    split_ifs at hs with hc hm <;> cases hs
    · simpa [Numeral.addFraction] using Holds.fraction negative hw (h.snoc hc)
    · simpa using Holds.mark negative hw (.digits h) hm
  | mark negative hw hf hm =>
    simp only [extend] at hs
    split_ifs at hs with hminus hplus hc <;> cases hs
    · simpa [hminus] using Holds.minus negative hw hf hm
    · simpa [hplus] using Holds.plus negative hw hf hm
    · simpa [Numeral.addExponent] using
        Holds.exponent negative false hw hf hm .absent (.singleton hc)
  | plus negative hw hf hm =>
    simp only [extend] at hs
    split_ifs at hs with hc
    cases hs
    simpa [Numeral.addExponent] using
      Holds.exponent negative false hw hf hm .plus (.singleton hc)
  | minus negative hw hf hm =>
    simp only [extend] at hs
    split_ifs at hs with hc
    cases hs
    simpa [Numeral.addExponent] using
      Holds.exponent negative true hw hf hm .minus (.singleton hc)
  | exponent negative down hw hf hm hsign h =>
    simp only [extend] at hs
    split_ifs at hs with hc
    cases hs
    simpa [Numeral.addExponent] using
      Holds.exponent negative down hw hf hm hsign (h.snoc hc)

theorem spelled (h : phase.Holds n cs) (hc : phase.complete = true) : n.Spelled cs := by
  cases h with
  | sign | point | mark | plus | minus => cases hc
  | zero negative => simpa using Numeral.Spelled.parts negative .zero .absent .absent
  | whole negative hd h0 hds =>
    simpa using Numeral.Spelled.parts negative (.digits hd h0 hds) .absent .absent
  | fraction negative hw h =>
    simpa using Numeral.Spelled.parts negative hw (.digits h) .absent
  | exponent negative down hw hf hm hs h => exact .parts negative hw hf (.digits hm hs h)

end NumberPhase.Holds

/-- What has been read since the last token, blanks apart. -/
inductive Mode.Holds : Mode → List Char → Prop
  | between : Mode.Holds .between []
  | name {left read : List Char} {t : Token} (hne : left ≠ []) (h : t.Spelled (read ++ left)) :
      Mode.Holds (.name left t) read
  | string {pieces : List Piece} {cs : List Char} (h : Joined Piece.Spelled pieces.reverse cs) :
      Mode.Holds (.string pieces) ('"' :: cs)
  | escape {pieces : List Piece} {cs : List Char} (h : Joined Piece.Spelled pieces.reverse cs) :
      Mode.Holds (.escape pieces) ('"' :: cs ++ ['\\'])
  | hex {pieces : List Piece} {cs ds : List Char} {left value : Nat}
      (h : Joined Piece.Spelled pieces.reverse cs) (hd : Hex ds value)
      (hl : ds.length + left = 4) (hpos : 0 < left) :
      Mode.Holds (.hex pieces left value) ('"' :: cs ++ '\\' :: 'u' :: ds)
  | number {phase : NumberPhase} {n : Numeral} {cs : List Char} (h : phase.Holds n cs) :
      Mode.Holds (.number phase n) cs

/-- The machine has read the text behind the given tokens. -/
def Lexer.HasRead (l : Lexer) (given : List Token) (cs : List Char) : Prop :=
  ∃ ts front blanks held, l.done.reverse = given ++ ts ∧ Joined Token.Set ts front
    ∧ Blank blanks ∧ l.mode.Holds held ∧ cs = front ++ blanks ++ held

namespace Lexer.HasRead

variable {l l' : Lexer} {given : List Token} {cs held : List Char} {c : Char}

theorem initial (done : List Token) : (⟨.between, done⟩ : Lexer).HasRead done.reverse [] :=
  ⟨[], [], [], [], (List.append_nil _).symm, .nil, no_characters, .between, rfl⟩

theorem emit {done ts : List Token} {front blanks : List Char}
    (hd : done.reverse = given ++ ts) (hf : Joined Token.Set ts front) (hb : Blank blanks)
    {t : Token} (ht : t.Spelled held) (mode : Mode) :
    (Lexer.emit ⟨mode, done⟩ t).HasRead given (front ++ blanks ++ held) := by
  refine ⟨ts ++ [t], front ++ (blanks ++ held), [], [], ?_, ?_, no_characters, .between, by simp⟩
  · rw [Lexer.emit, List.reverse_cons, hd, List.append_assoc]
  · exact hf.snoc ⟨blanks, held, hb, ht, rfl⟩

/-- A character between two tokens. -/
theorem start (h : (⟨.between, l.done⟩ : Lexer).HasRead given cs) (hs : l.start c = some l') :
    l'.HasRead given (cs ++ [c]) := by
  obtain ⟨ts, front, blanks, held, hl, hf, hb, hm, rfl⟩ := h
  cases hm
  have keep {mode : Mode} {ds : List Char} (hmode : mode.Holds ds) :
      (⟨mode, l.done⟩ : Lexer).HasRead given (front ++ blanks ++ [] ++ ds) :=
    ⟨ts, front, blanks, ds, hl, hf, hb, hmode, by simp⟩
  have lone {t : Token} (ht : t.Spelled [c]) :
      (l.emit t).HasRead given (front ++ blanks ++ [] ++ [c]) := by
    rw [List.append_nil]
    exact emit hl hf hb ht l.mode
  unfold Lexer.start at hs
  split at hs
  · rename_i hspace
    cases hs
    have hb' : Blank (blanks ++ [c]) := hb.append fun d hd => by rwa [List.mem_singleton.1 hd]
    exact ⟨ts, front, blanks ++ [c], [], hl, hf, hb', .between, by simp⟩
  · split at hs
    · cases hs; exact lone .openList
    · cases hs; exact lone .closeList
    · cases hs; exact lone .openObject
    · cases hs; exact lone .closeObject
    · cases hs; exact lone .comma
    · cases hs; exact lone .colon
    · cases hs; exact keep (.string .nil)
    · cases hs; exact keep (.name (List.cons_ne_nil _ _) .null)
    · cases hs; exact keep (.name (List.cons_ne_nil _ _) .yes)
    · cases hs; exact keep (.name (List.cons_ne_nil _ _) .no)
    · cases hs; exact keep (.number .sign)
    · cases hs; exact keep (.number (.zero false))
    · rename_i h0
      split_ifs at hs with hd
      cases hs
      exact keep (.number (.whole false hd (by simpa using h0) no_characters))

/-- What a machine has read after one more character. -/
theorem step (h : l.HasRead given cs) (hs : l.step c = some l') : l'.HasRead given (cs ++ [c]) := by
  obtain ⟨ts, front, blanks, held, hl, hf, hb, hm, rfl⟩ := h
  have keep {mode : Mode} {ds : List Char} (hmode : mode.Holds ds) :
      (⟨mode, l.done⟩ : Lexer).HasRead given (front ++ blanks ++ ds) :=
    ⟨ts, front, blanks, ds, hl, hf, hb, hmode, rfl⟩
  obtain ⟨mode, done⟩ := l
  cases hm with
  | between => exact start ⟨ts, front, blanks, [], hl, hf, hb, .between, rfl⟩ hs
  | @name left read t hne h =>
    match left with
    | [] => exact absurd rfl hne
    | [d] =>
      simp only [Lexer.step] at hs
      split_ifs at hs with hc
      cases hs
      rw [List.append_assoc]
      exact emit hl hf hb (hc ▸ h) _
    | d :: e :: left =>
      simp only [Lexer.step] at hs
      split_ifs at hs with hc
      cases hs
      rw [List.append_assoc]
      exact keep (.name (List.cons_ne_nil _ _) (by simpa [hc] using h))
  | @string pieces ds h =>
    simp only [Lexer.step] at hs
    rw [List.append_assoc]
    split_ifs at hs with hq hb' hc <;> cases hs
    · exact emit hl hf hb (hq ▸ .text h) _
    · exact hb' ▸ keep (.escape h)
    · refine keep (.string ?_)
      rw [List.reverse_cons]
      exact h.snoc (.plain hq hb' (Nat.le_of_not_lt hc))
  | @escape pieces ds h =>
    simp only [Lexer.step] at hs
    rw [List.append_assoc]
    split_ifs at hs with hu
    · cases hs
      simpa [hu] using keep (.hex h .nil rfl (by decide))
    · obtain ⟨d, hd, rfl⟩ := Option.map_eq_some_iff.1 hs
      have hnext : Joined Piece.Spelled (Piece.char d :: pieces).reverse (ds ++ ['\\', c]) := by
        rw [List.reverse_cons]
        exact h.snoc (.short hd)
      simpa using keep (.string hnext)
  | @hex pieces ds xs left value h hx hlen hpos =>
    simp only [Lexer.step] at hs
    rw [List.append_assoc]
    obtain ⟨d, hd, rfl⟩ := Option.map_eq_some_iff.1 hs
    have hx' := hx.snoc hd
    split_ifs with hlast
    · have hlen : (xs ++ [c]).length = 4 := by
        rw [List.length_append, List.length_singleton]
        omega
      have hnext : Joined Piece.Spelled (Piece.unit (16 * value + d) :: pieces).reverse
          (ds ++ '\\' :: 'u' :: (xs ++ [c])) := by
        rw [List.reverse_cons]
        exact h.snoc (.unit hx' hlen)
      simpa using keep (.string hnext)
    · have hlen : (xs ++ [c]).length + (left - 1) = 4 := by
        rw [List.length_append, List.length_singleton]
        omega
      simpa using keep (.hex h hx' hlen (by omega))
  | @number phase n ds h =>
    simp only [Lexer.step] at hs
    split at hs
    · rename_i phase' n' he
      cases hs
      rw [List.append_assoc]
      exact keep (.number (h.step he))
    · split_ifs at hs with hcomplete
      have hafter := emit hl hf hb (.number (h.spelled hcomplete)) .between
      exact start (l := ⟨.between, .number n :: done⟩) hafter hs

theorem run : ∀ {ds cs : List Char} {l l' : Lexer}, l.HasRead given cs →
    ds.foldlM Lexer.step l = some l' → l'.HasRead given (cs ++ ds)
  | [], cs, l, l', h, hs => by
    cases hs
    rwa [List.append_nil]
  | d :: ds, cs, l, l', h, hs => by
    rw [List.foldlM_cons] at hs
    obtain ⟨l₁, hd, hs⟩ := Option.bind_eq_some_iff.1 hs
    have hrest := run (h.step hd) hs
    rwa [List.append_assoc] at hrest

theorem lexed {ts : List Token} (h : l.HasRead given cs) (hf : l.finish = some ts) :
    ∃ read, ts = given ++ read ∧ Lexed read cs := by
  obtain ⟨read, front, blanks, held, hl, hfront, hb, hm, rfl⟩ := h
  obtain ⟨mode, done⟩ := l
  cases hm with
  | between =>
    cases hf
    exact ⟨read, hl, front, blanks, hfront, hb, by rw [List.append_nil]⟩
  | name | string | escape | hex => cases hf
  | @number phase n held h =>
    simp only [Lexer.finish] at hf
    split_ifs at hf with hc
    cases hf
    refine ⟨read ++ [.number n], ?_, front ++ (blanks ++ held), [], ?_, no_characters, by simp⟩
    · rw [Lexer.emit, List.reverse_cons, hl, List.append_assoc]
    · exact hfront.snoc ⟨blanks, held, hb, .number (h.spelled hc), rfl⟩

end Lexer.HasRead

/-- The tokens of a text that is read on from some machine. -/
def Lexer.tokensFrom (l : Lexer) (cs : List Char) : Option (List Token) :=
  (cs.foldlM Lexer.step l).bind Lexer.finish

/-- What is read on from between two tokens is what the rest of the text is made of. -/
theorem lexed_of_tokensFrom {done ts : List Token} {cs : List Char}
    (h : (⟨.between, done⟩ : Lexer).tokensFrom cs = some ts) :
    ∃ read, ts = done.reverse ++ read ∧ Lexed read cs := by
  obtain ⟨l, hl, hf⟩ := Option.bind_eq_some_iff.1 h
  exact ((Lexer.HasRead.initial done).run hl).lexed hf

/-- A text is made of the tokens that are read off it. -/
theorem lexed_of_tokens {cs : List Char} {ts : List Token} (h : tokens cs = some ts) :
    Lexed ts cs := by
  have hfrom : (⟨.between, []⟩ : Lexer).tokensFrom cs = some ts := h
  obtain ⟨read, rfl, hread⟩ := lexed_of_tokensFrom hfrom
  exact hread

end HttpDns.Json
