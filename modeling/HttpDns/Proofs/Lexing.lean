import HttpDns.Proofs.Lexemes
import Mathlib.Data.List.Chain

/-!
# Reading off what is written

The other direction: a text that is made of tokens is read as these (`tokens_of_lexed`). Only a
number is not over until the next character, so two numbers must not stand side by side; in no
tree do they.
-/

namespace HttpDns.Json

namespace Lexer

variable {done : List Token} {rest : List Char}

theorem tokensFrom_cons (l : Lexer) (c : Char) (cs : List Char) :
    l.tokensFrom (c :: cs) = (l.step c).bind (·.tokensFrom cs) := by
  unfold tokensFrom
  rw [List.foldlM_cons]
  exact Option.bind_assoc ..

theorem tokensFrom_of_step {l l' : Lexer} {c : Char} (h : l.step c = some l') (cs : List Char) :
    l.tokensFrom (c :: cs) = l'.tokensFrom cs := by
  rw [tokensFrom_cons, h, Option.bind_some]

theorem tokensFrom_blank : ∀ {blanks : List Char}, Blank blanks →
    (⟨.between, done⟩ : Lexer).tokensFrom (blanks ++ rest)
      = (⟨.between, done⟩ : Lexer).tokensFrom rest
  | [], _ => rfl
  | c :: blanks, h => by
    have hstep : (⟨.between, done⟩ : Lexer).step c = some ⟨.between, done⟩ := by
      simp only [step, start, h c List.mem_cons_self, if_true]
    rw [List.cons_append, tokensFrom_of_step hstep]
    exact tokensFrom_blank fun d hd => h d (List.mem_cons_of_mem _ hd)

/-! ### Strings -/

theorem tokensFrom_hex {pieces : List Piece} {ds : List Char} {n : Nat} (h : Hex ds n) :
    ∀ left : Nat, 0 < left →
      (⟨.hex pieces (ds.length + left) 0, done⟩ : Lexer).tokensFrom (ds ++ rest)
        = (⟨.hex pieces left n, done⟩ : Lexer).tokensFrom rest := by
  induction h generalizing rest with
  | nil =>
    intro left _
    rw [List.length_nil, Nat.zero_add, List.nil_append]
  | @snoc ds n d c h hc ih =>
    intro left hleft
    have hstep : (⟨.hex pieces (left + 1) n, done⟩ : Lexer).step c
        = some ⟨.hex pieces left (16 * n + d), done⟩ := by
      have hmore : ¬ left + 1 ≤ 1 := by omega
      simp [step, hc, hmore]
    rw [List.length_append, List.length_singleton, Nat.add_assoc, Nat.add_comm 1,
      List.append_assoc, ih (left + 1) (by omega), List.singleton_append, tokensFrom_of_step hstep]

theorem tokensFrom_piece {pieces : List Piece} {p : Piece} {cs : List Char} (h : p.Spelled cs) :
    (⟨.string pieces, done⟩ : Lexer).tokensFrom (cs ++ rest)
      = (⟨.string (p :: pieces), done⟩ : Lexer).tokensFrom rest := by
  cases h with
  | @plain c hq hb hc =>
    refine tokensFrom_of_step ?_ rest
    simp [step, hq, hb, Nat.not_lt.2 hc]
  | @short e c h =>
    have hu : e ≠ 'u' := by
      rintro rfl
      cases h
    have hstep : (⟨.escape pieces, done⟩ : Lexer).step e
        = some ⟨.string (.char c :: pieces), done⟩ := by
      simp [step, hu, h]
    exact (tokensFrom_of_step rfl _).trans (tokensFrom_of_step hstep rest)
  | @unit ds n h hl =>
    cases h with
    | nil => cases hl
    | @snoc ds n d c h hc =>
      have hlen : ds.length = 3 := by simpa using hl
      have hlast : (⟨.hex pieces 1 n, done⟩ : Lexer).step c
          = some ⟨.string (.unit (16 * n + d) :: pieces), done⟩ := by
        simp [step, hc]
      calc (⟨.string pieces, done⟩ : Lexer).tokensFrom ('\\' :: 'u' :: (ds ++ [c]) ++ rest)
          = (⟨.hex pieces (ds.length + 1) 0, done⟩ : Lexer).tokensFrom (ds ++ c :: rest) := by
            rw [hlen, List.cons_append, List.cons_append, List.append_assoc]
            exact (tokensFrom_of_step rfl _).trans (tokensFrom_of_step rfl _)
        _ = _ := (tokensFrom_hex h 1 Nat.one_pos).trans (tokensFrom_of_step hlast rest)

theorem tokensFrom_pieces {ps : List Piece} {cs : List Char} (h : Joined Piece.Spelled ps cs) :
    ∀ pieces : List Piece, (⟨.string pieces, done⟩ : Lexer).tokensFrom (cs ++ rest)
      = (⟨.string (ps.reverse ++ pieces), done⟩ : Lexer).tokensFrom rest := by
  induction h generalizing rest with
  | nil => exact fun _ => rfl
  | @cons p ps cs ds hp hps ih =>
    intro pieces
    rw [List.append_assoc, tokensFrom_piece hp, ih, List.reverse_cons, List.append_assoc,
      List.singleton_append]

/-! ### Numbers -/

end Lexer

/-- From between two tokens the machine gets that far in a number. -/
def NumberPhase.Reached (phase : NumberPhase) (n : Numeral) (cs : List Char) : Prop :=
  ∀ (done : List Token) (rest : List Char),
    (⟨.between, done⟩ : Lexer).tokensFrom (cs ++ rest)
      = (⟨.number phase n, done⟩ : Lexer).tokensFrom rest

namespace NumberPhase.Reached

variable {phase phase' : NumberPhase} {n n' : Numeral} {cs ds : List Char} {c d : Char}

theorem next (h : phase.Reached n cs) (he : phase.extend n c = some (phase', n')) :
    phase'.Reached n' (cs ++ [c]) := by
  intro done rest
  have hstep : (⟨.number phase n, done⟩ : Lexer).step c = some ⟨.number phase' n', done⟩ := by
    simp only [Lexer.step, he]
  rw [List.append_assoc, h, List.singleton_append, Lexer.tokensFrom_of_step hstep]

/-- A phase that goes on with every digit goes on with all of them. -/
theorem digits {add : Numeral → Char → Numeral}
    (hadd : ∀ n c, isDigit c = true → phase.extend n c = some (phase, add n c)) :
    ∀ {ds cs : List Char} {n : Numeral}, phase.Reached n cs → Digits ds →
      phase.Reached (ds.foldl add n) (cs ++ ds)
  | [], cs, n, h, _ => by rwa [List.append_nil]
  | d :: ds, cs, n, h, hds => by
    have hrest : Digits ds := fun c hc => hds c (List.mem_cons_of_mem _ hc)
    have hnext := digits hadd (h.next (hadd n d (hds d List.mem_cons_self))) hrest
    rwa [List.append_assoc] at hnext

end NumberPhase.Reached

theorem Numeral.foldl_addWhole (n : Numeral) (ds : List Char) :
    ds.foldl addWhole n = { n with whole := n.whole ++ ds } := by
  induction ds generalizing n with
  | nil => simp
  | cons d ds ih => simp [ih, addWhole]

theorem Numeral.foldl_addFraction {n : Numeral} {xs : List Char} (h : n.fraction = some xs)
    (ds : List Char) : ds.foldl addFraction n = { n with fraction := some (xs ++ ds) } := by
  induction ds generalizing n xs with
  | nil => simp [← h]
  | cons d ds ih =>
    have hd : (n.addFraction d).fraction = some (xs ++ [d]) := by simp [addFraction, h]
    rw [List.foldl_cons, ih hd, List.append_assoc]
    rfl

theorem Numeral.foldl_addExponent {n : Numeral} {down : Bool} {xs : List Char}
    (h : n.exponent = some (down, xs)) (ds : List Char) :
    ds.foldl addExponent n = { n with exponent := some (down, xs ++ ds) } := by
  induction ds generalizing n xs with
  | nil => simp [← h]
  | cons d ds ih =>
    have hd : (n.addExponent d).exponent = some (down, xs ++ [d]) := by simp [addExponent, h]
    rw [List.foldl_cons, ih hd]
    simp [addExponent, h]

theorem not_isSpace_of_isDigit {c : Char} (h : isDigit c = true) : isSpace c = false := by
  rw [Bool.eq_false_iff]
  intro hspace
  simp only [isSpace, Bool.or_eq_true, decide_eq_true_eq] at hspace
  rcases hspace with ((rfl | rfl) | rfl) | rfl <;> cases h

theorem Lexer.step_digit {done : List Token} {d : Char} (hd : isDigit d = true) (h0 : d ≠ '0') :
    (⟨.between, done⟩ : Lexer).step d = some ⟨.number .whole { whole := [d] }, done⟩ := by
  simp only [step, start, not_isSpace_of_isDigit hd, Bool.false_eq_true, if_false]
  -- the characters that start another token are no digits
  split <;> first
    | exact absurd rfl h0
    | cases hd
    | rw [if_pos hd]

theorem Digits.head {d : Char} {ds : List Char} (h : Digits (d :: ds)) : isDigit d = true :=
  h d List.mem_cons_self

theorem Digits.tail {d : Char} {ds : List Char} (h : Digits (d :: ds)) : Digits ds :=
  fun c hc => h c (List.mem_cons_of_mem _ hc)

namespace NumberPhase

variable {phase : NumberPhase} {n : Numeral} {cs : List Char} {c : Char}

/-- Where a point may follow. -/
def Whole (phase : NumberPhase) : Prop :=
  phase = .zero ∨ phase = .whole

/-- Where an exponent may follow. -/
def Mantissa (phase : NumberPhase) : Prop :=
  phase.Whole ∨ phase = .fraction

theorem extend_point (h : phase.Whole) : phase.extend n '.' = some (.point, n) := by
  rcases h with rfl | rfl <;> rfl

theorem extend_mark (h : phase.Mantissa) (hc : c = 'e' ∨ c = 'E') :
    phase.extend n c = some (.mark, n) := by
  rcases h with (rfl | rfl) | rfl <;> rcases hc with rfl | rfl <;> rfl

theorem reached_whole (negative : Bool) {whole : List Char} (h : WholePart whole) :
    ∃ phase : NumberPhase, phase.Whole ∧
      phase.Reached { negative, whole } (signChars negative ++ whole) := by
  have hsign : NumberPhase.sign.Reached { negative := true } ['-'] := fun _ _ => rfl
  cases h with
  | zero =>
    refine ⟨.zero, .inl rfl, ?_⟩
    cases negative with
    | true => exact hsign.next rfl
    | false => exact fun _ _ => rfl
  | @digits d ds hd h0 hds =>
    have hfirst : NumberPhase.whole.Reached { negative, whole := [d] }
        (signChars negative ++ [d]) := by
      cases negative with
      | true =>
        refine hsign.next ?_
        simp [extend, h0, hd, Numeral.addWhole]
      | false => exact fun done rest => Lexer.tokensFrom_of_step (Lexer.step_digit hd h0) rest
    have hadd (n : Numeral) (c : Char) (hc : isDigit c = true) :
        NumberPhase.whole.extend n c = some (.whole, n.addWhole c) := by
      simp [extend, hc]
    have hall := hfirst.digits hadd hds
    refine ⟨.whole, .inr rfl, ?_⟩
    simpa [Numeral.foldl_addWhole] using hall

theorem Reached.fraction {fraction : Option (List Char)} (hp : phase.Whole) (h : phase.Reached n cs)
    (hn : n.fraction = none) {frac : List Char} (hf : FractionPart fraction frac) :
    ∃ phase' : NumberPhase, phase'.Mantissa ∧ phase'.Reached { n with fraction } (cs ++ frac) := by
  cases hf with
  | absent =>
    refine ⟨phase, .inl hp, ?_⟩
    simpa [← hn] using h
  | @digits d ds hds =>
    have hd : (n.addFraction d).fraction = some [d] := by simp [Numeral.addFraction, hn]
    have hfirst : NumberPhase.point.extend n d = some (.fraction, n.addFraction d) := by
      simp [extend, hds.head]
    have hadd (n : Numeral) (c : Char) (hc : isDigit c = true) :
        NumberPhase.fraction.extend n c = some (.fraction, n.addFraction c) := by
      simp [extend, hc]
    have hall := ((h.next (extend_point hp)).next hfirst).digits hadd hds.tail
    refine ⟨.fraction, .inr rfl, ?_⟩
    rw [Numeral.foldl_addFraction hd] at hall
    simpa [Numeral.addFraction] using hall

theorem Reached.exponent {exponent : Option (Bool × List Char)} (hp : phase.Mantissa)
    (h : phase.Reached n cs) (hn : n.exponent = none) {exp : List Char}
    (he : ExponentPart exponent exp) :
    ∃ phase' : NumberPhase, phase'.complete = true
      ∧ phase'.Reached { n with exponent } (cs ++ exp) := by
  cases he with
  | absent =>
    refine ⟨phase, ?_, ?_⟩
    · rcases hp with (rfl | rfl) | rfl <;> rfl
    · simpa [← hn] using h
  | @digits mark d down sign ds hm hs hds =>
    have hmark := h.next (extend_mark hp hm)
    have hadd (n : Numeral) (c : Char) (hc : isDigit c = true) :
        NumberPhase.exponent.extend n c = some (.exponent, n.addExponent c) := by
      simp [extend, hc]
    have hfirst : NumberPhase.exponent.Reached { n with exponent := some (down, [d]) }
        (cs ++ mark :: (sign ++ [d])) := by
      cases hs with
      | absent =>
        have hne : d ≠ '-' ∧ d ≠ '+' := by
          constructor <;> rintro rfl <;> cases hds.head
        have hd : NumberPhase.mark.extend n d
            = some (.exponent, { n with exponent := some (false, [d]) }) := by
          simp [extend, hne, hds.head, Numeral.addExponent, hn]
        simpa using hmark.next hd
      | plus =>
        have hd : NumberPhase.markSign.extend n d
            = some (.exponent, { n with exponent := some (false, [d]) }) := by
          simp [extend, hds.head, Numeral.addExponent, hn]
        simpa using (hmark.next rfl).next hd
      | minus =>
        have hd : NumberPhase.markSign.extend { n with exponent := some (true, []) } d
            = some (.exponent, { n with exponent := some (true, [d]) }) := by
          simp [extend, hds.head, Numeral.addExponent]
        simpa using (hmark.next rfl).next hd
    have hall := hfirst.digits hadd hds.tail
    refine ⟨.exponent, rfl, ?_⟩
    have hexponent : ({ n with exponent := some (down, [d]) } : Numeral).exponent
        = some (down, [d]) := rfl
    rw [Numeral.foldl_addExponent hexponent] at hall
    simpa using hall

end NumberPhase

/-- All of a number is read, though it may go on. -/
theorem Numeral.Spelled.reached {n : Numeral} {cs : List Char} (h : n.Spelled cs) :
    ∃ phase : NumberPhase, phase.complete = true ∧ phase.Reached n cs := by
  obtain @⟨negative, whole, frac, exp, fraction, exponent, hw, hf, he⟩ := h
  obtain ⟨p₁, hp₁, h₁⟩ := NumberPhase.reached_whole negative hw
  obtain ⟨p₂, hp₂, h₂⟩ := h₁.fraction hp₁ rfl hf
  exact h₂.exponent hp₂ rfl he

/-- A number that stands before the text ends where the text begins. -/
def NumberEnds (rest : List Char) : Prop :=
  ∀ c ∈ rest.head?, isDigit c = false ∧ c ≠ '.' ∧ c ≠ 'e' ∧ c ≠ 'E'

theorem NumberPhase.extend_eq_none {phase : NumberPhase} (h : phase.complete = true) (n : Numeral)
    {c : Char} (hd : isDigit c = false) (hp : c ≠ '.') (he : c ≠ 'e') (hE : c ≠ 'E') :
    phase.extend n c = none := by
  cases phase with
  | sign | point | mark | markSign => cases h
  | zero | whole | fraction | exponent => simp [extend, hd, hp, he, hE]

namespace Lexer

variable {done : List Token} {rest : List Char}

theorem tokensFrom_complete {phase : NumberPhase} (h : phase.complete = true) (n : Numeral)
    (hends : NumberEnds rest) :
    (⟨.number phase n, done⟩ : Lexer).tokensFrom rest
      = (⟨.between, .number n :: done⟩ : Lexer).tokensFrom rest := by
  cases rest with
  | nil => simp [tokensFrom, finish, h, emit]
  | cons c rest =>
    obtain ⟨hd, hp, he, hE⟩ := hends c rfl
    have hnone := NumberPhase.extend_eq_none h n hd hp he hE
    have hstep : (⟨.number phase n, done⟩ : Lexer).step c
        = (⟨.between, .number n :: done⟩ : Lexer).step c := by
      simp only [step, hnone, h, if_true]
      rfl
    rw [tokensFrom_cons, tokensFrom_cons, hstep]

/-- A token that is written is read, as long as a number ends behind it. -/
theorem tokensFrom_token {t : Token} {cs : List Char} (h : t.Spelled cs)
    (hends : ∀ n, t = .number n → NumberEnds rest) :
    (⟨.between, done⟩ : Lexer).tokensFrom (cs ++ rest)
      = (⟨.between, t :: done⟩ : Lexer).tokensFrom rest := by
  cases h with
  | openList | closeList | openObject | closeObject | comma | colon | null | yes | no => rfl
  | @number n cs h =>
    obtain ⟨phase, hc, hreached⟩ := h.reached
    rw [hreached, tokensFrom_complete hc n (hends n rfl)]
  | @text pieces cs h =>
    have hopen : (⟨.between, done⟩ : Lexer).tokensFrom ('"' :: (cs ++ ('"' :: rest)))
        = (⟨.string [], done⟩ : Lexer).tokensFrom (cs ++ ('"' :: rest)) := rfl
    have hclose : (⟨.string (pieces.reverse ++ []), done⟩ : Lexer).step '"'
        = some ⟨.between, .text pieces :: done⟩ := by
      simp [step, emit]
    rw [List.cons_append, List.cons_append, List.append_assoc, List.singleton_append, hopen,
      tokensFrom_pieces h, tokensFrom_of_step hclose]

end Lexer

/-! ## Texts -/

def Token.IsNumber : Token → Prop
  | .number _ => True
  | _ => False

/-- Two tokens that stay apart with nothing between them. -/
def Token.Apart (t u : Token) : Prop :=
  ¬ (t.IsNumber ∧ u.IsNumber)

theorem NumberEnds.of_char {c : Char} (hd : isDigit c = false) (h : c ≠ '.' ∧ c ≠ 'e' ∧ c ≠ 'E')
    (rest : List Char) : NumberEnds (c :: rest) := by
  intro d hc
  cases hc
  exact ⟨hd, h⟩

theorem Blank.numberEnds {blanks rest : List Char} (h : Blank blanks) (hr : NumberEnds rest) :
    NumberEnds (blanks ++ rest) := by
  cases blanks with
  | nil => exact hr
  | cons b blanks =>
    have hb := h b List.mem_cons_self
    simp only [isSpace, Bool.or_eq_true, decide_eq_true_eq] at hb
    rcases hb with ((rfl | rfl) | rfl) | rfl <;> exact .of_char rfl (by decide) _

theorem Token.Spelled.numberEnds {t : Token} {cs : List Char} (h : t.Spelled cs)
    (ht : ¬ t.IsNumber) (rest : List Char) : NumberEnds (cs ++ rest) := by
  cases h with
  | number => exact absurd trivial ht
  | openList | closeList | openObject | closeObject | comma | colon | null | yes | no | text =>
    exact .of_char rfl (by decide) _

/-- Behind the tokens, a number that stands last among them is over. -/
def Finishes (ts : List Token) (rest : List Char) : Prop :=
  ∀ n, ts.getLast? = some (.number n) → NumberEnds rest

theorem Joined.numberEnds {t : Token} {ts : List Token} {cs : List Char}
    (h : Joined Token.Set (t :: ts) cs) (ht : ¬ t.IsNumber) (rest : List Char) :
    NumberEnds (cs ++ rest) := by
  obtain @⟨⟩ | @⟨_, _, _, ds, ⟨blanks, lexeme, hb, hs, rfl⟩, -⟩ := h
  rw [List.append_assoc, List.append_assoc]
  exact hb.numberEnds (hs.numberEnds ht _)

/-- The tokens that are written are read, and then what is behind them. -/
theorem Lexer.tokensFrom_joined {ts : List Token} {cs rest : List Char}
    (h : Joined Token.Set ts cs) (hchain : ts.IsChain Token.Apart) (hlast : Finishes ts rest)
    (done : List Token) :
    (⟨.between, done⟩ : Lexer).tokensFrom (cs ++ rest)
      = (⟨.between, ts.reverse ++ done⟩ : Lexer).tokensFrom rest := by
  induction h generalizing done with
  | nil => rfl
  | @cons t ts cs ds ht hts ih =>
    obtain ⟨blanks, lexeme, hb, hs, rfl⟩ := ht
    have hends (n : Numeral) (hn : t = .number n) : NumberEnds (ds ++ rest) := by
      subst hn
      cases hts with
      | nil => exact hlast n rfl
      | cons hu hrest =>
        have hapart := (List.isChain_cons_cons.1 hchain).1
        exact (Joined.cons hu hrest).numberEnds (fun hu => hapart ⟨trivial, hu⟩) rest
    have hlast' : Finishes ts rest := by
      intro n hn
      refine hlast n ?_
      cases ts with
      | nil => cases hn
      | cons u ts => exact hn
    rw [List.append_assoc, List.append_assoc, tokensFrom_blank hb, tokensFrom_token hs hends,
      ih hchain.tail hlast', List.reverse_cons, List.append_assoc, List.singleton_append]

/-- A text that is made of tokens is read as these. -/
theorem tokens_of_lexed {ts : List Token} {cs : List Char} (h : Lexed ts cs)
    (hchain : ts.IsChain Token.Apart) : tokens cs = some ts := by
  obtain ⟨front, blanks, hfront, hb, rfl⟩ := h
  have hlast : Finishes ts blanks := by
    intro n _
    rw [← List.append_nil blanks]
    exact hb.numberEnds (by rintro c ⟨⟩)
  have hempty : (⟨.between, ts.reverse⟩ : Lexer).tokensFrom (blanks ++ []) = some ts := by
    rw [Lexer.tokensFrom_blank hb]
    exact congrArg some (List.reverse_reverse ts)
  calc tokens (front ++ blanks)
      = (⟨.between, ts.reverse ++ []⟩ : Lexer).tokensFrom blanks :=
        Lexer.tokensFrom_joined hfront hchain hlast []
    _ = some ts := by rw [List.append_nil, ← hempty, List.append_nil]

end HttpDns.Json
