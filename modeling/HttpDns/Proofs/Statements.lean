import HttpDns.Proofs.Spelling
import Mathlib.Data.List.TakeDrop
import Mathlib.Data.List.TakeWhile

/-!
# Reading a document of tables

A document of tables, each with a header and an assignment for each of its entries, may be written
with blanks, empty lines and remarks wherever the grammar has them, and its lists over several
lines (`Spelled`). Statements are carried out one after the other as they are read
(`Lines.reads`). If no table is opened twice and no key of a table is given twice, the text is read
as the entries it spells (`parse_of_spelled`).
-/

namespace HttpDns.Toml

/-! ## The grammar -/

def Blanks (ts : List Token) : Prop :=
  ∀ t ∈ ts, ∃ c, t = .blank c

/-- Blanks and line breaks. -/
def Gap (ts : List Token) : Prop :=
  ∀ t ∈ ts, t = .newline ∨ ∃ c, t = .blank c

/-- A key, bare or between quotes. -/
inductive Key : String → Token → Prop
  | bare {name : String} (hne : name.toList ≠ []) (h : name.toList.all isBare = true) :
      Key name (.word name.toList)
  | quoted (name : String) : Key name (.text name.toList)

/-- The items of a list of strings behind its opening bracket; a comma may follow the last one. -/
inductive Items : List String → List Token → Prop
  | nil {gap : List Token} (h : Gap gap) : Items [] (gap ++ [.closeList])
  | last {gap behind : List Token} (s : String) (h : Gap gap) (h' : Gap behind) :
      Items [s] (gap ++ .text s.toList :: (behind ++ [.closeList]))
  | cons {ss : List String} {gap behind ts : List Token} (s : String) (h : Gap gap)
      (h' : Gap behind) (rest : Items ss ts) :
      Items (s :: ss) (gap ++ .text s.toList :: (behind ++ .comma :: ts))

/-- How a value is written. -/
inductive Literal : Value → List Token → Prop
  | text (s : String) : Literal (.text s) [.text s.toList]
  | yes : Literal (.scalar (.bool true)) [.word ['t', 'r', 'u', 'e']]
  | no : Literal (.scalar (.bool false)) [.word ['f', 'a', 'l', 's', 'e']]
  | whole {n : Nat} (h : n < UInt64.size) : Literal (.scalar (.whole n)) [.word (Nat.toDigits 10 n)]
  | list {ss : List String} {ts : List Token} (h : Items ss ts) :
      Literal (.list (ss.map .text)) (.openList :: ts)

inductive Statement
  | header (name : String)
  | assignment (key : String) (v : Value)

/-- How a statement is written on its line. -/
inductive Statement.Written : Statement → List Token → Prop
  | header {name : String} {key : Token} {before inside behind after : List Token}
      (hkey : Key name key) (hbefore : Blanks before) (hinside : Blanks inside)
      (hbehind : Blanks behind) (hafter : Blanks after) :
      Written (.header name)
        (before ++ .openList :: (inside ++ key :: (behind ++ .closeList :: after)))
  | assignment {name : String} {v : Value} {key : Token}
      {before behind inside lit after : List Token} (hkey : Key name key) (hlit : Literal v lit)
      (hbefore : Blanks before) (hbehind : Blanks behind) (hinside : Blanks inside)
      (hafter : Blanks after) :
      Written (.assignment name v)
        (before ++ key :: (behind ++ .equals :: (inside ++ (lit ++ after))))

/-- Statements on lines of their own, with empty lines among them. -/
inductive Lines : List Statement → List Token → Prop
  | nil {blanks : List Token} (h : Blanks blanks) : Lines [] blanks
  | last {st : Statement} {line : List Token} (h : st.Written line) : Lines [st] line
  | empty {sts : List Statement} {blanks ts : List Token} (h : Blanks blanks)
      (rest : Lines sts ts) : Lines sts (blanks ++ .newline :: ts)
  | cons {st : Statement} {sts : List Statement} {line ts : List Token} (h : st.Written line)
      (rest : Lines sts ts) : Lines (st :: sts) (line ++ .newline :: ts)

/-- The header of a table, and its assignments. -/
def tableStatements (table : String × Entries) : List Statement :=
  .header table.1 :: table.2.map fun (key, v) => .assignment key v

/-- The text spells the tables in their order. -/
def Spelled (tables : List (String × Entries)) (text : String) : Prop :=
  ∃ ts, Lines (tables.flatMap tableStatements) ts ∧ Lexed ts text.toList

/-! ## Runs of the reader -/

namespace Reader

/-- The tokens take the reader from one state to another. -/
def Reads (r : Reader) (ts : List Token) (r' : Reader) : Prop :=
  ts.foldlM step r = some r'

namespace Reads

variable {r r' r'' : Reader} {t : Token} {ts us : List Token}

theorem nil (r : Reader) : r.Reads [] r := rfl

theorem cons (h : r.step t = some r') (h' : r'.Reads ts r'') : r.Reads (t :: ts) r'' := by
  unfold Reads at *
  rw [List.foldlM_cons, h]
  exact h'

theorem append (h : r.Reads ts r') (h' : r'.Reads us r'') : r.Reads (ts ++ us) r'' := by
  unfold Reads at *
  rw [List.foldlM_append, h]
  exact h'

theorem stays (h : ∀ t ∈ ts, r.step t = some r) : r.Reads ts r := by
  induction ts with
  | nil => exact nil r
  | cons t ts ih =>
    exact cons (h t List.mem_cons_self) (ih fun u hu => h u (List.mem_cons_of_mem t hu))

/-- Blanks change nothing in the reader. -/
theorem blanks (h : Blanks ts) (hr : ∀ c, r.step (.blank c) = some r) : r.Reads ts r := by
  refine stays fun t ht => ?_
  obtain ⟨c, rfl⟩ := h t ht
  exact hr c

/-- Blanks and line breaks change nothing in the reader. -/
theorem gap (h : Gap ts) (hr : r.step .newline = some r) (hr' : ∀ c, r.step (.blank c) = some r) :
    r.Reads ts r := by
  refine stays fun t ht => ?_
  obtain rfl | ⟨c, rfl⟩ := h t ht
  · exact hr
  · exact hr' c

end Reads

end Reader

/-! ## Numbers -/

section Numbers

open Json (WholePart)

theorem digitValue_of_isDigit {c : Char} (h : c.isDigit = true) :
    digitValue 10 c = some (c.toNat - 48) := by
  have hrange : 0x30 ≤ c.toNat ∧ c.toNat ≤ 0x39 := by
    simpa [Char.isDigit, UInt32.le_iff_toNat_le] using h
  have hlt : c.toNat - 48 < 10 := by omega
  simp [digitValue, hrange, hlt]

theorem mapM_digitValue {ds : List Char} (h : ∀ d ∈ ds, d.isDigit = true) :
    ds.mapM (digitValue 10) = some (ds.map fun d => d.toNat - 48) := by
  induction ds with
  | nil => rfl
  | cons d ds ih =>
    rw [List.mapM_cons, digitValue_of_isDigit (h d List.mem_cons_self),
      ih fun e he => h e (List.mem_cons_of_mem d he)]
    rfl

theorem digitsValue_map (ds : List Char) :
    digitsValue 10 (ds.map fun d => d.toNat - 48) = Nat.ofDigitChars 10 ds 0 := by
  rw [digitsValue, List.foldl_map]
  rfl

theorem ofInt_of_lt {n : Nat} (h : n < UInt64.size) : Scalar.ofInt n = .whole n := by
  have hfits : fitsWide n = true := by
    have hlow : -(Nat.pow 2 127 : Int) ≤ n := by
      have hneg : -(Nat.pow 2 127 : Int) ≤ 0 := by decide
      omega
    have hhigh : (n : Int) < (Nat.pow 2 128 : Int) :=
      Int.ofNat_lt.2 (Nat.lt_trans h (by decide))
    rw [fitsWide, Bool.and_eq_true, decide_eq_true_eq, decide_eq_true_eq]
    exact ⟨hlow, hhigh⟩
  rw [Scalar.ofInt, if_pos hfits]

theorem splitSign_digit {d : Char} (ds : List Char) (hd : d.isDigit = true) :
    splitSign (d :: ds) = (none, d :: ds) := by
  unfold splitSign
  split
  · rename_i heq
    cases heq
    exact absurd hd (by decide)
  · rename_i heq
    cases heq
    exact absurd hd (by decide)
  · rfl

/-- Decimal digits without a leading zero are a whole number. -/
theorem ofNumeral?_digits {d : Char} {ds : List Char} (hds : ∀ c ∈ d :: ds, c.isDigit = true)
    (hzero : d = '0' → ds = []) :
    Scalar.ofNumeral? (d :: ds) = some (.ofInt (Nat.ofDigitChars 10 (d :: ds) 0 : Nat)) := by
  have hspan : (d :: ds).span (isDigit 10) = (d :: ds, []) := by
    have hdigit : ∀ c ∈ d :: ds, isDigit 10 c = true := fun c hc => by
      rw [isDigit, digitValue_of_isDigit (hds c hc)]
      rfl
    rw [List.span_eq_takeWhile_dropWhile, List.takeWhile_eq_self_iff.2 hdigit,
      List.dropWhile_eq_nil_iff.2 hdigit]
  have hlead : ¬ ((d :: ds).head? = some '0'
      ∧ ((d :: ds).length ≠ 1 ∨ ([] : List (List Char)) ≠ [])) := by
    rintro ⟨hd, hlength | hnil⟩
    · exact hlength (by rw [hzero (Option.some.inj hd), List.length_singleton])
    · exact hnil rfl
  have hvalue : ((d :: ds) ++ ([] : List (List Char)).flatten).mapM (digitValue 10)
      = some ((d :: ds).map fun d => d.toNat - 48) := by
    rw [List.flatten_nil, List.append_nil, mapM_digitValue hds]
  simp only [Scalar.ofNumeral?, splitSign_digit ds (hds d List.mem_cons_self), hspan,
    Scalar.ofDecimal?, if_neg (List.cons_ne_nil d ds), if_neg hlead, areBounded, Bool.not_true,
    Bool.false_eq_true, if_false, hvalue, digitsValue_map]
  rfl

theorem ofWord?_digits {d : Char} {ds : List Char} (hd : d.isDigit = true) (hzero : d ≠ '0') :
    Scalar.ofWord? (d :: ds) = Scalar.ofNumeral? (d :: ds) := by
  have hname : ¬ ((splitSign (d :: ds)).2 = ['i', 'n', 'f']
      ∨ (splitSign (d :: ds)).2 = ['n', 'a', 'n']) := by
    rw [splitSign_digit ds hd]
    rintro (heq | heq) <;> cases heq <;> exact absurd hd (by decide)
  unfold Scalar.ofWord?
  split
  case h_6 => exact if_neg hname
  all_goals
    rename_i heq
    cases heq
    first | exact absurd rfl hzero | exact absurd hd (by decide)

theorem ofWord?_toDigits {n : Nat} (h : n < UInt64.size) :
    Scalar.ofWord? (Nat.toDigits 10 n) = some (.whole n) := by
  have hvalue : Nat.ofDigitChars 10 (Nat.toDigits 10 n) 0 = n := Nat.ofDigitChars_ten_toDigits
  have hdigits : ∀ c ∈ Nat.toDigits 10 n, c.isDigit = true := fun c hc =>
    Nat.isDigit_of_mem_toDigits (by decide) (by decide) hc
  have hwhole := Json.wholePart_toDigits n
  generalize Nat.toDigits 10 n = cs at hvalue hdigits hwhole
  cases hwhole with
  | zero =>
    obtain rfl : 0 = n := hvalue
    rfl
  | digits _ hzero _ =>
    rw [ofWord?_digits (hdigits _ List.mem_cons_self) hzero,
      ofNumeral?_digits hdigits fun h => absurd h hzero, hvalue, ofInt_of_lt h]

end Numbers

/-! ## Values -/

namespace Reader

variable {es es' : Entries} {here : List String} {key : String} {v : Value} {ts : List Token}

/-- The items behind those that have been read already, which the frame holds last one first. -/
theorem reads_items {r' : Reader} {fs : List Frame} {ss : List String}
    (h : Items ss ts) : ∀ before : List Value,
    (⟨es, here, .value, fs⟩ : Reader).give (.list (before.reverse ++ ss.map .text)) = some r' →
      (⟨es, here, .item, .list before :: fs⟩ : Reader).Reads ts r' := by
  have hgap : ∀ {gap : List Token} {items : List Value}, Gap gap →
      (⟨es, here, .item, .list items :: fs⟩ : Reader).Reads gap
        ⟨es, here, .item, .list items :: fs⟩ := fun h => .gap h rfl fun _ => rfl
  have hbehind : ∀ {gap : List Token} {items : List Value}, Gap gap →
      (⟨es, here, .moreItems, .list items :: fs⟩ : Reader).Reads gap
        ⟨es, here, .moreItems, .list items :: fs⟩ := fun h => .gap h rfl fun _ => rfl
  have htext : ∀ (s : String) (items : List Value),
      (⟨es, here, .item, .list items :: fs⟩ : Reader).step (.text s.toList)
        = some ⟨es, here, .moreItems, .list (.text s :: items) :: fs⟩ := by
    intro s items
    have hstep : (⟨es, here, .item, .list items :: fs⟩ : Reader).step (.text s.toList)
        = some ⟨es, here, .moreItems, .list (.text (String.ofList s.toList) :: items) :: fs⟩ := rfl
    rwa [String.ofList_toList] at hstep
  induction h with
  | nil h =>
    intro before hgive
    rw [List.map_nil, List.append_nil] at hgive
    exact (hgap h).append (.cons hgive (.nil _))
  | last s h h' =>
    intro before hgive
    rw [List.map_singleton, ← List.reverse_cons] at hgive
    exact (hgap h).append (.cons (htext s before) ((hbehind h').append (.cons hgive (.nil _))))
  | cons s h h' _ ih =>
    intro before hgive
    refine (hgap h).append (.cons (htext s before) ((hbehind h').append (.cons rfl (ih _ ?_))))
    rw [List.reverse_cons, List.append_assoc]
    exact hgive

/-- The line of an assignment that is carried out has been read but for its end: the value has been
given, or its bare word and blanks behind it have been read. -/
inductive Assigned (es : Entries) (here : List String) (key : String) (v : Value)
    (es' : Entries) : Reader → Prop
  | value : Assigned es here key v es' ⟨es', here, .tail, []⟩
  | word {cs blanks : List Char} {s : Scalar} (hv : v = .scalar s)
      (hs : Scalar.ofWord? cs = some s) :
      Assigned es here key v es' ⟨es, here, .word cs.reverse blanks, [.line [] key]⟩

/-- The line may end here, or the text. -/
structure Closes (r : Reader) (es : Entries) (here : List String) : Prop where
  step_newline : r.step .newline = some ⟨es, here, .line, []⟩
  finish_eq : r.finish = some es

theorem give_line (hassign : within (assign [] key v) here es = some es') (p : Place) :
    (⟨es, here, p, [.line [] key]⟩ : Reader).give v = some ⟨es', here, .tail, []⟩ := by
  simp only [give, hassign]
  rfl

theorem reads_literal (h : Literal v ts)
    (hassign : within (assign [] key v) here es = some es') :
    ∃ r, (⟨es, here, .value, [.line [] key]⟩ : Reader).Reads ts r
      ∧ Assigned es here key v es' r := by
  have hgive := give_line hassign .value
  cases h with
  | text s =>
    rw [← String.ofList_toList (s := s)] at hgive
    exact ⟨_, .cons hgive (.nil _), .value⟩
  | yes => exact ⟨_, .cons rfl (.nil _), .word rfl rfl⟩
  | no => exact ⟨_, .cons rfl (.nil _), .word rfl rfl⟩
  | whole h => exact ⟨_, .cons rfl (.nil _), .word rfl (ofWord?_toDigits h)⟩
  | list h => exact ⟨_, .cons rfl (reads_items h [] hgive), .value⟩

namespace Assigned

variable {r : Reader}

theorem blanks (h : Assigned es here key v es' r) (hts : Blanks ts) :
    ∃ r', r.Reads ts r' ∧ Assigned es here key v es' r' := by
  cases h with
  | value => exact ⟨_, .blanks hts fun _ => rfl, .value⟩
  | @word cs before s hv hs =>
    -- a bare word may go on behind blanks, so these are kept with it
    induction ts generalizing before with
    | nil => exact ⟨_, .nil _, .word hv hs⟩
    | cons t ts ih =>
      obtain ⟨c, rfl⟩ := hts t List.mem_cons_self
      have hts' : Blanks ts := fun u hu => hts u (List.mem_cons_of_mem _ hu)
      obtain ⟨r', hreads, hr'⟩ := @ih hts' (c :: before)
      exact ⟨r', .cons rfl hreads, hr'⟩

theorem closes (h : Assigned es here key v es' r)
    (hassign : within (assign [] key v) here es = some es') : r.Closes es' here := by
  cases h with
  | value => exact ⟨rfl, rfl⟩
  | @word cs before s hv hs =>
    have hgive : (⟨es, here, .word cs.reverse before, [.line [] key]⟩ : Reader).giveWord
        cs.reverse.reverse = some ⟨es', here, .tail, []⟩ := by
      rw [List.reverse_reverse, giveWord, hs, ← give_line hassign (.word cs.reverse before), hv]
      rfl
    constructor
    · calc (⟨es, here, .word cs.reverse before, [.line [] key]⟩ : Reader).step .newline
          = (giveWord ⟨es, here, .word cs.reverse before, [.line [] key]⟩
              cs.reverse.reverse).bind (·.settled .newline) := rfl
        _ = some ⟨es', here, .line, []⟩ := by
          rw [hgive]
          rfl
    · simp only [finish, hgive]
      rfl

end Assigned

end Reader

/-! ## Lines -/

open Reader

/-- The entries and the path of the open table after a statement. -/
def Statement.apply : Entries × List String → Statement → Option (Entries × List String)
  | (es, _), .header name => (openTable name es).map (·, [name])
  | (es, here), .assignment key v => (within (assign [] key v) here es).map (·, here)

variable {es es' : Entries} {here here' : List String}

theorem Key.key?_eq {name : String} {t : Token} (h : Key name t) : t.key? = some name := by
  cases h with
  | bare _ h =>
    have hkey : name.toList.all isKeyChar = true :=
      List.all_eq_true.2 fun c hc => isKeyChar_of_isBare (List.all_eq_true.1 h c hc)
    rw [Token.key?, if_pos hkey, String.ofList_toList]
  | quoted => rw [Token.key?, String.ofList_toList]

theorem Key.step_line {name : String} {t : Token} (h : Key name t) :
    (⟨es, here, .line, []⟩ : Reader).step t
      = some ⟨es, here, .key .line [name] false, []⟩ := by
  have hstep : (⟨es, here, .line, []⟩ : Reader).step t
      = t.key?.map fun k => ⟨es, here, .key .line [k] false, []⟩ := by
    cases h <;> rfl
  rw [hstep, h.key?_eq]
  rfl

theorem Key.step_bracket {name : String} {t : Token} (h : Key name t) {p : Place}
    (hp : p = .bracket ∨ p = .key (.header false) [] true) :
    (⟨es, here, p, []⟩ : Reader).step t
      = some ⟨es, here, .key (.header false) [name] false, []⟩ := by
  have hstep : (⟨es, here, p, []⟩ : Reader).step t
      = t.key?.map fun k => ⟨es, here, .key (.header false) [k] false, []⟩ := by
    rcases hp with rfl | rfl <;> cases h <;> rfl
  rw [hstep, h.key?_eq]
  rfl

theorem reads_inside {blanks : List Token} (h : Blanks blanks) :
    ∃ p, (p = .bracket ∨ p = .key (.header false) [] true)
      ∧ (⟨es, here, .bracket, []⟩ : Reader).Reads blanks ⟨es, here, p, []⟩ := by
  cases blanks with
  | nil => exact ⟨_, .inl rfl, .nil _⟩
  | cons t ts =>
    -- the first blank rules out a second bracket, so the place is another one
    obtain ⟨c, rfl⟩ := h t List.mem_cons_self
    have hts : Blanks ts := fun u hu => h u (List.mem_cons_of_mem _ hu)
    exact ⟨_, .inr rfl, .cons rfl (.blanks hts fun _ => rfl)⟩

theorem step_closeList {name : String} (h : openTable name es = some es') :
    (⟨es, here, .key (.header false) [name] false, []⟩ : Reader).step .closeList
      = some ⟨es', [name], .tail, []⟩ :=
  calc (⟨es, here, .key (.header false) [name] false, []⟩ : Reader).step .closeList
      = (⟨es, here, .key (.header false) [name] false, []⟩ : Reader).openHeader false [name] := rfl
    _ = some ⟨es', [name], .tail, []⟩ := by
      simp only [openHeader, List.reverse_nil, within, Bool.false_eq_true, if_false, h]
      rfl

theorem Statement.Written.reads {st : Statement} {line : List Token} (h : st.Written line)
    (happly : st.apply (es, here) = some (es', here')) :
    ∃ r, (⟨es, here, .line, []⟩ : Reader).Reads line r ∧ r.Closes es' here' := by
  cases h with
  | header hkey hbefore hinside hbehind hafter =>
    obtain ⟨_, hopen, heq⟩ := Option.map_eq_some_iff.1 happly
    cases heq
    obtain ⟨p, hp, hinside⟩ := reads_inside hinside
    refine ⟨⟨es', _, .tail, []⟩, ?_, rfl, rfl⟩
    exact (Reads.blanks hbefore fun _ => rfl).append <| .cons rfl <| hinside.append <|
      .cons (hkey.step_bracket hp) <| (Reads.blanks hbehind fun _ => rfl).append <|
      .cons (step_closeList hopen) <| .blanks hafter fun _ => rfl
  | assignment hkey hlit hbefore hbehind hinside hafter =>
    obtain ⟨_, hassign, heq⟩ := Option.map_eq_some_iff.1 happly
    cases heq
    obtain ⟨r₁, hlit, hr₁⟩ := reads_literal hlit hassign
    obtain ⟨r₂, hafter, hr₂⟩ := hr₁.blanks hafter
    refine ⟨r₂, ?_, hr₂.closes hassign⟩
    exact (Reads.blanks hbefore fun _ => rfl).append <| .cons hkey.step_line <|
      (Reads.blanks hbehind fun _ => rfl).append <| .cons rfl <|
      (Reads.blanks hinside fun _ => rfl).append <| hlit.append hafter

/-- The statements are carried out in their order. -/
theorem Lines.reads {sts : List Statement} {ts : List Token} (h : Lines sts ts) :
    ∀ {es : Entries} {here : List String},
      sts.foldlM Statement.apply (es, here) = some (es', here') →
        ∃ r, (⟨es, here, .line, []⟩ : Reader).Reads ts r ∧ r.finish = some es' := by
  induction h with
  | nil h =>
    intro es here happly
    cases happly
    exact ⟨_, .blanks h fun _ => rfl, rfl⟩
  | last h =>
    intro es here happly
    rw [List.foldlM_cons] at happly
    obtain ⟨_, happly, heq⟩ := Option.bind_eq_some_iff.1 happly
    cases heq
    obtain ⟨r, hline, hr⟩ := h.reads happly
    exact ⟨r, hline, hr.finish_eq⟩
  | empty h _ ih =>
    intro es here happly
    obtain ⟨r, hrest, hr⟩ := ih happly
    exact ⟨r, (Reads.blanks h fun _ => rfl).append (.cons rfl hrest), hr⟩
  | cons h _ ih =>
    intro es here happly
    rw [List.foldlM_cons] at happly
    obtain ⟨⟨es₁, here₁⟩, happly, hrun⟩ := Option.bind_eq_some_iff.1 happly
    obtain ⟨r₁, hline, hr₁⟩ := h.reads happly
    obtain ⟨r, hrest, hr⟩ := ih hrun
    exact ⟨r, hline.append (.cons hr₁.step_newline hrest), hr⟩

/-! ## Tables -/

section Tables

variable {done front rest : Entries} {name key : String} {v : Value}

theorem get?_append (h : name ∉ done.map Prod.fst) :
    Entries.get? (done ++ rest) name = Entries.get? rest name := by
  have hnone : done.lookup name = none := by
    refine List.lookup_eq_none_iff.2 fun p hp => bne_iff_ne.2 ?_
    rintro rfl
    exact h (List.mem_map_of_mem hp)
  rw [Entries.get?, List.lookup_append, hnone, Option.none_or]
  rfl

theorem put_append (h : name ∉ done.map Prod.fst) :
    Entries.put (done ++ rest) name v = done ++ Entries.put rest name v := by
  induction done with
  | nil => rfl
  | cons p done ih =>
    rw [List.map_cons, List.mem_cons, not_or] at h
    rw [List.cons_append, Entries.put, if_neg (Ne.symm h.1), ih h.2, List.cons_append]

theorem put_new (h : name ∉ done.map Prod.fst) : done.put name v = done ++ [(name, v)] := by
  conv_lhs => rw [← List.append_nil done]
  exact put_append h

theorem get?_new (h : name ∉ done.map Prod.fst) : done.get? name = none := by
  rw [← List.append_nil done]
  exact get?_append h

theorem openTable_new (h : name ∉ done.map Prod.fst) :
    openTable name done = some (done ++ [(name, .table .header [])]) := by
  rw [openTable, get?_new h, put_new h]

theorem within_assign (hname : name ∉ done.map Prod.fst) (hkey : key ∉ front.map Prod.fst) :
    within (assign [] key v) [name] (done ++ [(name, .table .header front)])
      = some (done ++ [(name, .table .header (front ++ [(key, v)]))]) := by
  have hget : Entries.get? (done ++ [(name, .table .header front)]) name
      = some (.table .header front) := by
    rw [get?_append hname, Entries.get?, List.lookup_cons_self]
  have hassign : assign [] key v front = some (front ++ [(key, v)]) := by
    rw [assign, Entries.add, get?_new hkey, put_new hkey]
  have hput : ∀ w, Entries.put (done ++ [(name, .table .header front)]) name w
      = done ++ [(name, w)] := by
    intro w
    rw [put_append hname, Entries.put, if_pos rfl]
  simp only [within, hget, hassign, Option.map_some, hput]
  rfl

end Tables

open Statement (apply) in
theorem apply_assignments {done : Entries} {name : String} (hname : name ∉ done.map Prod.fst) :
    ∀ {es front : Entries}, ((front ++ es).map Prod.fst).Nodup →
      (es.map fun (key, v) => Statement.assignment key v).foldlM apply
          (done ++ [(name, .table .header front)], [name])
        = some (done ++ [(name, .table .header (front ++ es))], [name])
  | [], front, _ => by
    rw [List.append_nil]
    rfl
  | (key, v) :: es, front, hkeys => by
    have hsplit : front ++ (key, v) :: es = (front ++ [(key, v)]) ++ es := by simp
    have hkey : key ∉ front.map Prod.fst := by
      intro hmem
      rw [List.map_append, List.map_cons] at hkeys
      exact List.disjoint_of_nodup_append hkeys hmem List.mem_cons_self
    rw [hsplit] at hkeys
    rw [List.map_cons, List.foldlM_cons, apply, within_assign hname hkey, Option.map_some]
    exact (apply_assignments hname hkeys).trans (by rw [hsplit])

/-- The entry of a table with a header of its own. -/
def tableEntry (table : String × Entries) : String × Value :=
  (table.1, .table .header table.2)

open Statement (apply) in
theorem apply_tables : ∀ {tables : List (String × Entries)} {done : Entries} {here : List String},
    ((done.map Prod.fst) ++ tables.map Prod.fst).Nodup →
      (∀ t ∈ tables, (t.2.map Prod.fst).Nodup) →
        ∃ here', (tables.flatMap tableStatements).foldlM apply (done, here)
          = some (done ++ tables.map tableEntry, here')
  | [], done, here, _, _ => ⟨here, by rw [List.map_nil, List.append_nil]; rfl⟩
  | (name, es) :: tables, done, here, hnames, hkeys => by
    have hname : name ∉ done.map Prod.fst := fun hmem =>
      List.disjoint_of_nodup_append hnames hmem List.mem_cons_self
    have hnames' : ((done ++ [tableEntry (name, es)]).map Prod.fst
        ++ tables.map Prod.fst).Nodup := by
      simpa [tableEntry] using hnames
    have hkeys' : ∀ t ∈ tables, (t.2.map Prod.fst).Nodup := fun t ht =>
      hkeys t (List.mem_cons_of_mem _ ht)
    have hassign := @apply_assignments done name hname es [] (hkeys (name, es) List.mem_cons_self)
    obtain ⟨here', hrest⟩ := @apply_tables tables _ [name] hnames' hkeys'
    refine ⟨here', ?_⟩
    rw [List.flatMap_cons, List.foldlM_append, tableStatements, List.foldlM_cons, apply,
      openTable_new hname]
    simp only [Option.map_some, Option.bind_eq_bind, Option.bind_some, hassign]
    exact hrest.trans (by simp [tableEntry])

/-- Distinct tables with distinct keys are read off every text that spells them. -/
theorem parse_of_spelled {tables : List (String × Entries)} {text : String}
    (h : Spelled tables text) (hnames : (tables.map Prod.fst).Nodup)
    (hkeys : ∀ t ∈ tables, (t.2.map Prod.fst).Nodup) :
    parse text.toList = some (tables.map tableEntry) := by
  obtain ⟨ts, hlines, hlexed⟩ := h
  obtain ⟨here, hrun⟩ := @apply_tables tables [] [] hnames hkeys
  obtain ⟨r, hreads, hfinish⟩ := hlines.reads hrun
  rw [parse, dropMark_of_lexed hlexed, tokens_of_lexed hlexed]
  calc (do
        let r ← ts.foldlM Reader.step {}
        r.finish)
      = r.finish := by
        rw [show ts.foldlM Reader.step {} = some r from hreads]
        rfl
    _ = some (tables.map tableEntry) := hfinish

/-! ## Every document can be written -/

/-- The tokens can be written right behind a word or a string. -/
def CanFollow (ts : List Token) : Prop :=
  ∃ cs, Ended cs ∧ Lexed ts cs

theorem CanFollow.newline {ts : List Token} {cs : List Char} (h : Lexed ts cs) :
    CanFollow (.newline :: ts) := by
  refine ⟨'\n' :: cs, ?_, .newline .absent .feed h⟩
  rintro c ⟨⟩
  decide

theorem CanFollow.mark {ts : List Token} {cs : List Char} (h : Lexed ts cs) {t : Token} {c : Char}
    (ht : (t, c) ∈ marks) (hc : c ≠ '[') : CanFollow (t :: ts) := by
  have hall : ∀ p ∈ marks, p.2 ≠ '[' → p.2 ∈ [' ', '\t', '\n', '\r', '#', '=', ',', ']'] := by
    decide
  refine ⟨c :: cs, ?_, .mark ht h⟩
  rintro d ⟨⟩
  exact hall _ ht hc

theorem CanFollow.text {ts : List Token} (h : CanFollow ts) (s : List Char) :
    ∃ cs, Lexed (.text s :: ts) cs := by
  obtain ⟨cs, hend, hcs⟩ := h
  obtain ⟨w, hw⟩ := exists_basic s
  exact ⟨_, .text hw hend hcs⟩

theorem CanFollow.word {ts : List Token} (h : CanFollow ts) {w : List Char} (hne : w ≠ [])
    (hw : w.all isBare = true) : ∃ cs, Lexed (.word w :: ts) cs := by
  obtain ⟨cs, hend, hcs⟩ := h
  exact ⟨_, .word hne hw hend hcs⟩

theorem exists_items {ts : List Token} (h : CanFollow ts) : ∀ ss : List String,
    ∃ items, Items ss items ∧ ∃ cs, Lexed (items ++ ts) cs
  | [] => by
    obtain ⟨cs, _, hcs⟩ := h
    have hgap : Gap [] := nofun
    exact ⟨_, .nil hgap, _, .mark (c := ']') (by decide) hcs⟩
  | s :: ss => by
    obtain ⟨items, hitems, cs, hcs⟩ := exists_items h ss
    have hgap : Gap [] := nofun
    have hcomma : CanFollow (.comma :: (items ++ ts)) :=
      .mark hcs (c := ',') (by decide) (by decide)
    exact ⟨_, .cons s hgap hgap hitems, hcomma.text s.toList⟩

theorem exists_literal {v : Value} {lit ts : List Token} (h : Literal v lit) (hts : CanFollow ts) :
    ∃ lit, Literal v lit ∧ ∃ cs, Lexed (lit ++ ts) cs := by
  cases h with
  | text s => exact ⟨_, .text s, hts.text s.toList⟩
  | yes => exact ⟨_, .yes, hts.word (List.cons_ne_nil _ _) rfl⟩
  | no => exact ⟨_, .no, hts.word (List.cons_ne_nil _ _) rfl⟩
  | @whole n h =>
    refine ⟨_, .whole h, hts.word Nat.toDigits_ne_nil (List.all_eq_true.2 fun c hc => ?_)⟩
    have hdigit : c.isDigit = true := Nat.isDigit_of_mem_toDigits (by decide) (by decide) hc
    simp [isBare, Char.isAlphanum, hdigit]
  | @list ss _ _ =>
    obtain ⟨items, hitems, cs, hcs⟩ := exists_items hts ss
    exact ⟨_, .list hitems, _, .mark (c := '[') (by decide) hcs⟩

/-- The value of an assignment can be written. -/
def Statement.Writable : Statement → Prop
  | .header _ => True
  | .assignment _ v => ∃ lit, Literal v lit

theorem exists_lines : ∀ {sts : List Statement}, (∀ st ∈ sts, st.Writable) →
    ∃ ts, Lines sts ts ∧ ∃ cs, Lexed ts cs
  | [], _ => ⟨[], .nil nofun, [], .nil .absent⟩
  | st :: sts, h => by
    obtain ⟨ts, hts, cs, hcs⟩ := exists_lines fun st' h' => h st' (List.mem_cons_of_mem st h')
    have hblanks : Blanks [] := nofun
    have hend := CanFollow.newline hcs
    cases st with
    | header name =>
      obtain ⟨cs', _, hcs'⟩ := hend
      have hclose : CanFollow (.closeList :: .newline :: ts) :=
        .mark hcs' (c := ']') (by decide) (by decide)
      obtain ⟨cs'', hcs''⟩ := hclose.text name.toList
      exact ⟨_, .cons (.header (.quoted name) hblanks hblanks hblanks hblanks) hts, _,
        .mark (c := '[') (by decide) hcs''⟩
    | assignment key v =>
      obtain ⟨_, hlit⟩ := h _ List.mem_cons_self
      obtain ⟨lit, hlit, cs', hcs'⟩ := exists_literal hlit hend
      have hequals : CanFollow (.equals :: (lit ++ .newline :: ts)) :=
        .mark hcs' (c := '=') (by decide) (by decide)
      refine ⟨_, .cons (.assignment (.quoted key) hlit hblanks hblanks hblanks hblanks) hts, ?_⟩
      simpa using hequals.text key.toList

theorem exists_spelled {tables : List (String × Entries)}
    (h : ∀ t ∈ tables, ∀ p ∈ t.2, ∃ lit, Literal p.2 lit) : ∃ text, Spelled tables text := by
  have hwritable : ∀ st ∈ tables.flatMap tableStatements, st.Writable := by
    intro st hst
    obtain ⟨t, ht, hst⟩ := List.mem_flatMap.1 hst
    rcases List.mem_cons.1 hst with rfl | hst
    · trivial
    · obtain ⟨p, hp, rfl⟩ := List.mem_map.1 hst
      exact h t ht p hp
  obtain ⟨ts, hlines, cs, hlexed⟩ := exists_lines hwritable
  exact ⟨String.ofList cs, ts, hlines, by rwa [String.toList_ofList]⟩

end HttpDns.Toml
