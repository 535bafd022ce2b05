import HttpDns.Proofs.Brackets
import HttpDns.Proofs.Decoding

/-!
# Documents

What an object is to say, member by member: a text spelled in any way the grammar allows, a number
in decimal digits, a list, or nothing where the default is meant. Of any tree that says it the
fields are what the document says (`Document.Of.fields`), in whatever order the members stand. The
values that say it are written as a text of such a tree (`writes_object`).
-/

namespace HttpDns.Json

/-! ## Strings -/

/-- The pieces spell the characters: each of them as itself, as the escape of its 16-bit unit or as
those of its surrogate pair. -/
inductive Spells : List Piece → List Char → Prop
  | nil : Spells [] []
  | char {ps : List Piece} {cs : List Char} (c : Char) (rest : Spells ps cs) :
      Spells (.char c :: ps) (c :: cs)
  | unit {ps : List Piece} {cs : List Char} (c : Char) (h : c.toNat < 0x10000)
      (rest : Spells ps cs) : Spells (.unit c.toNat :: ps) (c :: cs)
  | pair {ps : List Piece} {cs : List Char} (c : Char) (h : 0x10000 ≤ c.toNat)
      (rest : Spells ps cs) :
      Spells (.unit (0xD800 + (c.toNat - 0x10000) / 0x400)
        :: .unit (0xDC00 + (c.toNat - 0x10000) % 0x400) :: ps) (c :: cs)

theorem char_range (c : Char) : c.toNat < 0xD800 ∨ 0xE000 ≤ c.toNat ∧ c.toNat < 0x110000 := by
  have h := c.valid
  simp only [UInt32.isValidChar, Nat.isValidChar, Char.toNat_val] at h
  omega

theorem readPieces_unit {n : Nat} (h : n < 0xD800 ∨ 0xE000 ≤ n) (ps : List Piece) :
    readPieces (.unit n :: ps) = (readPieces ps).map (Char.ofNat n :: ·) := by
  rw [readPieces.eq_def]
  exact if_pos (by simpa using h)

theorem readPieces_pair {n m : Nat} (hn : 0xD800 ≤ n ∧ n < 0xDC00) (hm : 0xDC00 ≤ m ∧ m < 0xE000)
    (ps : List Piece) :
    readPieces (.unit n :: .unit m :: ps)
      = (readPieces ps).map
          (Char.ofNat (0x10000 + (n - 0xD800) * 0x400 + (m - 0xDC00)) :: ·) := by
  have hlow : ¬ (decide (n < 0xD800) || decide (0xE000 ≤ n)) = true := by
    simp only [Bool.or_eq_true, decide_eq_true_eq]
    omega
  have hpair : (decide (n < 0xDC00) && decide (0xDC00 ≤ m) && decide (m < 0xE000)) = true := by
    simp only [Bool.and_eq_true, decide_eq_true_eq]
    omega
  rw [readPieces.eq_def]
  exact (if_neg hlow).trans (if_pos hpair)

theorem readPieces_of_spells {ps : List Piece} {cs : List Char} (h : Spells ps cs) :
    readPieces ps = some cs := by
  induction h with
  | nil => rfl
  | char c _ ih => rw [readPieces, ih, Option.map_some]
  | unit c _ _ ih =>
    have hvalid : c.toNat < 0xD800 ∨ 0xE000 ≤ c.toNat := (char_range c).imp_right And.left
    rw [readPieces_unit hvalid, ih, Option.map_some, Char.ofNat_toNat]
  | pair c hc _ ih =>
    have hrange := char_range c
    have hjoined : 0x10000 + (0xD800 + (c.toNat - 0x10000) / 0x400 - 0xD800) * 0x400
        + (0xDC00 + (c.toNat - 0x10000) % 0x400 - 0xDC00) = c.toNat := by omega
    rw [readPieces_pair (by omega) (by omega), ih, Option.map_some, hjoined, Char.ofNat_toNat]

/-! ## Documents -/

def Says (s : String) (t : Tree) : Prop :=
  ∃ ps, Spells ps s.toList ∧ t = .text ps

def SaysOrNull : Option String → Tree → Prop
  | none, t => t = .null
  | some s, t => Says s t

/-- The number in decimal digits. -/
def Counts (n : Nat) (t : Tree) : Prop :=
  t = .number { whole := Nat.toDigits 10 n }

def Lists {α : Type} (Item : α → Tree → Prop) (as : List α) (t : Tree) : Prop :=
  ∃ items, List.Forall₂ Item as items ∧ t = .list items

/-- What is given for a member; a member at its default may be left out. -/
def Stated (P : Tree → Prop) (default : Prop) : Option Tree → Prop
  | some t => P t
  | none => default

/-- The members of an object by name, each with what may be given for it. -/
abbrev Document := List (String × (Option Tree → Prop))

def Document.names (doc : Document) : List String :=
  doc.map (·.1)

/-- The members are those of the document, some of them left out. -/
inductive Document.Members : Document → List (List Piece × Tree) → Prop
  | nil : Members [] []
  | given {doc : Document} {ms : List (List Piece × Tree)} {name : String}
      {P : Option Tree → Prop} {key : List Piece} {t : Tree} (hkey : Spells key name.toList)
      (ht : P (some t)) (rest : Members doc ms) : Members ((name, P) :: doc) ((key, t) :: ms)
  | leftOut {doc : Document} {ms : List (List Piece × Tree)} {name : String}
      {P : Option Tree → Prop} (h : P none) (rest : Members doc ms) :
      Members ((name, P) :: doc) ms

/-- The tree is an object with the members of the document, in any order. -/
def Document.Of (doc : Document) (t : Tree) : Prop :=
  ∃ ms ms', doc.Members ms' ∧ ms.Perm ms' ∧ t = .object ms

/-! ## Reading a document -/

theorem named_of_spells {key : List Piece} {name : String} (h : Spells key name.toList) (t : Tree) :
    Named name (key, t) := by
  rw [Named, readText, readPieces_of_spells h, Option.map_some, String.ofList_toList]

namespace Document.Members

variable {doc : Document} {ms : List (List Piece × Tree)}

theorem named (h : doc.Members ms) : ∀ m ∈ ms, ∃ name ∈ doc.names, Named name m := by
  induction h with
  | nil => exact fun m hm => nomatch hm
  | given hkey _ _ ih =>
    refine List.forall_mem_cons.2 ⟨⟨_, List.mem_cons_self, named_of_spells hkey _⟩, fun m hm => ?_⟩
    obtain ⟨name, hname, hm⟩ := ih m hm
    exact ⟨name, List.mem_cons_of_mem _ hname, hm⟩
  | leftOut _ _ ih =>
    intro m hm
    obtain ⟨name, hname, hm⟩ := ih m hm
    exact ⟨name, List.mem_cons_of_mem _ hname, hm⟩

theorem legible (h : doc.Members ms) : Legible ms := fun m hm =>
  let ⟨name, _, hm⟩ := h.named m hm
  ⟨name, hm⟩

/-- No member has a name that the document does not list. -/
theorem not_named (h : doc.Members ms) {name : String} (hname : name ∉ doc.names) :
    ∀ m ∈ ms, ¬ Named name m := by
  intro m hm hnamed
  obtain ⟨name', hname', hm'⟩ := h.named m hm
  exact hname (hnamed.unique hm' ▸ hname')

theorem once (h : doc.Members ms) (hn : doc.names.Nodup) (names : List String) : Once names ms := by
  induction h with
  | nil => exact fun name _ => .nil
  | given hkey _ rest ih =>
    have hn' := List.nodup_cons.1 hn
    refine once_cons.2 ⟨fun name' _ hm => ?_, ih hn'.2⟩
    rw [hm.unique (named_of_spells hkey _)]
    exact rest.not_named hn'.1
  | leftOut _ _ ih => exact ih (List.nodup_cons.1 hn).2

/-- What the members give for a name of the document is what it says. -/
theorem stated (h : doc.Members ms) (hn : doc.names.Nodup) :
    ∀ d ∈ doc, (∃ m ∈ ms, Named d.1 m ∧ d.2 (some m.2)) ∨ (∀ m ∈ ms, ¬ Named d.1 m) ∧ d.2 none := by
  induction h with
  | nil => exact fun d hd => nomatch hd
  | @given doc ms name P key t hkey ht rest ih =>
    have hn' := List.nodup_cons.1 hn
    refine List.forall_mem_cons.2
      ⟨.inl ⟨_, List.mem_cons_self, named_of_spells hkey t, ht⟩, fun d hd => ?_⟩
    have hother : ¬ Named d.1 (key, t) := by
      intro hnamed
      refine hn'.1 ?_
      rw [(named_of_spells hkey t).unique hnamed]
      exact List.mem_map.2 ⟨d, hd, rfl⟩
    rcases ih hn'.2 d hd with ⟨m, hm, h⟩ | ⟨hnone, h⟩
    · exact .inl ⟨m, List.mem_cons_of_mem _ hm, h⟩
    · exact .inr ⟨List.forall_mem_cons.2 ⟨hother, hnone⟩, h⟩
  | leftOut h rest ih =>
    have hn' := List.nodup_cons.1 hn
    exact List.forall_mem_cons.2 ⟨.inr ⟨rest.not_named hn'.1, h⟩, ih hn'.2⟩

end Document.Members

/-- The fields of a document are what it says. -/
theorem Document.Of.fields {doc : Document} {t : Tree} (h : doc.Of t) (hn : doc.names.Nodup)
    {depth : Nat} (hd : 0 < depth) :
    ∃ fs, t.fields doc.names depth = some fs ∧ ∀ d ∈ doc, d.2 (fs.lookup d.1) := by
  obtain ⟨ms, ms', hm, hperm, rfl⟩ := h
  have hsome : ((Tree.object ms).fields doc.names depth).isSome :=
    (isSome_fields_object hd).2
      ⟨(legible_perm hperm).2 hm.legible, (once_perm hperm).2 (hm.once hn _)⟩
  obtain ⟨fs, hfs⟩ := Option.isSome_iff_exists.1 hsome
  refine ⟨fs, hfs, fun d hdoc => ?_⟩
  have hname : d.1 ∈ doc.names := List.mem_map_of_mem hdoc
  rcases hm.stated hn d hdoc with ⟨m, hmem, hnamed, h⟩ | ⟨hnone, h⟩
  · rwa [(lookup_fields_object hd hfs hname).2 ⟨m, hperm.mem_iff.2 hmem, hnamed, rfl⟩]
  · rwa [(lookup_fields_object_eq_none hd hfs hname).2 fun m hmem => hnone m (hperm.mem_iff.1 hmem)]

theorem get_of_stated {α : Type} {fs : Fields} {name : String} {P : Tree → Prop} {D : Prop}
    (h : Stated P D (fs.lookup name)) {default v : α} {read : Tree → Option α}
    (hread : ∀ t, P t → read t = some v) (hdefault : D → v = default) :
    fs.get name default read = some v := by
  unfold Fields.get
  cases hl : fs.lookup name with
  | none =>
    rw [hl] at h
    rw [hdefault h]
  | some t =>
    rw [hl] at h
    exact hread t h

/-! ### What is given -/

theorem text?_of_says {s : String} {t : Tree} (h : Says s t) : t.text? = some s := by
  obtain ⟨ps, hps, rfl⟩ := h
  exact named_of_spells hps .null

theorem textOrNull?_of_says {s : Option String} {t : Tree} (h : SaysOrNull s t) :
    t.textOrNull? = some s := by
  cases s with
  | none =>
    obtain rfl : t = .null := h
    rfl
  | some s =>
    obtain ⟨ps, hps, rfl⟩ := h
    have htext : (Tree.text ps).text? = some s := text?_of_says ⟨ps, hps, rfl⟩
    rw [Tree.textOrNull?, htext, Option.map_some]
    intro h
    cases h

theorem valueOrNull?_of_says {s : Option String} {t : Tree} (h : SaysOrNull s t) (depth : Nat) :
    t.valueOrNull? depth = some (s.map .text) := by
  cases s with
  | none =>
    obtain rfl : t = .null := h
    rfl
  | some s =>
    obtain ⟨ps, hps, rfl⟩ := h
    have htext : readText ps = some s := text?_of_says ⟨ps, hps, rfl⟩
    rw [Tree.valueOrNull?, Tree.value, htext]
    · rfl
    · intro h
      cases h

theorem natural?_of_counts {n limit : Nat} {t : Tree} (h : Counts n t) (hl : limit ≤ maxWord)
    (hn : n ≤ limit) : t.natural? limit = some n := by
  obtain rfl : t = .number { whole := Nat.toDigits 10 n } := h
  exact (natural?_eq_some_iff hl).2 ⟨rfl, Nat.ofDigitChars_ten_toDigits, hn⟩

theorem word32?_of_counts {n : UInt32} {t : Tree} (h : Counts n.toNat t) : t.word32? = some n := by
  have hn : n.toNat ≤ UInt32.size - 1 := Nat.le_sub_one_of_lt n.toNat_lt
  rw [Tree.word32?, natural?_of_counts h (by decide) hn, Option.map_some, UInt32.ofNat_toNat]

theorem word16?_of_counts {n : UInt16} {t : Tree} (h : Counts n.toNat t) : t.word16? = some n := by
  have hn : n.toNat ≤ UInt16.size - 1 := Nat.le_sub_one_of_lt n.toNat_lt
  rw [Tree.word16?, natural?_of_counts h (by decide) hn, Option.map_some, UInt16.ofNat_toNat]

/-- A list is read item by item. -/
theorem listOf?_of_lists {α β : Type} {Item : α → Tree → Prop} {as : List α} {t : Tree}
    (h : Lists Item as t) {read : Tree → Option β} {R : α → β → Prop}
    (hread : ∀ a ∈ as, ∀ t, Item a t → ∃ b, read t = some b ∧ R a b) {depth : Nat}
    (hd : 0 < depth) :
    ∃ bs, t.listOf? depth read = some bs ∧ List.Forall₂ R as bs := by
  obtain ⟨items, hitems, rfl⟩ := h
  simp only [Tree.listOf?, if_pos hd]
  induction hitems with
  | nil => exact ⟨[], rfl, .nil⟩
  | @cons a t as items hitem _ ih =>
    obtain ⟨b, hb, hR⟩ := hread a List.mem_cons_self t hitem
    obtain ⟨bs, hbs, hall⟩ := ih fun a ha => hread a (List.mem_cons_of_mem _ ha)
    refine ⟨b :: bs, ?_, .cons hR hall⟩
    rw [List.mapM_cons, hb, hbs]
    rfl

/-! ## Documents are written -/

/-- The characters are a text, without blanks, of a tree of which this holds. -/
def Writes (P : Tree → Prop) (cs : List Char) : Prop :=
  ∃ t, P t ∧ Joined Token.Spelled t.tokens cs

theorem Writes.imp {P Q : Tree → Prop} {cs : List Char} (h : Writes P cs) (hPQ : ∀ t, P t → Q t) :
    Writes Q cs := by
  obtain ⟨t, ht, hcs⟩ := h
  exact ⟨t, hPQ t ht, hcs⟩

theorem lexed_of_joined {ts : List Token} {cs : List Char} (h : Joined Token.Spelled ts cs) :
    Lexed ts cs := by
  refine ⟨cs, [], ?_, no_characters, (List.append_nil cs).symm⟩
  induction h with
  | nil => exact .nil
  | cons hl _ ih => exact .cons ⟨[], _, no_characters, hl, rfl⟩ ih

theorem joined_singleton {tok : Token} {cs : List Char} (h : tok.Spelled cs) :
    Joined Token.Spelled [tok] cs := by
  have hone := Joined.cons h .nil
  rwa [List.append_nil] at hone

/-- A number below 256 has two hexadecimal digits behind two zeros. -/
theorem hex_of_lt {n : Nat} (h : n < 256) :
    Hex ['0', '0', hexDigit (n / 16), hexDigit (n % 16)] n := by
  have hdigit : ∀ d < 16, hexValue (hexDigit d) = some d := by decide
  have hzero : Hex ['0', '0'] 0 := (Hex.nil.snoc (hdigit 0 (by decide))).snoc (hdigit 0 (by decide))
  have hfour := (hzero.snoc (hdigit (n / 16) (by omega))).snoc (hdigit (n % 16) (by omega))
  rwa [Nat.mul_zero, Nat.zero_add, Nat.div_add_mod] at hfour

theorem exists_piece (c : Char) : ∃ p : Piece, p.Spelled (writeChar c)
    ∧ ∀ {ps : List Piece} {cs : List Char}, Spells ps cs → Spells (p :: ps) (c :: cs) := by
  unfold writeChar
  split
  · exact ⟨_, .short (e := '"') rfl, .char _⟩
  · exact ⟨_, .short (e := '\\') rfl, .char _⟩
  · exact ⟨_, .short (e := 'b') rfl, .char _⟩
  · exact ⟨_, .short (e := 'f') rfl, .char _⟩
  · exact ⟨_, .short (e := 'n') rfl, .char _⟩
  · exact ⟨_, .short (e := 'r') rfl, .char _⟩
  · exact ⟨_, .short (e := 't') rfl, .char _⟩
  · rename_i hquote hslash _ _ _ _ _
    split
    · rename_i hlow
      exact ⟨.unit c.toNat, .unit (hex_of_lt (by omega)) rfl, .unit c (by omega)⟩
    · rename_i hlow
      exact ⟨.char c, .plain hquote hslash (by omega), .char c⟩

theorem exists_pieces : ∀ cs : List Char, ∃ ps, Spells ps cs
    ∧ Joined Piece.Spelled ps (cs.flatMap writeChar)
  | [] => ⟨[], .nil, .nil⟩
  | c :: cs => by
    obtain ⟨p, hp, hspells⟩ := exists_piece c
    obtain ⟨ps, hps, hjoined⟩ := exists_pieces cs
    exact ⟨p :: ps, hspells hps, .cons hp hjoined⟩

theorem writes_text (s : String) : Writes (Says s) (Value.text s).write := by
  obtain ⟨ps, hps, hjoined⟩ := exists_pieces s.toList
  rw [Value.write]
  exact ⟨.text ps, ⟨ps, hps, rfl⟩, joined_singleton (.text hjoined)⟩

theorem writes_textOrNull : ∀ s : Option String,
    Writes (SaysOrNull s) ((s.map Value.text).getD .null).write
  | none => ⟨.null, rfl, joined_singleton .null⟩
  | some s => writes_text s

theorem isDigit_of_mem_toDigits {n : Nat} {c : Char} (h : c ∈ Nat.toDigits 10 n) :
    isDigit c = true :=
  Nat.isDigit_of_mem_toDigits (by decide) (by decide) h

/-- Decimal digits have no leading zero. -/
theorem wholePart_toDigits (n : Nat) : WholePart (Nat.toDigits 10 n) := by
  induction n using Nat.strongRecOn with
  | ind n ih =>
    by_cases hlt : n < 10
    · have hone : ∀ n < 10, n = 0 ∨ n.digitChar ≠ '0' := by decide
      rw [Nat.toDigits_of_lt_base hlt]
      rcases hone n hlt with rfl | hne
      · exact .zero
      · refine .digits (isDigit_of_mem_toDigits (n := n) ?_) hne no_characters
        rw [Nat.toDigits_of_lt_base hlt]
        exact List.mem_singleton.2 rfl
    · have hlast : isDigit (n % 10).digitChar = true := by
        refine isDigit_of_mem_toDigits (n := n % 10) ?_
        rw [Nat.toDigits_of_lt_base (Nat.mod_lt n (by decide))]
        exact List.mem_singleton.2 rfl
      have hfront := ih (n / 10) (by omega)
      have hvalue : Nat.ofDigitChars 10 (Nat.toDigits 10 (n / 10)) 0 = n / 10 :=
        Nat.ofDigitChars_ten_toDigits
      rw [Nat.toDigits_of_base_le (by decide) (by omega)]
      cases hd : Nat.toDigits 10 (n / 10) with
      | nil => exact absurd hd Nat.toDigits_ne_nil
      | cons d ds =>
        rw [hd] at hfront hvalue
        cases hfront with
        | zero =>
          have hzero : n / 10 = 0 := hvalue.symm
          omega
        | digits hdigit h0 hds => exact .digits hdigit h0 (hds.snoc hlast)

theorem writes_count (n : Nat) : Writes (Counts n) (Value.number (.whole n)).write := by
  have hdigits : (Value.number (.whole n)).write = Nat.toDigits 10 n := by
    rw [Value.write, Number.write]
    exact Nat.toList_repr
  rw [hdigits]
  have hspelled := Numeral.Spelled.parts false (wholePart_toDigits n) .absent .absent
  refine ⟨_, rfl, joined_singleton (.number ?_)⟩
  simpa [signChars] using hspelled

theorem writeItems_cons (v : Value) (vs : List Value) :
    writeItems (v :: vs) = v.write ++ vs.flatMap (',' :: ·.write) := by
  induction vs generalizing v with
  | nil => simp [writeItems]
  | cons w vs ih =>
    have hnext : writeItems (v :: w :: vs) = v.write ++ ',' :: writeItems (w :: vs) := rfl
    rw [hnext, ih, List.flatMap_cons]
    rfl

theorem writeMembers_cons (key : String) (v : Value) (named : List (String × Value)) :
    writeMembers ((key, v) :: named) = writeText key ++ ':' :: v.write
      ++ named.flatMap fun m => ',' :: writeText m.1 ++ ':' :: m.2.write := by
  induction named generalizing key v with
  | nil => simp [writeMembers]
  | cons m named ih =>
    have hnext : writeMembers ((key, v) :: m :: named)
        = writeText key ++ ':' :: v.write ++ ',' :: writeMembers (m :: named) := rfl
    rw [hnext, ih, List.flatMap_cons]
    rfl

theorem joined_itemsBehind {ts : List Tree} {vs : List Value}
    (h : List.Forall₂ (fun t v => Joined Token.Spelled t.tokens v.write) ts vs) :
    Joined Token.Spelled (itemsBehind ts) (vs.flatMap (',' :: ·.write)) := by
  induction h with
  | nil => exact .nil
  | cons hfirst _ ih =>
    rw [itemsBehind, List.flatMap_cons]
    exact (joined_singleton Token.Spelled.comma).append (hfirst.append ih)

/-- The key is written as the name, and the tree as the value. -/
structure MemberWritten (m : List Piece × Tree) (named : String × Value) : Prop where
  key : (Token.text m.1).Spelled (writeText named.1)
  value : Joined Token.Spelled m.2.tokens named.2.write

theorem joined_membersBehind {ms : List (List Piece × Tree)} {named : List (String × Value)}
    (h : List.Forall₂ MemberWritten ms named) : Joined Token.Spelled (membersBehind ms)
      (named.flatMap fun m => ',' :: writeText m.1 ++ ':' :: m.2.write) := by
  induction h with
  | nil => exact .nil
  | cons hfirst _ ih =>
    rw [membersBehind, List.flatMap_cons]
    have h := Joined.cons .comma (Joined.cons hfirst.key
      (Joined.cons .colon (hfirst.value.append ih)))
    simpa using h

theorem writes_list {α : Type} {Item : α → Tree → Prop} {as : List α} {vs : List Value}
    (h : List.Forall₂ (fun a v => Writes (Item a) v.write) as vs) :
    Writes (Lists Item as) (Value.list vs).write := by
  have hitems : ∃ ts, List.Forall₂ Item as ts
      ∧ List.Forall₂ (fun t v => Joined Token.Spelled t.tokens v.write) ts vs := by
    induction h with
    | nil => exact ⟨[], .nil, .nil⟩
    | cons hfirst _ ih =>
      obtain ⟨t, ht, hjoined⟩ := hfirst
      obtain ⟨ts, hts, hall⟩ := ih
      exact ⟨t :: ts, .cons ht hts, .cons hjoined hall⟩
  obtain ⟨ts, hts, hall⟩ := hitems
  refine ⟨.list ts, ⟨ts, hts, rfl⟩, ?_⟩
  cases hall with
  | nil => exact (joined_singleton .openList).snoc Token.Spelled.closeList
  | cons hfirst hrest =>
    have h := Joined.cons .openList
      (hfirst.append ((joined_itemsBehind hrest).snoc Token.Spelled.closeList))
    rw [Value.write, writeItems_cons, Tree.tokens]
    simpa using h

/-- A document is written if each of its members is. -/
theorem writes_object {doc : Document} {named : List (String × Value)}
    (h : List.Forall₂ (fun d m => m.1 = d.1 ∧ Writes (fun t => d.2 (some t)) m.2.write) doc
      named) : Writes doc.Of (Value.object named).write := by
  have hmembers : ∃ ms, doc.Members ms ∧ List.Forall₂ MemberWritten ms named := by
    induction h with
    | nil => exact ⟨[], .nil, .nil⟩
    | cons hfirst _ ih =>
      obtain ⟨hname, t, ht, hjoined⟩ := hfirst
      obtain ⟨ps, hps, hkey⟩ := exists_pieces _
      obtain ⟨ms, hms, hall⟩ := ih
      exact ⟨(ps, t) :: ms, .given hps ht hms, .cons ⟨hname ▸ .text hkey, hjoined⟩ hall⟩
  obtain ⟨ms, hms, hall⟩ := hmembers
  refine ⟨.object ms, ⟨ms, ms, hms, .refl _, rfl⟩, ?_⟩
  cases hall with
  | nil => exact (joined_singleton .openObject).snoc Token.Spelled.closeObject
  | cons hfirst hrest =>
    have h := Joined.cons .openObject (.cons hfirst.key (.cons .colon
      (hfirst.value.append ((joined_membersBehind hrest).snoc Token.Spelled.closeObject))))
    rw [Value.write, writeMembers_cons, Tree.tokens]
    simpa using h

end HttpDns.Json
