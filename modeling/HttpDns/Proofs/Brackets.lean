import HttpDns.Json.Tree
import HttpDns.Proofs.Lexing

/-!
# Trees and the texts they are written as

A tree has its tokens (`Tree.tokens`), and a text is read as a tree exactly if it is made of the
tokens of that tree (`parse_eq_some_iff`). So all texts of one tree, which differ in blanks and in
nothing else, are read alike, and behind the text of an object nothing but blanks may stand
(`parse_trailing`).
-/

namespace HttpDns.Json

/-! ## The tokens of a tree -/

mutual

/-- The tokens of a tree, in the order they are written in. -/
def Tree.tokens : Tree → List Token
  | .null => [.null]
  | .bool b => [.bool b]
  | .number n => [.number n]
  | .text pieces => [.text pieces]
  | .list [] => [.openList, .closeList]
  | .list (t :: rest) => .openList :: (t.tokens ++ (itemsBehind rest ++ [.closeList]))
  | .object [] => [.openObject, .closeObject]
  | .object ((key, t) :: rest) =>
    .openObject :: .text key :: .colon :: (t.tokens ++ (membersBehind rest ++ [.closeObject]))

/-- The items that stand behind another one. -/
def itemsBehind : List Tree → List Token
  | [] => []
  | t :: rest => .comma :: (t.tokens ++ itemsBehind rest)

/-- The members that stand behind another one. -/
def membersBehind : List (List Piece × Tree) → List Token
  | [] => []
  | (key, t) :: rest => .comma :: .text key :: .colon :: (t.tokens ++ membersBehind rest)

end

/-- The text is one of the tree: its tokens, with blanks among them. -/
def Tree.Written (t : Tree) (cs : List Char) : Prop :=
  Lexed t.tokens cs

/-! ### No two numbers side by side -/

/-- Tokens that may stand behind any others. -/
def Loose (ts : List Token) : Prop :=
  ts.IsChain Token.Apart ∧ ∀ t ∈ ts.head?, ¬ t.IsNumber

theorem Loose.cons {t : Token} {ts : List Token} (ht : ¬ t.IsNumber) (h : ts.IsChain Token.Apart) :
    Loose (t :: ts) := by
  refine ⟨List.isChain_cons.2 ⟨fun u _ hu => ht hu.1, h⟩, ?_⟩
  rintro u ⟨⟩
  exact ht

theorem Loose.behind {t : Token} {ts : List Token} (h : Loose ts) :
    (t :: ts).IsChain Token.Apart :=
  List.isChain_cons.2 ⟨fun u hu hapart => h.2 u hu hapart.2, h.1⟩

mutual

theorem Tree.tokens_isChain : ∀ (t : Tree) {ts : List Token}, Loose ts →
    (t.tokens ++ ts).IsChain Token.Apart
  | .null, _, h | .bool _, _, h | .number _, _, h | .text _, _, h => h.behind
  | .list [], _, h => (Loose.cons id h.behind).1
  | .list (t :: rest), ts, h => by
    have hclose := (Loose.cons id h.1 : Loose (.closeList :: ts))
    have hitems := t.tokens_isChain (loose_itemsBehind rest hclose)
    simp only [Tree.tokens, List.cons_append, List.append_assoc, List.nil_append]
    exact (Loose.cons id hitems).1
  | .object [], _, h => (Loose.cons id h.behind).1
  | .object ((key, t) :: rest), ts, h => by
    have hclose := (Loose.cons id h.1 : Loose (.closeObject :: ts))
    have hmembers := t.tokens_isChain (loose_membersBehind rest hclose)
    simp only [Tree.tokens, List.cons_append, List.append_assoc, List.nil_append]
    exact (Loose.cons id (Loose.cons id (Loose.cons id hmembers).1).1).1

theorem loose_itemsBehind : ∀ (items : List Tree) {ts : List Token}, Loose ts →
    Loose (itemsBehind items ++ ts)
  | [], _, h => h
  | t :: rest, ts, h => by
    have hitems := t.tokens_isChain (loose_itemsBehind rest h)
    simp only [itemsBehind, List.cons_append, List.append_assoc]
    exact Loose.cons id hitems

theorem loose_membersBehind : ∀ (members : List (List Piece × Tree)) {ts : List Token}, Loose ts →
    Loose (membersBehind members ++ ts)
  | [], _, h => h
  | (key, t) :: rest, ts, h => by
    have hmembers := t.tokens_isChain (loose_membersBehind rest h)
    simp only [membersBehind, List.cons_append, List.append_assoc]
    exact Loose.cons id (Loose.cons id (Loose.cons id hmembers).1).1

end

/-! ## A tree is built from its tokens -/

/-- The builder after the tokens. -/
def Builder.run (b : Builder) (ts : List Token) : Option Builder :=
  ts.foldlM Builder.step b

theorem Builder.run_of_step {b b' : Builder} {t : Token} (h : b.step t = some b')
    (ts : List Token) :
    b.run (t :: ts) = b'.run ts := by
  unfold run
  rw [List.foldlM_cons, h]
  rfl

/-- Where a value goes, what was expected last plays no part. -/
theorem Builder.give_expect (e e' : Expect) (frames : List Frame) (result : Option Tree)
    (t : Tree) :
    Builder.give ⟨e, frames, result⟩ t = Builder.give ⟨e', frames, result⟩ t := by
  match frames with
  | [] => rfl
  | .list _ :: _ => rfl
  | .object _ _ :: _ => rfl

theorem Builder.step_closeList (e : Expect) (frames : List Frame) (result : Option Tree)
    (items : List Tree) :
    (⟨.moreItems, .list items :: frames, result⟩ : Builder).step .closeList
      = some (Builder.give ⟨e, frames, result⟩ (.list items.reverse)) :=
  congrArg some (give_expect ..)

theorem Builder.step_closeObject (e : Expect) (frames : List Frame) (result : Option Tree)
    (members : List (List Piece × Tree)) (key : List Piece) :
    (⟨.moreMembers, .object members key :: frames, result⟩ : Builder).step .closeObject
      = some (Builder.give ⟨e, frames, result⟩ (.object members.reverse)) :=
  congrArg some (give_expect ..)

mutual

/-- Where a value may come, a whole tree is read as one. -/
theorem Builder.run_tree : ∀ (t : Tree) {b : Builder} (ts : List Token),
    b.expect = .value ∨ b.expect = .item → b.run (t.tokens ++ ts) = (b.give t).run ts
  | .null, ⟨_, _, _⟩, ts, h | .bool _, ⟨_, _, _⟩, ts, h | .number _, ⟨_, _, _⟩, ts, h
  | .text _, ⟨_, _, _⟩, ts, h | .list [], ⟨_, _, _⟩, ts, h | .object [], ⟨_, _, _⟩, ts, h => by
    rcases h with rfl | rfl <;> rfl
  | .list (t :: rest), ⟨e, frames, result⟩, ts, h => by
    have hopen : (⟨e, frames, result⟩ : Builder).step .openList
        = some ⟨.item, .list [] :: frames, result⟩ := by
      rcases h with rfl | rfl <;> rfl
    have hclose := step_closeList e frames result (rest.reverse ++ [t])
    rw [List.reverse_append, List.reverse_reverse] at hclose
    simp only [Tree.tokens, List.cons_append, List.append_assoc, List.nil_append]
    rw [run_of_step hopen, run_tree t _ (.inr rfl)]
    exact (run_itemsBehind rest [t] frames result _).trans (run_of_step hclose ts)
  | .object ((key, t) :: rest), ⟨e, frames, result⟩, ts, h => by
    have hopen : (⟨e, frames, result⟩ : Builder).step .openObject
        = some ⟨.firstKey, .object [] [] :: frames, result⟩ := by
      rcases h with rfl | rfl <;> rfl
    have hkey : (⟨.firstKey, .object [] [] :: frames, result⟩ : Builder).step (.text key)
        = some ⟨.colon, .object [] key :: frames, result⟩ := rfl
    have hcolon : (⟨.colon, .object [] key :: frames, result⟩ : Builder).step .colon
        = some ⟨.value, .object [] key :: frames, result⟩ := rfl
    have hclose := step_closeObject e frames result (rest.reverse ++ [(key, t)]) []
    rw [List.reverse_append, List.reverse_reverse] at hclose
    simp only [Tree.tokens, List.cons_append, List.append_assoc, List.nil_append]
    rw [run_of_step hopen, run_of_step hkey, run_of_step hcolon, run_tree t _ (.inl rfl)]
    exact (run_membersBehind rest [(key, t)] frames result _).trans (run_of_step hclose ts)

theorem Builder.run_itemsBehind : ∀ (items acc : List Tree) (frames : List Frame)
    (result : Option Tree) (ts : List Token),
    (⟨.moreItems, .list acc :: frames, result⟩ : Builder).run (itemsBehind items ++ ts)
      = (⟨.moreItems, .list (items.reverse ++ acc) :: frames, result⟩ : Builder).run ts
  | [], _, _, _, _ => rfl
  | t :: rest, acc, frames, result, ts => by
    have hcomma : (⟨.moreItems, .list acc :: frames, result⟩ : Builder).step .comma
        = some ⟨.value, .list acc :: frames, result⟩ := rfl
    simp only [itemsBehind, List.cons_append, List.append_assoc]
    rw [run_of_step hcomma, run_tree t _ (.inl rfl)]
    refine (run_itemsBehind rest (t :: acc) frames result ts).trans ?_
    rw [List.reverse_cons, List.append_assoc, List.singleton_append]

theorem Builder.run_membersBehind : ∀ (members acc : List (List Piece × Tree))
    (frames : List Frame) (result : Option Tree) (ts : List Token),
    (⟨.moreMembers, .object acc [] :: frames, result⟩ : Builder).run (membersBehind members ++ ts)
      = (⟨.moreMembers, .object (members.reverse ++ acc) [] :: frames, result⟩ : Builder).run ts
  | [], _, _, _, _ => rfl
  | (key, t) :: rest, acc, frames, result, ts => by
    have hcomma : (⟨.moreMembers, .object acc [] :: frames, result⟩ : Builder).step .comma
        = some ⟨.key, .object acc [] :: frames, result⟩ := rfl
    have hkey : (⟨.key, .object acc [] :: frames, result⟩ : Builder).step (.text key)
        = some ⟨.colon, .object acc key :: frames, result⟩ := rfl
    have hcolon : (⟨.colon, .object acc key :: frames, result⟩ : Builder).step .colon
        = some ⟨.value, .object acc key :: frames, result⟩ := rfl
    simp only [membersBehind, List.cons_append, List.append_assoc]
    rw [run_of_step hcomma, run_of_step hkey, run_of_step hcolon, run_tree t _ (.inl rfl)]
    refine (run_membersBehind rest ((key, t) :: acc) frames result ts).trans ?_
    rw [List.reverse_cons, List.append_assoc, List.singleton_append]

end

/-! ## What a builder has read -/

/-- Items that others follow. The last one stands first, as in an open frame. -/
def itemsBefore (items : List Tree) : List Token :=
  items.reverse.flatMap fun t => t.tokens ++ [.comma]

def membersBefore (members : List (List Piece × Tree)) : List Token :=
  members.reverse.flatMap fun m => .text m.1 :: .colon :: (m.2.tokens ++ [.comma])

/-- What has been read of an open frame where its next value may come. -/
def Frame.tokens : Frame → List Token
  | .list items => .openList :: itemsBefore items
  | .object members key => .openObject :: (membersBefore members ++ [.text key, .colon])

def opened : List Frame → List Token
  | [] => []
  | f :: rest => opened rest ++ f.tokens

/-- The builder has read the tokens. -/
inductive Builder.HasRead : Builder → List Token → Prop
  | value (frames : List Frame) : HasRead ⟨.value, frames, none⟩ (opened frames)
  | item (frames : List Frame) :
      HasRead ⟨.item, .list [] :: frames, none⟩ (opened (.list [] :: frames))
  | moreItems (t : Tree) (items : List Tree) (frames : List Frame) :
      HasRead ⟨.moreItems, .list (t :: items) :: frames, none⟩
        (opened (.list items :: frames) ++ t.tokens)
  | firstKey (key : List Piece) (frames : List Frame) :
      HasRead ⟨.firstKey, .object [] key :: frames, none⟩ (opened frames ++ [.openObject])
  | key (members : List (List Piece × Tree)) (key : List Piece) (frames : List Frame) :
      HasRead ⟨.key, .object members key :: frames, none⟩
        (opened frames ++ .openObject :: membersBefore members)
  | colon (members : List (List Piece × Tree)) (key : List Piece) (frames : List Frame) :
      HasRead ⟨.colon, .object members key :: frames, none⟩
        (opened frames ++ .openObject :: (membersBefore members ++ [.text key]))
  | moreMembers (key : List Piece) (t : Tree) (members : List (List Piece × Tree))
      (next : List Piece) (frames : List Frame) :
      HasRead ⟨.moreMembers, .object ((key, t) :: members) next :: frames, none⟩
        (opened (.object members key :: frames) ++ t.tokens)
  | nothing (t : Tree) : HasRead ⟨.nothing, [], some t⟩ t.tokens

theorem itemsBefore_cons (t : Tree) (items : List Tree) :
    itemsBefore (t :: items) = itemsBefore items ++ (t.tokens ++ [.comma]) := by
  simp [itemsBefore]

theorem membersBefore_cons (key : List Piece) (t : Tree) (members : List (List Piece × Tree)) :
    membersBefore ((key, t) :: members)
      = membersBefore members ++ .text key :: .colon :: (t.tokens ++ [.comma]) := by
  simp [membersBefore]

theorem tokens_itemsBehind (t u : Tree) (items : List Tree) :
    t.tokens ++ itemsBehind (items ++ [u])
      = (t :: items).flatMap (fun t => t.tokens ++ [.comma]) ++ u.tokens := by
  induction items generalizing t with
  | nil => simp [itemsBehind]
  | cons v items ih =>
    have h := ih v
    simp only [List.cons_append, List.nil_append, itemsBehind, List.flatMap_cons,
      List.append_assoc] at h ⊢
    rw [h]

theorem tokens_membersBehind (t u : Tree) (key : List Piece)
    (members : List (List Piece × Tree)) (first : List Piece) :
    .text first :: .colon :: (t.tokens ++ membersBehind (members ++ [(key, u)]))
      = ((first, t) :: members).flatMap
          (fun m => .text m.1 :: .colon :: (m.2.tokens ++ [.comma]))
        ++ .text key :: .colon :: u.tokens := by
  induction members generalizing t first with
  | nil => simp [membersBehind]
  | cons m members ih =>
    have h := ih m.2 m.1
    simp only [List.cons_append, List.nil_append, membersBehind, List.flatMap_cons,
      List.append_assoc] at h ⊢
    rw [h]

/-- The tokens of a list that ends with the item. -/
theorem Tree.tokens_list (t : Tree) (items : List Tree) :
    (Tree.list (t :: items).reverse).tokens
      = (Frame.list items).tokens ++ (t.tokens ++ [.closeList]) := by
  rw [List.reverse_cons, Frame.tokens, itemsBefore]
  cases items.reverse with
  | nil => rfl
  | cons u rest =>
    have hrest := tokens_itemsBehind u t rest
    rw [List.cons_append, Tree.tokens, ← List.append_assoc, hrest, List.append_assoc]
    rfl

theorem Tree.tokens_object (key : List Piece) (t : Tree) (members : List (List Piece × Tree)) :
    (Tree.object ((key, t) :: members).reverse).tokens
      = (Frame.object members key).tokens ++ (t.tokens ++ [.closeObject]) := by
  rw [List.reverse_cons, Frame.tokens, membersBefore]
  cases members.reverse with
  | nil => rfl
  | cons m rest =>
    have hrest := congrArg (· ++ [Token.closeObject]) (tokens_membersBehind m.2 t key rest m.1)
    simp only [List.cons_append, List.append_assoc] at hrest
    simp only [List.cons_append, Tree.tokens, hrest, List.append_assoc, List.nil_append]

namespace Builder.HasRead

variable {b b' : Builder} {ts : List Token} {tok : Token}

theorem give (e : Expect) (frames : List Frame) (t : Tree) :
    (Builder.give ⟨e, frames, none⟩ t).HasRead (opened frames ++ t.tokens) := by
  match frames with
  | [] => exact .nothing t
  | .list items :: rest => exact .moreItems t items rest
  | .object members next :: rest => exact .moreMembers next t members [] rest

/-- A token where a value may start. -/
theorem start {e : Expect} {frames : List Frame}
    (h : Builder.value ⟨e, frames, none⟩ tok = some b') : b'.HasRead (opened frames ++ [tok]) := by
  cases tok with
  | null => cases h; exact give e frames .null
  | bool v => cases h; exact give e frames (.bool v)
  | number n => cases h; exact give e frames (.number n)
  | text pieces => cases h; exact give e frames (.text pieces)
  | openList => cases h; exact .item frames
  | openObject => cases h; exact .firstKey [] frames
  | closeList | closeObject | comma | colon => cases h

theorem step (h : b.HasRead ts) (hs : b.step tok = some b') : b'.HasRead (ts ++ [tok]) := by
  cases h with
  | value frames => exact start hs
  | item frames =>
    by_cases hclose : tok = .closeList
    · subst hclose
      cases hs
      simpa [opened, Frame.tokens, itemsBefore, Tree.tokens] using give .item frames (.list [])
    · have hstart : Builder.value ⟨.item, .list [] :: frames, none⟩ tok = some b' :=
        (if_neg hclose).symm.trans hs
      exact start hstart
  | moreItems t items frames =>
    cases tok with
    | comma =>
      cases hs
      simpa [opened, Frame.tokens, itemsBefore_cons] using value (.list (t :: items) :: frames)
    | closeList =>
      cases hs
      have hlist := give .moreItems frames (.list (t :: items).reverse)
      rw [Tree.tokens_list] at hlist
      simpa [opened] using hlist
    | _ => cases hs
  | firstKey next frames =>
    cases tok with
    | closeObject =>
      cases hs
      simpa [Tree.tokens] using give .firstKey frames (.object [])
    | text pieces =>
      cases hs
      simpa [membersBefore] using colon [] pieces frames
    | _ => cases hs
  | key members next frames =>
    cases tok with
    | text pieces =>
      cases hs
      simpa using colon members pieces frames
    | _ => cases hs
  | colon members next frames =>
    by_cases hcolon : tok = .colon
    · subst hcolon
      cases hs
      simpa [opened, Frame.tokens] using value (.object members next :: frames)
    · exact nomatch (if_neg hcolon).symm.trans hs
  | moreMembers key' t members next frames =>
    cases tok with
    | comma =>
      cases hs
      simpa [opened, Frame.tokens, membersBefore_cons] using
        key ((key', t) :: members) next frames
    | closeObject =>
      cases hs
      have hobject := give .moreMembers frames (.object ((key', t) :: members).reverse)
      rw [Tree.tokens_object] at hobject
      simpa [opened] using hobject
    | _ => cases hs
  | nothing t => cases hs

theorem run : ∀ {toks ts : List Token} {b b' : Builder}, b.HasRead ts →
    b.run toks = some b' → b'.HasRead (ts ++ toks)
  | [], ts, b, b', h, hs => by
    cases hs
    rwa [List.append_nil]
  | tok :: toks, ts, b, b', h, hs => by
    unfold Builder.run at hs
    rw [List.foldlM_cons] at hs
    obtain ⟨b₁, hstep, hs⟩ := Option.bind_eq_some_iff.1 hs
    have hrest := run (h.step hstep) hs
    rwa [List.append_assoc] at hrest

theorem tokens_eq {t : Tree} (h : b.HasRead ts) (hr : b.result = some t) : ts = t.tokens := by
  cases h with
  | nothing => cases hr; rfl
  | value | item | moreItems | firstKey | key | colon | moreMembers => cases hr

end Builder.HasRead

/-! ## Texts of trees -/

theorem Builder.run_tokens (t : Tree) (ts : List Token) :
    Builder.run {} (t.tokens ++ ts) = Builder.run ⟨.nothing, [], some t⟩ ts :=
  run_tree t ts (.inl rfl)

theorem Tree.tokens_apart (t : Tree) : t.tokens.IsChain Token.Apart := by
  have h := t.tokens_isChain (⟨.nil, by rintro u ⟨⟩⟩ : Loose [])
  rwa [List.append_nil] at h

/-- A text is read as the tree it is a text of. -/
theorem parse_eq_some_iff {cs : List Char} {t : Tree} : parse cs = some t ↔ t.Written cs := by
  constructor
  · intro h
    obtain ⟨ts, htokens, h⟩ := Option.bind_eq_some_iff.1 h
    obtain ⟨b, hb, hr⟩ := Option.bind_eq_some_iff.1 h
    have hread := (Builder.HasRead.value []).run hb
    rw [Tree.Written, ← hread.tokens_eq hr]
    exact lexed_of_tokens htokens
  · intro h
    have hrun := Builder.run_tokens t []
    rw [List.append_nil] at hrun
    have hbuilt : t.tokens.foldlM Builder.step {} = some ⟨.nothing, [], some t⟩ := hrun
    simp [parse, tokens_of_lexed h t.tokens_apart, hbuilt]

/-- No tree has two texts that are read differently, and no text is one of two trees. -/
theorem Tree.Written.unique {t u : Tree} {cs : List Char} (ht : t.Written cs) (hu : u.Written cs) :
    t = u := by
  have h := (parse_eq_some_iff.2 ht).symm.trans (parse_eq_some_iff.2 hu)
  exact Option.some.inj h

theorem tokens_object_snoc (members : List (List Piece × Tree)) :
    ∃ front, (Tree.object members).tokens = front ++ [.closeObject] := by
  match members with
  | [] => exact ⟨[.openObject], rfl⟩
  | (key, t) :: rest =>
    refine ⟨.openObject :: .text key :: .colon :: (t.tokens ++ membersBehind rest), ?_⟩
    simp only [Tree.tokens, List.cons_append, List.append_assoc]

theorem Lexed.blank {cs : List Char} (h : Lexed [] cs) : Blank cs := by
  obtain ⟨_, blanks, ⟨⟩, hb, rfl⟩ := h
  exact hb

/-- Behind the text of an object nothing but blanks may stand. -/
theorem parse_trailing {members : List (List Piece × Tree)} {cs rest : List Char}
    (h : (Tree.object members).Written cs) (hrest : ¬ Blank rest) : parse (cs ++ rest) = none := by
  obtain ⟨front, blanks, hfront, hb, rfl⟩ := h
  have hlast : Finishes (Tree.object members).tokens (blanks ++ rest) := by
    intro n hn
    obtain ⟨front, hts⟩ := tokens_object_snoc members
    rw [hts, List.getLast?_concat] at hn
    cases hn
  have htokens : tokens (front ++ blanks ++ rest)
      = (⟨.between, (Tree.object members).tokens.reverse⟩ : Lexer).tokensFrom rest := by
    rw [List.append_assoc, ← Lexer.tokensFrom_blank hb, ← List.append_nil (List.reverse _)]
    exact Lexer.tokensFrom_joined hfront (Tree.tokens_apart _) hlast []
  unfold parse
  rw [htokens]
  cases hfrom : (⟨.between, (Tree.object members).tokens.reverse⟩ : Lexer).tokensFrom rest with
  | none => rfl
  | some ts =>
    obtain ⟨read, rfl, hread⟩ := lexed_of_tokensFrom hfrom
    cases read with
    | nil => exact absurd hread.blank hrest
    | cons r read =>
      have hrun : ((Tree.object members).tokens ++ r :: read).foldlM Builder.step {} = none :=
        Builder.run_tokens (.object members) (r :: read)
      simp [hrun]

end HttpDns.Json
