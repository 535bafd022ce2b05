import HttpDns.Json.Token

/-!
# JSON trees

The tokens of a text are put together by a machine that holds the lists and objects still open.
The grammar is the strict one: one value, no comma at an end, keys are strings. Nesting is not
limited here.
-/

namespace HttpDns.Json

/-- A value as it is written, members in their order and repeated ones included. -/
inductive Tree
  | null
  | bool (b : Bool)
  | number (n : Numeral)
  | text (pieces : List Piece)
  | list (items : List Tree)
  | object (members : List (List Piece × Tree))
  deriving Repr

/-- A list or object that is still open, its parts last first. -/
inductive Frame
  | list (items : List Tree)
  | object (members : List (List Piece × Tree)) (key : List Piece)

/-- What may come next. -/
inductive Expect
  | value
  /-- a value or the end of the list just opened -/
  | item
  /-- the end of the list, or a comma -/
  | moreItems
  /-- a key or the end of the object just opened -/
  | firstKey
  | key
  | colon
  /-- the end of the object, or a comma -/
  | moreMembers
  | nothing
  deriving DecidableEq, Repr

/-- The machine: the innermost open frame first, and the value once it is complete. For an object
whose next key has not come yet the key is empty. -/
structure Builder where
  expect : Expect := .value
  open? : List Frame := []
  result : Option Tree := none

/-- A complete value goes into the innermost open frame. -/
def Builder.give (b : Builder) (t : Tree) : Builder :=
  match b.open? with
  | [] => { b with expect := .nothing, result := some t }
  | .list items :: rest => { b with expect := .moreItems, open? := .list (t :: items) :: rest }
  | .object members key :: rest =>
    { b with expect := .moreMembers, open? := .object ((key, t) :: members) [] :: rest }

def Builder.closeList (b : Builder) : Option Builder :=
  match b.open? with
  | .list items :: rest => some ({ b with open? := rest }.give (.list items.reverse))
  | _ => none

def Builder.closeObject (b : Builder) : Option Builder :=
  match b.open? with
  | .object members _ :: rest => some ({ b with open? := rest }.give (.object members.reverse))
  | _ => none

/-- A token where a value may start. -/
def Builder.value (b : Builder) : Token → Option Builder
  | .null => some (b.give .null)
  | .bool v => some (b.give (.bool v))
  | .number n => some (b.give (.number n))
  | .text pieces => some (b.give (.text pieces))
  | .openList => some { b with expect := .item, open? := .list [] :: b.open? }
  | .openObject => some { b with expect := .firstKey, open? := .object [] [] :: b.open? }
  | .closeList | .closeObject | .comma | .colon => none

def Builder.key (b : Builder) (pieces : List Piece) : Option Builder :=
  match b.open? with
  | .object members _ :: rest =>
    some { b with expect := .colon, open? := .object members pieces :: rest }
  | _ => none

/-- One token. -/
def Builder.step (b : Builder) (t : Token) : Option Builder :=
  match b.expect with
  | .value => b.value t
  | .item => if t = .closeList then b.closeList else b.value t
  | .moreItems =>
    match t with
    | .comma => some { b with expect := .value }
    | .closeList => b.closeList
    | _ => none
  | .firstKey =>
    match t with
    | .closeObject => b.closeObject
    | .text pieces => b.key pieces
    | _ => none
  | .key =>
    match t with
    | .text pieces => b.key pieces
    | _ => none
  | .colon => if t = .colon then some { b with expect := .value } else none
  | .moreMembers =>
    match t with
    | .comma => some { b with expect := .key }
    | .closeObject => b.closeObject
    | _ => none
  | .nothing => none

/-- The tree of a text. -/
def parse (cs : List Char) : Option Tree := do
  let ts ← tokens cs
  let b ← ts.foldlM Builder.step {}
  b.result

end HttpDns.Json
