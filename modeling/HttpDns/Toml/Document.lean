import HttpDns.Toml.Table
import HttpDns.Toml.Token

/-!
# TOML documents

The tokens of a text are put together by a machine that holds the document so far, the path of the
table that is open, and the lists and inline tables that are still being written. A statement ends
with its line. Line breaks are free inside lists, and inside inline tables everywhere but between
the parts of a key.
-/

namespace HttpDns.Toml

/-- Something that waits for a value, or for the next one. -/
inductive Frame
  /-- an assignment on a line of its own -/
  | line (path : List String) (key : String)
  /-- a list with its items so far, the last one first -/
  | list (items : List Value)
  /-- an inline table with its entries so far and the key of the next one -/
  | inline (entries : Entries) (path : List String) (key : String)

/-- Whose key is being read. -/
inductive Owner
  | line
  | inline
  /-- a header, doubled or not -/
  | header (doubled : Bool)
  deriving DecidableEq, Repr

/-- What may come next. -/
inductive Place
  /-- a statement or the end of the line -/
  | line
  /-- the end of the line -/
  | tail
  /-- after the bracket that opens a header -/
  | bracket
  /-- after the first of the two brackets that close a doubled header -/
  | closing
  /-- a part of a key, if `wanted`, or else what follows one; the last part read first -/
  | key (owner : Owner) (parts : List String) (wanted : Bool)
  /-- the equals sign, on a later line than the key of a member -/
  | sign (parts : List String)
  | value
  /-- a bare word and the blanks behind it, after which it may go on; both last character first -/
  | word (cs blanks : List Char)
  /-- an item, or the end of the list -/
  | item
  /-- a comma, or the end of the list -/
  | moreItems
  /-- a member, or the end of the inline table -/
  | member
  /-- a comma, or the end of the inline table -/
  | moreMembers
  deriving DecidableEq, Repr

structure Reader where
  entries : Entries := []
  /-- the path of the open table -/
  here : List String := []
  place : Place := .line
  frames : List Frame := []

/-- How deep lists and inline tables may be nested, and how many parts a key may have. -/
def maxDepth : Nat := 80

/-- The character may stand in a bare key. -/
def isKeyChar (c : Char) : Bool :=
  c.isAlphanum || c = '-' || c = '_'

/-- The key a token spells. -/
def Token.key? : Token → Option String
  | .word cs => if cs.all isKeyChar then some (String.ofList cs) else none
  | .text cs => some (String.ofList cs)
  | _ => none

namespace Reader

/-- A complete value goes to the innermost frame. -/
def give (r : Reader) (v : Value) : Option Reader :=
  match r.frames with
  | [] => none
  | .line path key :: rest => do
    let entries ← within (assign path key v) r.here r.entries
    pure { r with entries, place := .tail, frames := rest }
  | .list items :: rest =>
    some { r with place := .moreItems, frames := .list (v :: items) :: rest }
  | .inline entries path key :: rest => do
    let entries ← assign path key v entries
    pure { r with place := .moreMembers, frames := .inline entries [] "" :: rest }

def push (r : Reader) (f : Frame) (p : Place) : Option Reader :=
  if r.frames.length ≤ maxDepth then some { r with place := p, frames := f :: r.frames } else none

/-- A token where a value may start. -/
def value (r : Reader) : Token → Option Reader
  | .text cs | .passage cs => r.give (.text (String.ofList cs))
  | .word cs => some { r with place := .word cs.reverse [] }
  | .openList => r.push (.list []) .item
  | .openInline => r.push (.inline [] [] "") .member
  | _ => none

def closeList (r : Reader) : Option Reader :=
  match r.frames with
  | .list items :: rest => { r with frames := rest }.give (.list items.reverse)
  | _ => none

def closeInline (r : Reader) : Option Reader :=
  match r.frames with
  | .inline entries _ _ :: rest => { r with frames := rest }.give (.table .inline entries)
  | _ => none

/-- A part of a key, which dots may follow. -/
def keyPart (r : Reader) (owner : Owner) (parts : List String) (t : Token) : Option Reader :=
  if parts.length < maxDepth then
    t.key?.map fun k => { r with place := .key owner (k :: parts) false }
  else none

/-- Opens the table of a header. -/
def openHeader (r : Reader) (doubled : Bool) : List String → Option Reader
  | [] => none
  | key :: path => do
    let path := path.reverse
    let entries ← within (if doubled then openNext key else openTable key) path r.entries
    pure { r with entries, here := path ++ [key], place := if doubled then .closing else .tail }

/-- The key is complete and its value comes next. -/
def assigned (r : Reader) (owner : Owner) : List String → Option Reader
  | [] => none
  | key :: path =>
    match owner, r.frames with
    | .line, frames =>
      some { r with place := .value, frames := .line path.reverse key :: frames }
    | .inline, .inline entries _ _ :: rest =>
      some { r with place := .value, frames := .inline entries path.reverse key :: rest }
    | _, _ => none

/-- A token after a part of a key. -/
def keyEnd (r : Reader) (owner : Owner) (parts : List String) : Token → Option Reader
  | .blank _ => some r
  | .newline => if owner = .inline then some { r with place := .sign parts } else none
  | .dot => some { r with place := .key owner parts true }
  | .equals => r.assigned owner parts
  | .closeList =>
    match owner with
    | .header doubled => r.openHeader doubled parts
    | .line | .inline => none
  | _ => none

/-- A token that does not go on a bare word. -/
def settled (r : Reader) (t : Token) : Option Reader :=
  match r.place, t with
  | .tail, .blank _ => some r
  | .tail, .newline => some { r with place := .line }
  | .moreItems, .blank _ | .moreItems, .newline => some r
  | .moreItems, .comma => some { r with place := .item }
  | .moreItems, .closeList => r.closeList
  | .moreMembers, .blank _ | .moreMembers, .newline => some r
  | .moreMembers, .comma => some { r with place := .member }
  | .moreMembers, .closeInline => r.closeInline
  | _, _ => none

/-- The bare word is complete. -/
def giveWord (r : Reader) (cs : List Char) : Option Reader := do
  let s ← Scalar.ofWord? cs
  r.give (.scalar s)

/-- The value that comes next belongs to an inline table. -/
def inInline (r : Reader) : Bool :=
  match r.frames with
  | .inline .. :: _ => true
  | _ => false

/-- One token. -/
def step (r : Reader) (t : Token) : Option Reader :=
  match r.place with
  | .line =>
    match t with
    | .blank _ | .newline => some r
    | .openList => some { r with place := .bracket }
    | t => r.keyPart .line [] t
  | .bracket =>
    match t with
    | .openList => some { r with place := .key (.header true) [] true }
    | .blank _ => some { r with place := .key (.header false) [] true }
    | t => r.keyPart (.header false) [] t
  | .closing => if t = .closeList then some { r with place := .tail } else none
  | .key owner parts true =>
    match t with
    | .blank _ => some r
    | t => r.keyPart owner parts t
  | .key owner parts false => r.keyEnd owner parts t
  | .sign parts =>
    match t with
    | .blank _ | .newline => some r
    | .equals => r.assigned .inline parts
    | _ => none
  | .value =>
    match t with
    | .blank _ => some r
    | .newline => if r.inInline then some r else none
    | t => r.value t
  | .word cs blanks =>
    match t with
    | .word more => some { r with place := .word (more.reverse ++ (blanks ++ cs)) [] }
    | .dot => some { r with place := .word ('.' :: (blanks ++ cs)) [] }
    | .blank c => some { r with place := .word cs (c :: blanks) }
    | t => (r.giveWord cs.reverse).bind fun r => r.settled t
  | .item =>
    match t with
    | .blank _ | .newline => some r
    | .closeList => r.closeList
    | t => r.value t
  | .member =>
    match t with
    | .blank _ | .newline => some r
    | .closeInline => r.closeInline
    | t => r.keyPart .inline [] t
  | .tail | .moreItems | .moreMembers => r.settled t

/-- The document, if the text may end here. -/
def finish (r : Reader) : Option Entries :=
  match r.place with
  | .line | .tail => some r.entries
  | .word cs _ =>
    (r.giveWord cs.reverse).bind fun r => if r.place = .tail then some r.entries else none
  | _ => none

end Reader

/-- The text without a byte order mark at its start. -/
def dropMark : List Char → List Char
  | '\uFEFF' :: cs => cs
  | cs => cs

/-- The entries of a document. -/
def parse (cs : List Char) : Option Entries := do
  let ts ← tokens (dropMark cs)
  let r ← ts.foldlM Reader.step {}
  r.finish

end HttpDns.Toml
