/-!
# TOML tokens

The text is read one character at a time by a machine that is between tokens, inside a bare word,
inside a comment or inside a string. Strings are decoded on the way: escapes are resolved, and a
line break right after the opening quotes is dropped; any other line break inside a string over
several lines stays as it is written. Blanks are kept as tokens because they matter in a few
places; comments leave nothing behind.
-/

namespace HttpDns.Toml

inductive Token
  | newline
  | blank (c : Char)
  | dot
  | equals
  | comma
  | openList
  | closeList
  | openInline
  | closeInline
  /-- a run of characters that have no meaning of their own -/
  | word (cs : List Char)
  /-- a string on one line -/
  | text (cs : List Char)
  /-- a string between three quotes on either side -/
  | passage (cs : List Char)
  deriving DecidableEq, Repr

/-- Where the machine stands in a string over several lines. -/
inductive Edge
  /-- right after the opening quotes -/
  | start
  /-- after a carriage return there -/
  | startReturn
  | body
  | bodyReturn
  /-- after this many quotes that may close the string -/
  | quotes (n : Nat)
  deriving DecidableEq, Repr

/-- What the machine is reading. Characters of a word or string are kept last first. -/
inductive Mode
  | between
  /-- after a carriage return -/
  | carriage
  | comment
  | word (cs : List Char)
  /-- after one opening quote, or two -/
  | opening (quote : Char) (two : Bool)
  | text (quote : Char) (cs : List Char)
  | passage (quote : Char) (cs : List Char) (edge : Edge)
  /-- after a backslash; `long` in a string over several lines -/
  | escape (long : Bool) (cs : List Char)
  | hex (long : Bool) (cs : List Char) (left value : Nat)
  /-- after a backslash at the end of a line: whether the line has ended -/
  | fold (cs : List Char) (ended : Bool)
  /-- the same, after a carriage return -/
  | foldReturn (cs : List Char)
  deriving DecidableEq, Repr

/-- The machine, with the tokens read so far, the last one first. -/
structure Lexer where
  mode : Mode := .between
  done : List Token := []
  deriving DecidableEq, Repr

def isBlank (c : Char) : Bool :=
  c = ' ' || c = '\t'

/-- The character may stand in a comment or a string as it is; a line break is none of these. -/
def isPlain (c : Char) : Bool :=
  c = '\t' || (0x20 ≤ c.toNat && c.toNat ≠ 0x7F)

/-- The token that is a single character. -/
def mark : Char → Option Token
  | '\n' => some .newline
  | ' ' => some (.blank ' ')
  | '\t' => some (.blank '\t')
  | '.' => some .dot
  | '=' => some .equals
  | ',' => some .comma
  | '[' => some .openList
  | ']' => some .closeList
  | '\x7b' => some .openInline
  | '\x7d' => some .closeInline
  | _ => none

/-- The character a one-letter escape stands for. -/
def escaped : Char → Option Char
  | 'b' => some '\x08'
  | 't' => some '\t'
  | 'n' => some '\n'
  | 'f' => some '\x0c'
  | 'r' => some '\r'
  | 'e' => some '\x1b'
  | '"' => some '"'
  | '\\' => some '\\'
  | _ => none

/-- How many hexadecimal digits follow an escape letter. -/
def hexDigits : Char → Option Nat
  | 'x' => some 2
  | 'u' => some 4
  | 'U' => some 8
  | _ => none

def hexValue (c : Char) : Option Nat :=
  if '0' ≤ c && c ≤ '9' then some (c.toNat - 0x30)
  else if 'A' ≤ c && c ≤ 'F' then some (c.toNat - 0x37)
  else if 'a' ≤ c && c ≤ 'f' then some (c.toNat - 0x57)
  else none

/-- The character with a number, if one has it. -/
def charOf (n : Nat) : Option Char :=
  if n < 0xD800 || (0xE000 ≤ n && n < 0x110000) then some (Char.ofNat n) else none

namespace Lexer

def emit (l : Lexer) (t : Token) : Lexer :=
  { mode := .between, done := t :: l.done }

def enter (l : Lexer) (m : Mode) : Lexer :=
  { l with mode := m }

/-- A character between two tokens. -/
def start (l : Lexer) (c : Char) : Lexer :=
  match mark c with
  | some t => l.emit t
  | none =>
    if c = '\r' then l.enter .carriage
    else if c = '#' then l.enter .comment
    else if c = '"' || c = '\'' then l.enter (.opening c false)
    else l.enter (.word [c])

/-- The character goes on a bare word. A quote does, although no word begins with one. -/
def isWordChar (c : Char) : Bool :=
  (mark c).isNone && c ≠ '\r' && c ≠ '#'

/-- A string goes on, over several lines if `long`. -/
def resume (long : Bool) (cs : List Char) : Mode :=
  if long then .passage '"' cs .body else .text '"' cs

/-- A character of a string on one line. -/
def text (l : Lexer) (quote : Char) (cs : List Char) (c : Char) : Option Lexer :=
  if c = quote then some (l.emit (.text cs.reverse))
  else if c = '\\' && quote = '"' then some (l.enter (.escape false cs))
  else if isPlain c then some (l.enter (.text quote (c :: cs)))
  else none

/-- A character in the body of a string over several lines. -/
def body (l : Lexer) (quote : Char) (cs : List Char) (c : Char) : Option Lexer :=
  if c = quote then some (l.enter (.passage quote cs (.quotes 1)))
  else if c = '\\' && quote = '"' then some (l.enter (.escape true cs))
  else if c = '\r' then some (l.enter (.passage quote cs .bodyReturn))
  else if c = '\n' || isPlain c then some (l.enter (.passage quote (c :: cs) .body))
  else none

/-- The string that ends with `n` quotes, three of which close it. -/
def closed (quote : Char) (cs : List Char) (n : Nat) : Token :=
  .passage (cs.reverse ++ List.replicate (n - 3) quote)

/-- A character of a string over several lines. -/
def passage (l : Lexer) (quote : Char) (cs : List Char) (edge : Edge) (c : Char) :
    Option Lexer :=
  match edge with
  | .start =>
    if c = '\n' then some (l.enter (.passage quote cs .body))
    else if c = '\r' then some (l.enter (.passage quote cs .startReturn))
    else l.body quote cs c
  | .startReturn => if c = '\n' then some (l.enter (.passage quote cs .body)) else none
  | .body => l.body quote cs c
  | .bodyReturn =>
    if c = '\n' then some (l.enter (.passage quote (c :: '\r' :: cs) .body)) else none
  | .quotes n =>
    if c = quote && n < 5 then some (l.enter (.passage quote cs (.quotes (n + 1))))
    else if 3 ≤ n then some ((l.emit (closed quote cs n)).start c)
    else l.body quote (List.replicate n quote ++ cs) c

/-- The character after a backslash. -/
def escape (l : Lexer) (long : Bool) (cs : List Char) (c : Char) : Option Lexer :=
  match escaped c, hexDigits c with
  | some d, _ => some (l.enter (resume long (d :: cs)))
  | none, some n => some (l.enter (.hex long cs n 0))
  | none, none =>
    if long && isBlank c then some (l.enter (.fold cs false))
    else if long && c = '\n' then some (l.enter (.fold cs true))
    else if long && c = '\r' then some (l.enter (.foldReturn cs))
    else none

/-- A hexadecimal digit of an escape. -/
def hex (l : Lexer) (long : Bool) (cs : List Char) (left value : Nat) (c : Char) :
    Option Lexer := do
  let d ← hexValue c
  let value := 16 * value + d
  if 1 < left then pure (l.enter (.hex long cs (left - 1) value))
  else do
    let decoded ← charOf value
    pure (l.enter (resume long (decoded :: cs)))

/-- A character after a backslash at the end of a line. -/
def fold (l : Lexer) (cs : List Char) (ended : Bool) (c : Char) : Option Lexer :=
  if isBlank c then some (l.enter (.fold cs ended))
  else if c = '\n' then some (l.enter (.fold cs true))
  else if c = '\r' then some (l.enter (.foldReturn cs))
  else if ended then l.body '"' cs c
  else none

/-- One character. -/
def step (l : Lexer) (c : Char) : Option Lexer :=
  match l.mode with
  | .between => some (l.start c)
  | .carriage => if c = '\n' then some (l.emit .newline) else none
  | .comment =>
    if c = '\n' then some (l.emit .newline)
    else if c = '\r' then some (l.enter .carriage)
    else if isPlain c then some l
    else none
  | .word cs =>
    if isWordChar c then some (l.enter (.word (c :: cs)))
    else some ((l.emit (.word cs.reverse)).start c)
  | .opening quote false =>
    if c = quote then some (l.enter (.opening quote true)) else l.text quote [] c
  | .opening quote true =>
    if c = quote then some (l.enter (.passage quote [] .start))
    else some ((l.emit (.text [])).start c)
  | .text quote cs => l.text quote cs c
  | .passage quote cs edge => l.passage quote cs edge c
  | .escape long cs => l.escape long cs c
  | .hex long cs left value => l.hex long cs left value c
  | .fold cs ended => l.fold cs ended c
  | .foldReturn cs => if c = '\n' then some (l.enter (.fold cs true)) else none

/-- The tokens, if the text may end here. -/
def finish (l : Lexer) : Option (List Token) :=
  match l.mode with
  | .between | .comment => some l.done.reverse
  | .word cs => some (l.emit (.word cs.reverse)).done.reverse
  | .opening _ true => some (l.emit (.text [])).done.reverse
  | .passage quote cs (.quotes n) =>
    if 3 ≤ n then some (l.emit (closed quote cs n)).done.reverse else none
  | .passage .. | .carriage | .opening _ false | .text .. | .escape .. | .hex .. | .fold ..
  | .foldReturn _ => none

end Lexer

/-- The tokens of a text. -/
def tokens (cs : List Char) : Option (List Token) :=
  (cs.foldlM Lexer.step {}).bind Lexer.finish

end HttpDns.Toml
