/-!
# JSON tokens

The text is read one character at a time by a machine that is between tokens, inside a literal
name, inside a string or inside a number. Strings and numbers are kept as they are written: a
string as characters and escaped 16-bit units, a number as its digits. Whether the units pair up
and whether the number is in range is for those to decide who use them.
-/

namespace HttpDns.Json

/-- A piece of a string: a character, or a 16-bit unit written as an escape. -/
inductive Piece
  | char (c : Char)
  | unit (n : Nat)
  deriving DecidableEq, Repr

/-- A number as it is written. -/
structure Numeral where
  negative : Bool := false
  whole : List Char := []
  fraction : Option (List Char) := none
  /-- whether the exponent is negative, and its digits -/
  exponent : Option (Bool × List Char) := none
  deriving DecidableEq, Repr

inductive Token
  | openList
  | closeList
  | openObject
  | closeObject
  | comma
  | colon
  | null
  | bool (b : Bool)
  | number (n : Numeral)
  | text (pieces : List Piece)
  deriving DecidableEq, Repr

/-- How far a number has been read. -/
inductive NumberPhase
  /-- after the sign -/
  | sign
  /-- after a leading zero -/
  | zero
  | whole
  | point
  | fraction
  | mark
  | markSign
  | exponent
  deriving DecidableEq, Repr

/-- What the machine is reading. Pieces of a string are kept last first. -/
inductive Mode
  | between
  | name (left : List Char) (token : Token)
  | string (pieces : List Piece)
  | escape (pieces : List Piece)
  | hex (pieces : List Piece) (left : Nat) (value : Nat)
  | number (phase : NumberPhase) (n : Numeral)
  deriving DecidableEq, Repr

/-- The machine, with the tokens read so far, the last one first. -/
structure Lexer where
  mode : Mode := .between
  done : List Token := []
  deriving DecidableEq, Repr

def isDigit (c : Char) : Bool :=
  '0' ≤ c && c ≤ '9'

def hexValue (c : Char) : Option Nat :=
  if '0' ≤ c && c ≤ '9' then some (c.toNat - 0x30)
  else if 'A' ≤ c && c ≤ 'F' then some (c.toNat - 0x37)
  else if 'a' ≤ c && c ≤ 'f' then some (c.toNat - 0x57)
  else none

/-- The characters that may stand between tokens. -/
def isSpace (c : Char) : Bool :=
  c = ' ' || c = '\n' || c = '\t' || c = '\r'

/-- The character a one-letter escape stands for. -/
def escaped : Char → Option Char
  | '"' => some '"'
  | '\\' => some '\\'
  | '/' => some '/'
  | 'b' => some '\x08'
  | 'f' => some '\x0c'
  | 'n' => some '\n'
  | 'r' => some '\r'
  | 't' => some '\t'
  | _ => none

def Numeral.addWhole (n : Numeral) (c : Char) : Numeral :=
  { n with whole := n.whole ++ [c] }

def Numeral.addFraction (n : Numeral) (c : Char) : Numeral :=
  { n with fraction := some (n.fraction.getD [] ++ [c]) }

def Numeral.addExponent (n : Numeral) (c : Char) : Numeral :=
  match n.exponent with
  | none => { n with exponent := some (false, [c]) }
  | some (negative, ds) => { n with exponent := some (negative, ds ++ [c]) }

/-- The number after one more character, if it can go on with it. -/
def NumberPhase.extend (phase : NumberPhase) (n : Numeral) (c : Char) :
    Option (NumberPhase × Numeral) :=
  match phase with
  | .sign =>
    if c = '0' then some (.zero, n.addWhole c)
    else if isDigit c then some (.whole, n.addWhole c)
    else none
  | .zero =>
    if c = '.' then some (.point, n) else if c = 'e' || c = 'E' then some (.mark, n) else none
  | .whole =>
    if isDigit c then some (.whole, n.addWhole c)
    else if c = '.' then some (.point, n)
    else if c = 'e' || c = 'E' then some (.mark, n)
    else none
  | .point | .fraction =>
    if isDigit c then some (.fraction, n.addFraction c)
    else if phase = .fraction && (c = 'e' || c = 'E') then some (.mark, n)
    else none
  | .mark =>
    if c = '-' then some (.markSign, { n with exponent := some (true, []) })
    else if c = '+' then some (.markSign, n)
    else if isDigit c then some (.exponent, n.addExponent c)
    else none
  | .markSign | .exponent =>
    if isDigit c then some (.exponent, n.addExponent c) else none

/-- The number may end here. -/
def NumberPhase.complete : NumberPhase → Bool
  | .zero | .whole | .fraction | .exponent => true
  | .sign | .point | .mark | .markSign => false

def Lexer.emit (l : Lexer) (t : Token) : Lexer :=
  { mode := .between, done := t :: l.done }

/-- A character between two tokens. -/
def Lexer.start (l : Lexer) (c : Char) : Option Lexer :=
  if isSpace c then some { l with mode := .between }
  else
    match c with
    | '[' => some (l.emit .openList)
    | ']' => some (l.emit .closeList)
    | '\x7b' => some (l.emit .openObject)
    | '\x7d' => some (l.emit .closeObject)
    | ',' => some (l.emit .comma)
    | ':' => some (l.emit .colon)
    | '"' => some { l with mode := .string [] }
    | 'n' => some { l with mode := .name ['u', 'l', 'l'] .null }
    | 't' => some { l with mode := .name ['r', 'u', 'e'] (.bool true) }
    | 'f' => some { l with mode := .name ['a', 'l', 's', 'e'] (.bool false) }
    | '-' => some { l with mode := .number .sign { negative := true } }
    | '0' => some { l with mode := .number .zero { whole := ['0'] } }
    | _ => if isDigit c then some { l with mode := .number .whole { whole := [c] } } else none

/-- One character. -/
def Lexer.step (l : Lexer) (c : Char) : Option Lexer :=
  match l.mode with
  | .between => l.start c
  | .name [] _ => none
  | .name [d] token => if c = d then some (l.emit token) else none
  | .name (d :: left) token => if c = d then some { l with mode := .name left token } else none
  | .string pieces =>
    if c = '"' then some (l.emit (.text pieces.reverse))
    else if c = '\\' then some { l with mode := .escape pieces }
    else if c.toNat < 0x20 then none
    else some { l with mode := .string (.char c :: pieces) }
  | .escape pieces =>
    if c = 'u' then some { l with mode := .hex pieces 4 0 }
    else (escaped c).map fun d => { l with mode := .string (.char d :: pieces) }
  | .hex pieces left value =>
    (hexValue c).map fun d =>
      let value := 16 * value + d
      if left ≤ 1 then { l with mode := .string (.unit value :: pieces) }
      else { l with mode := .hex pieces (left - 1) value }
  | .number phase n =>
    match phase.extend n c with
    | some (phase, n) => some { l with mode := .number phase n }
    | none => if phase.complete then (l.emit (.number n)).start c else none

/-- The tokens, if the text ends after one. -/
def Lexer.finish (l : Lexer) : Option (List Token) :=
  match l.mode with
  | .between => some l.done.reverse
  | .number phase n => if phase.complete then some (l.emit (.number n)).done.reverse else none
  | .name .. | .string _ | .escape _ | .hex .. => none

/-- The tokens of a text. -/
def tokens (cs : List Char) : Option (List Token) :=
  (cs.foldlM Lexer.step {}).bind Lexer.finish

end HttpDns.Json
