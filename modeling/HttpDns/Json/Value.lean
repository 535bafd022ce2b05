import HttpDns.Json.Tree
import HttpDns.Number.Decimal

/-!
# JSON values

A tree becomes a value when its strings are text, its numbers are in range and its nesting is
within a limit. Numbers without point and exponent that fit 64 bits stay whole; any other is read
with at most twenty significant digits into a double-precision number. Objects hold each key once,
in ascending order, with the last value given for it. A value is written without spaces.
-/

namespace HttpDns.Json

/-! ## Strings -/

/-- The characters of a string; units of a surrogate pair have to follow each other. -/
def readPieces : List Piece → Option (List Char)
  | [] => some []
  | .char c :: rest => (readPieces rest).map (c :: ·)
  | .unit n :: rest =>
    if n < 0xD800 || 0xE000 ≤ n then (readPieces rest).map (Char.ofNat n :: ·)
    else
      match rest with
      | .unit m :: rest =>
        if n < 0xDC00 && 0xDC00 ≤ m && m < 0xE000 then
          (readPieces rest).map
            (Char.ofNat (0x10000 + (n - 0xD800) * 0x400 + (m - 0xDC00)) :: ·)
        else none
      | _ => none

def readText (pieces : List Piece) : Option String :=
  (readPieces pieces).map String.ofList

/-! ## Numbers -/

inductive Number
  | whole (n : Int)
  | real (negative : Bool) (magnitude : Number.Binary64)
  deriving DecidableEq, Repr

/-- The greatest number of 64 bits. -/
def maxWord : Nat := UInt64.size - 1

/-- The greatest exponent that is told apart from greater ones. -/
def maxExponent : Nat := Nat.pow 2 31 - 1

def digitsValue (ds : List Char) : Nat :=
  ds.foldl (fun n c => 10 * n + (c.toNat - 0x30)) 0

/-- The number with digits appended as long as it fits 64 bits, and how many did not fit. -/
def appendDigits (n : Nat) : List Char → Nat × Nat
  | [] => (n, 0)
  | c :: rest =>
    let m := 10 * n + (c.toNat - 0x30)
    if m ≤ maxWord then appendDigits m rest else (n, rest.length + 1)

/-- The significand times a power of ten: one rounding for the significand, one for the power and
one for each product or quotient, in steps of at most `10 ^ 308`. -/
def scale : (fuel : Nat) → Number.Binary64 → Int → Option Number.Binary64
  | 0, x, _ => some x
  | fuel + 1, x, e =>
    if e.natAbs ≤ 308 then do
      let power ← Number.Binary64.ofNat (Nat.pow 10 e.natAbs)
      if 0 ≤ e then x.mul power else x.div power
    else if x.mantissa = 0 then some x
    else if 0 ≤ e then none
    else do
      let power ← Number.Binary64.ofNat (Nat.pow 10 308)
      let x ← x.div power
      scale fuel x (e + 308)

/-- The magnitude of a number with a fraction, an exponent or too many digits. -/
def Numeral.magnitude (n : Numeral) : Option Number.Binary64 := do
  let (head, lost) := appendDigits 0 n.whole
  let fraction := n.fraction.getD []
  let (significand, cut) := appendDigits head fraction
  let shift : Int := (lost : Int) - ((fraction.length - cut : Nat) : Int)
  let (negative, ds) := n.exponent.getD (false, [])
  let size := digitsValue ds
  if maxExponent < size then
    if significand ≠ 0 ∧ ¬ negative then none else some .zero
  else do
    let wanted : Int := if negative then shift - size else shift + size
    let e := max (-(maxExponent : Int) - 1) (min (maxExponent : Int) wanted)
    let x ← Number.Binary64.ofNat significand
    scale (e.natAbs + 1) x e

/-- The number that is written, if it is in range. -/
def Numeral.read (n : Numeral) : Option Number :=
  let (head, lost) := appendDigits 0 n.whole
  if lost = 0 ∧ n.fraction = none ∧ n.exponent = none then
    if ¬ n.negative then some (.whole head)
    else if 0 < head ∧ head ≤ Nat.pow 2 63 then some (.whole (-(head : Int)))
    else n.magnitude.map (.real true)
  else n.magnitude.map (.real n.negative)

/-- Real numbers are written without an exponent between `1e-5` and `1e15`. -/
def numberStyle : Number.DecimalStyle := ⟨-5, 15⟩

def Number.write : Number → List Char
  | .whole n => (toString n).toList
  | .real negative x => (if negative then ['-'] else []) ++ numberStyle.write x.shortest

/-! ## Values -/

inductive Value
  | null
  | bool (b : Bool)
  | number (n : Number)
  | text (s : String)
  | list (items : List Value)
  | object (members : List (String × Value))
  deriving Repr

/-- The members in key order with this one among them; one of the same key is replaced. -/
def insertMember (key : String) (v : Value) : List (String × Value) → List (String × Value)
  | [] => [(key, v)]
  | (k, w) :: rest =>
    if key < k then (key, v) :: (k, w) :: rest
    else if key = k then (key, v) :: rest
    else (k, w) :: insertMember key v rest

mutual

/-- The value of a tree whose lists and objects are nested at most `depth` deep. -/
def Tree.value : (depth : Nat) → Tree → Option Value
  | _, .null => some .null
  | _, .bool b => some (.bool b)
  | _, .number n => n.read.map .number
  | _, .text pieces => (readText pieces).map .text
  | 0, .list _ => none
  | depth + 1, .list items => (itemValues depth items).map .list
  | 0, .object _ => none
  | depth + 1, .object members => (memberValues depth members []).map .object

def itemValues : (depth : Nat) → List Tree → Option (List Value)
  | _, [] => some []
  | depth, t :: rest => do
    let v ← t.value depth
    let vs ← itemValues depth rest
    pure (v :: vs)

/-- The members given so far with those of the list. -/
def memberValues : (depth : Nat) → List (List Piece × Tree) → List (String × Value) →
    Option (List (String × Value))
  | _, [], given => some given
  | depth, (key, t) :: rest, given => do
    let key ← readText key
    let v ← t.value depth
    memberValues depth rest (insertMember key v given)

end

/-! ## Writing -/

/-- The hexadecimal digit of a number below sixteen, in lower case. -/
def hexDigit (n : Nat) : Char :=
  Char.ofNat (if n < 10 then 0x30 + n else 0x57 + n)

/-- A character of a string: quotes, backslashes and control characters are escaped. -/
def writeChar (c : Char) : List Char :=
  match c with
  | '"' => ['\\', '"']
  | '\\' => ['\\', '\\']
  | '\x08' => ['\\', 'b']
  | '\x0c' => ['\\', 'f']
  | '\n' => ['\\', 'n']
  | '\r' => ['\\', 'r']
  | '\t' => ['\\', 't']
  | _ =>
    if c.toNat < 0x20 then
      ['\\', 'u', '0', '0', hexDigit (c.toNat / 16), hexDigit (c.toNat % 16)]
    else [c]

def writeText (s : String) : List Char :=
  '"' :: s.toList.flatMap writeChar ++ ['"']

mutual

def Value.write : Value → List Char
  | .null => ['n', 'u', 'l', 'l']
  | .bool true => ['t', 'r', 'u', 'e']
  | .bool false => ['f', 'a', 'l', 's', 'e']
  | .number n => n.write
  | .text s => writeText s
  | .list items => '[' :: writeItems items ++ [']']
  | .object members => '\x7b' :: writeMembers members ++ ['\x7d']

def writeItems : List Value → List Char
  | [] => []
  | [v] => v.write
  | v :: rest => v.write ++ ',' :: writeItems rest

def writeMembers : List (String × Value) → List Char
  | [] => []
  | [(key, v)] => writeText key ++ ':' :: v.write
  | (key, v) :: rest => writeText key ++ ':' :: v.write ++ ',' :: writeMembers rest

end

end HttpDns.Json
