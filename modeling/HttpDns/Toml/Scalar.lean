import HttpDns.Number.Binary64
import HttpDns.Text.Separated

/-!
# TOML scalars

What a bare word stands for: a truth value, a whole number, a real number or a point in time. Real
numbers and points in time are checked but not kept, since no setting holds one. Digits may be
grouped by single underscores with a digit on either side.

A document may hold a number that is out of range, or one that goes on with something else than
digits after its first underscore. It is wrong only where it is read.
-/

namespace HttpDns.Toml

inductive Scalar
  | bool (b : Bool)
  | whole (n : Int)
  | real
  | moment
  /-- a number that is out of range, or with other characters than digits in its groups -/
  | unreadable
  deriving DecidableEq, Repr

/-- The value of a digit in a base of at most sixteen. -/
def digitValue (base : Nat) (c : Char) : Option Nat :=
  let n := c.toNat
  let v := if 0x30 ≤ n && n ≤ 0x39 then n - 0x30
    else if 0x41 ≤ n && n ≤ 0x46 then n - 0x37
    else if 0x61 ≤ n && n ≤ 0x66 then n - 0x57
    else 16
  if v < base then some v else none

def digitsValue (base : Nat) (ds : List Nat) : Nat :=
  ds.foldl (fun n d => base * n + d) 0

def isDigit (base : Nat) (c : Char) : Bool :=
  (digitValue base c).isSome

/-- The sign of a text, if it has one, and the text after it. -/
def splitSign : List Char → Option Char × List Char
  | '-' :: cs => (some '-', cs)
  | '+' :: cs => (some '+', cs)
  | cs => (none, cs)

def withSign (sign : Option Char) (n : Nat) : Int :=
  if sign = some '-' then -(n : Int) else n

/-- The values of digits in groups, none of which is empty. -/
def groupedDigits (base : Nat) (cs : List Char) : Option (List Nat) :=
  let groups := Text.split '_' cs
  if [] ∈ groups then none else groups.flatten.mapM (digitValue base)

/-! ## Whole numbers -/

/-- A whole number fits 128 bits, with or without a sign. -/
def fitsWide (n : Int) : Bool :=
  -(Nat.pow 2 127 : Int) ≤ n && n < (Nat.pow 2 128 : Int)

/-- The whole number as a scalar. -/
def Scalar.ofInt (n : Int) : Scalar :=
  if fitsWide n then .whole n else .unreadable

/-- Digits in a base after its mark. A mark without digits is no number. -/
def Scalar.ofBase? (base : Nat) : List Char → Option Scalar
  | [] => some .unreadable
  | cs => (groupedDigits base cs).map fun ds => .ofInt (digitsValue base ds)

/-- The group begins and, unless it is the last one, ends with a digit of some base. -/
def isBounded (last : Bool) (group : List Char) : Bool :=
  group.head?.any (isDigit 16) && (last || group.getLast?.any (isDigit 16))

/-- The groups that follow the first one of a decimal number. -/
def areBounded : List (List Char) → Bool
  | [] => true
  | [group] => isBounded true group
  | group :: rest => isBounded false group && areBounded rest

/-- A decimal number without a leading zero. Its first group is `head`; an underscore comes before
each of the others, whose ends alone are fixed. -/
def Scalar.ofDecimal? (sign : Option Char) (head : List Char) (others : List (List Char)) :
    Option Scalar :=
  if head = [] then none
  else if head.head? = some '0' ∧ (head.length ≠ 1 ∨ others ≠ []) then none
  else if !areBounded others then none
  else
    match (head ++ others.flatten).mapM (digitValue 10) with
    | some ds => some (.ofInt (withSign sign (digitsValue 10 ds)))
    | none => some .unreadable

/-! ## Real numbers -/

/-- The text before and after the first character for which the test holds. -/
def cut (p : Char → Bool) (cs : List Char) : List Char × Option (List Char) :=
  match cs.span (!p ·) with
  | (before, []) => (before, none)
  | (before, _ :: after) => (before, some after)

/-- The decimal `significand * 10 ^ power` rounds to a double-precision number. No number that has
more digits before its point than that can hold is computed. -/
def isFinite (significand : Nat) (power : Int) : Bool :=
  let size : Int := (Nat.toDigits 10 significand).length + power
  if significand = 0 ∨ size < 300 then true
  else if 310 < size then false
  else
    let ratio := if 0 ≤ power then (significand * Nat.pow 10 power.toNat, 1)
      else (significand, Nat.pow 10 (-power).toNat)
    (Number.Binary64.ofRatio ratio.1 ratio.2).isSome

/-- The digits before the point or the exponent, without a leading zero. -/
def mantissa? (cs : List Char) : Option (List Nat) := do
  let ds ← groupedDigits 10 cs
  if cs.head? = some '0' ∧ 1 < ds.length then none else some ds

/-- The exponent after its mark. -/
def exponent? (cs : List Char) : Option Int := do
  let (sign, digits) := splitSign cs
  let ds ← groupedDigits 10 digits
  pure (withSign sign (digitsValue 10 ds))

/-- A number with a fraction, an exponent or both, after its sign. -/
def Scalar.ofReal? (cs : List Char) : Option Scalar := do
  let (decimal, mark) := cut (fun c => c = 'e' || c = 'E') cs
  let (integral, fraction) := cut (· = '.') decimal
  let ds ← mantissa? integral
  let fs ← fraction.elim (some []) (groupedDigits 10)
  let e ← mark.elim (some 0) exponent?
  if isFinite (digitsValue 10 (ds ++ fs)) (e - fs.length) then some .real else some .unreadable

/-! ## Points in time -/

/-- A number of exactly so many digits, and the rest of the text. -/
def fixedNumber (count : Nat) (cs : List Char) : Option (Nat × List Char) := do
  let ds ← (cs.take count).mapM (digitValue 10)
  if ds.length = count then some (digitsValue 10 ds, cs.drop count) else none

def skipChar (p : Char → Bool) : List Char → Option (List Char)
  | c :: cs => if p c then some cs else none
  | [] => none

def isLeapYear (year : Nat) : Bool :=
  year % 4 = 0 && (year % 100 ≠ 0 || year % 400 = 0)

def daysIn (year month : Nat) : Nat :=
  match month with
  | 2 => if isLeapYear year then 29 else 28
  | 4 | 6 | 9 | 11 => 30
  | _ => 31

/-- The text after a calendar date. -/
def skipDate (cs : List Char) : Option (List Char) := do
  let (year, cs) ← fixedNumber 4 cs
  let cs ← skipChar (· = '-') cs
  let (month, cs) ← fixedNumber 2 cs
  let cs ← skipChar (· = '-') cs
  let (day, cs) ← fixedNumber 2 cs
  if 1 ≤ month ∧ month ≤ 12 ∧ 1 ≤ day ∧ day ≤ daysIn year month then some cs else none

/-- The text after a fraction of a second, if there is one. -/
def skipFraction : List Char → Option (List Char)
  | '.' :: c :: cs =>
    if isDigit 10 c then some (cs.dropWhile (isDigit 10)) else none
  | '.' :: [] => none
  | cs => some cs

/-- The text after the seconds, which may be left out. -/
def skipSeconds (cs : List Char) : Option (List Char) :=
  match cs with
  | ':' :: cs => do
    let (second, cs) ← fixedNumber 2 cs
    if second ≤ 60 then skipFraction cs else none
  | cs => some cs

/-- The text after a time of day. -/
def skipTime (cs : List Char) : Option (List Char) := do
  let (hour, cs) ← fixedNumber 2 cs
  let cs ← skipChar (· = ':') cs
  let (minute, cs) ← fixedNumber 2 cs
  if hour ≤ 23 ∧ minute ≤ 59 then skipSeconds cs else none

/-- The text after an offset from universal time, if there is one. -/
def skipOffset (cs : List Char) : Option (List Char) :=
  match cs with
  | c :: rest =>
    if c = 'Z' || c = 'z' then some rest
    else if c = '+' || c = '-' then do
      let (hour, rest) ← fixedNumber 2 rest
      let rest ← skipChar (· = ':') rest
      let (minute, rest) ← fixedNumber 2 rest
      if hour ≤ 23 ∧ minute ≤ 59 then some rest else none
    else some cs
  | [] => some []

/-- A date, a time, or a date and a time with an optional offset. -/
def isMoment (cs : List Char) : Bool :=
  match skipDate cs with
  | some [] => true
  | some rest =>
    (do
      let rest ← skipChar (fun c => c = 'T' || c = 't' || c = ' ') rest
      let rest ← skipTime rest
      skipOffset rest) = some []
  | none => skipTime cs = some []

/-! ## Scalars -/

/-- A number or a point in time. What follows its first digits tells which. -/
def Scalar.ofNumeral? (cs : List Char) : Option Scalar :=
  let (sign, digits) := splitSign cs
  let (head, rest) := digits.span (isDigit 10)
  match rest with
  | [] => Scalar.ofDecimal? sign head []
  | c :: more =>
    if c = '-' ∨ c = ':' then if isMoment cs then some .moment else none
    else if ' ' ∈ rest then none
    else if rest.any fun d => d = '.' || d = 'e' || d = 'E' then Scalar.ofReal? digits
    else if c = '_' then Scalar.ofDecimal? sign head (Text.split '_' more)
    else none

/-- What a bare word stands for. -/
def Scalar.ofWord? : List Char → Option Scalar
  | ['t', 'r', 'u', 'e'] => some (.bool true)
  | ['f', 'a', 'l', 's', 'e'] => some (.bool false)
  | '0' :: 'x' :: cs => Scalar.ofBase? 16 cs
  | '0' :: 'o' :: cs => Scalar.ofBase? 8 cs
  | '0' :: 'b' :: cs => Scalar.ofBase? 2 cs
  | cs =>
    let unsigned := (splitSign cs).2
    if unsigned = ['i', 'n', 'f'] ∨ unsigned = ['n', 'a', 'n'] then some .real
    else Scalar.ofNumeral? cs

end HttpDns.Toml
