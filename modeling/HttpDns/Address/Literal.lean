/-!
# Address literals

Reading and writing numeric addresses. An IPv4 literal is four decimal numbers below 256 without
leading zeros. An IPv6 literal is eight groups of at most four hexadecimal digits; one run of zero
groups may be left out for a double colon, and the last two groups may be written as an IPv4
literal. The canonical writing leaves out the first longest run of at least two zero groups and
writes an IPv4-mapped address with its IPv4 part.
-/

namespace HttpDns.Address

/-- The value of a digit in a base of at most sixteen. -/
def digitValue (base : Nat) (c : Char) : Option Nat :=
  let n := c.toNat
  let v := if 0x30 ≤ n && n ≤ 0x39 then n - 0x30
    else if 0x41 ≤ n && n ≤ 0x46 then n - 0x37
    else if 0x61 ≤ n && n ≤ 0x66 then n - 0x57
    else 16
  if v < base then some v else none

/-- The leading digits' value and count, and the rest of the text. -/
def readDigits (base : Nat) : List Char → Nat → Nat → Nat × Nat × List Char
  | [], value, count => (value, count, [])
  | c :: cs, value, count =>
    match digitValue base c with
    | some d => readDigits base cs (value * base + d) (count + 1)
    | none => (value, count, c :: cs)

/-- A decimal number below 256 without leading zeros. -/
def readOctet (cs : List Char) : Option (Nat × List Char) :=
  let (value, count, rest) := readDigits 10 cs 0 0
  if count = 0 ∨ 3 < count ∨ (cs.head? = some '0' ∧ 1 < count) ∨ 255 < value then none
  else some (value, rest)

/-- A group of one to four hexadecimal digits. -/
def readGroup (cs : List Char) : Option (Nat × List Char) :=
  let (value, count, rest) := readDigits 16 cs 0 0
  if count = 0 ∨ 4 < count then none else some (value, rest)

def readChar (c : Char) : List Char → Option (List Char)
  | [] => none
  | d :: rest => if d = c then some rest else none

/-- The four numbers of an IPv4 literal at the front of the text. -/
def readQuad (cs : List Char) : Option ((Nat × Nat × Nat × Nat) × List Char) := do
  let (a, cs) ← readOctet cs
  let cs ← readChar '.' cs
  let (b, cs) ← readOctet cs
  let cs ← readChar '.' cs
  let (c, cs) ← readOctet cs
  let cs ← readChar '.' cs
  let (d, cs) ← readOctet cs
  pure ((a, b, c, d), cs)

/-- After the first group of a run a colon has to come first. -/
def readSeparator (first : Bool) (cs : List Char) : Option (List Char) :=
  if first then some cs else readChar ':' cs

/-- What a run of at most `limit` groups holds. -/
structure Run where
  groups : List Nat
  /-- the last two groups were written as an IPv4 literal -/
  endsInQuad : Bool
  rest : List Char

/-- The longest run of at most `limit` groups separated by colons at the front of the text. -/
def readRun : (limit : Nat) → (first : Bool) → List Char → Run
  | 0, _, cs => ⟨[], false, cs⟩
  | limit + 1, first, cs =>
    let quad :=
      if limit = 0 then none else (readSeparator first cs).bind readQuad
    match quad with
    | some ((a, b, c, d), rest) => ⟨[a * 256 + b, c * 256 + d], true, rest⟩
    | none =>
      match (readSeparator first cs).bind readGroup with
      | none => ⟨[], false, cs⟩
      | some (group, rest) =>
        let run := readRun limit false rest
        { run with groups := group :: run.groups }

/-- A numeric address. -/
inductive Literal
  | ipv4 (a b c d : Nat)
  /-- the eight groups -/
  | ipv6 (groups : List Nat)
  deriving DecidableEq, Repr

/-- The eight groups of an IPv6 literal. -/
def parseIpv6 (s : String) : Option (List Nat) :=
  let head := readRun 8 true s.toList
  if head.groups.length = 8 then
    if head.rest = [] then some head.groups else none
  else if head.endsInQuad then none
  else
    match head.rest with
    | ':' :: ':' :: cs =>
      let tail := readRun (7 - head.groups.length) true cs
      if tail.rest = [] then
        some (head.groups ++ List.replicate (8 - head.groups.length - tail.groups.length) 0
          ++ tail.groups)
      else none
    | _ => none

/-- The four numbers of an IPv4 literal. -/
def parseIpv4 (s : String) : Option (Nat × Nat × Nat × Nat) :=
  match readQuad s.toList with
  | some (quad, []) => some quad
  | _ => none

/-- The address a text spells. -/
def Literal.parse (s : String) : Option Literal :=
  match parseIpv4 s with
  | some (a, b, c, d) => some (.ipv4 a b c d)
  | none => (parseIpv6 s).map .ipv6

def Literal.isIpv4 : Literal → Bool
  | .ipv4 .. => true
  | .ipv6 _ => false

def writeQuad (a b c d : Nat) : String :=
  toString a ++ "." ++ toString b ++ "." ++ toString c ++ "." ++ toString d

/-- Groups in lower-case hexadecimal with colons between them. -/
def writeGroups (groups : List Nat) : String :=
  ":".intercalate (groups.map fun g => String.ofList (Nat.toDigits 16 g))

/-- Start and length of the first longest run of zeros. -/
def longestZeros : List Nat → Nat → (here best : Nat × Nat) → Nat × Nat
  | [], _, _, best => best
  | g :: gs, i, here, best =>
    if g = 0 then
      let here := if here.2 = 0 then (i, 1) else (here.1, here.2 + 1)
      longestZeros gs (i + 1) here (if best.2 < here.2 then here else best)
    else longestZeros gs (i + 1) (0, 0) best

/-- The canonical writing. -/
def Literal.write : Literal → String
  | .ipv4 a b c d => writeQuad a b c d
  | .ipv6 groups =>
    match groups with
    | [0, 0, 0, 0, 0, 0xFFFF, x, y] =>
      "::ffff:" ++ writeQuad (x / 256) (x % 256) (y / 256) (y % 256)
    | _ =>
      let (start, length) := longestZeros groups 0 (0, 0) (0, 0)
      if 1 < length then
        writeGroups (groups.take start) ++ "::" ++ writeGroups (groups.drop (start + length))
      else writeGroups groups

/-- The text spells an IPv6 address. -/
def isIpv6Literal (s : String) : Bool :=
  (parseIpv6 s).isSome

theorem readRun_length : ∀ (limit : Nat) (first : Bool) (cs : List Char),
    (readRun limit first cs).groups.length ≤ limit
  | 0, _, _ => by simp [readRun]
  | limit + 1, first, cs => by
    unfold readRun
    simp only []
    split
    · rename_i h
      split at h
      · simp at h
      · simp; omega
    · split
      · simp
      · have := readRun_length limit false (by assumption)
        simp only [List.length_cons]
        omega

end HttpDns.Address
