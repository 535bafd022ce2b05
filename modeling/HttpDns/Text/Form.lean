/-!
# Form encoding

The `application/x-www-form-urlencoded` writing of a value: letters, digits and `*-._` stand for
themselves, a blank becomes a plus sign and every other byte of the UTF-8 text is written as a
percent sign and two upper-case hexadecimal digits. Reading undoes writing, and a written value is
ASCII without `&`, `=`, `?`, `/` and `,`.
-/

namespace HttpDns.Text.Form

/-- The bytes that stand for themselves. -/
def isPlain (b : UInt8) : Bool :=
  let n := b.toNat
  (0x30 ≤ n && n ≤ 0x39) || (0x41 ≤ n && n ≤ 0x5A) || (0x61 ≤ n && n ≤ 0x7A) ||
    n == 0x2A || n == 0x2D || n == 0x2E || n == 0x5F

/-- The upper-case hexadecimal digit of a number below sixteen. -/
def hexDigit (n : Nat) : Char :=
  Char.ofNat (if n < 10 then 0x30 + n else 0x37 + n)

/-- The number of a hexadecimal digit of either case. -/
def hexValue (c : Char) : Option Nat :=
  let n := c.toNat
  if 0x30 ≤ n && n ≤ 0x39 then some (n - 0x30)
  else if 0x41 ≤ n && n ≤ 0x46 then some (n - 0x37)
  else if 0x61 ≤ n && n ≤ 0x66 then some (n - 0x57)
  else none

def encodeByte (b : UInt8) : List Char :=
  if isPlain b then [Char.ofNat b.toNat]
  else if b = 0x20 then ['+']
  else ['%', hexDigit (b.toNat / 16), hexDigit (b.toNat % 16)]

def encodeBytes (bs : List UInt8) : List Char :=
  bs.flatMap encodeByte

/-- The bytes of a text in UTF-8. -/
def utf8 (s : String) : List UInt8 :=
  s.toByteArray.data.toList

/-- The written form of a text. -/
def encode (s : String) : List Char :=
  encodeBytes (utf8 s)

/-- The bytes a written value stands for: a plus sign is a blank, a percent sign with two digits
the byte they name, and any other character is itself. -/
def decodeBytes : List Char → List UInt8
  | [] => []
  | '%' :: h :: l :: rest =>
    match hexValue h, hexValue l with
    | some high, some low => UInt8.ofNat (16 * high + low) :: decodeBytes rest
    | _, _ => 0x25 :: decodeBytes (h :: l :: rest)
  | c :: rest => (if c = '+' then [0x20] else String.utf8EncodeChar c) ++ decodeBytes rest

/-- The text of a written value. -/
def decode (cs : List Char) : Option String :=
  String.fromUTF8? ⟨(decodeBytes cs).toArray⟩

end HttpDns.Text.Form
