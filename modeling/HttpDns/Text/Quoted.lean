import HttpDns.Text.Extending
import HttpDns.Text.Visible

/-!
# Quoted texts

A text between double quotes, with one-letter escapes for the commonest special characters and the
code point in lower-case hexadecimal between braces for every other one that cannot be shown or
would be drawn onto its neighbour.
-/

namespace HttpDns.Text

/-- The code point between braces. -/
def escapeCode (c : Char) : List Char :=
  '\\' :: 'u' :: '\x7b' :: Nat.toDigits 16 c.toNat ++ ['\x7d']

/-- A character of a quoted text. -/
def quoteChar (c : Char) : List Char :=
  match c with
  | '\x00' => ['\\', '0']
  | '\t' => ['\\', 't']
  | '\r' => ['\\', 'r']
  | '\n' => ['\\', 'n']
  | '"' => ['\\', '"']
  | '\\' => ['\\', '\\']
  | _ => if isExtending c || !isVisible c then escapeCode c else [c]

/-- The text between double quotes. -/
def quote (s : String) : String :=
  String.ofList ('"' :: s.toList.flatMap quoteChar ++ ['"'])

end HttpDns.Text
