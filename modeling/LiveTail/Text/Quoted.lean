import LiveTail.Text.Classes
import LiveTail.Text.Printable

/-! Text between double quotes, as messages show it.

Quotes and backslashes are escaped, and so is every character that would not
show, or would join the one before it. -/
namespace LiveTail.Text

/-- The hexadecimal digits of a number, in lower case. -/
def hexDigits (n : Nat) : List Char := Nat.toDigits 16 n

/-- One character between quotes. -/
def quotedChar (c : Char) : List Char :=
  if c = '\x00' then ['\\', '0']
  else if c = '\t' then ['\\', 't']
  else if c = '\r' then ['\\', 'r']
  else if c = '\n' then ['\\', 'n']
  else if c = '"' then ['\\', '"']
  else if c = '\\' then ['\\', '\\']
  else if isPrintable c && !isExtending c then [c]
  else '\\' :: 'u' :: '\x7b' :: hexDigits c.toNat ++ ['\x7d']

/-- A text between quotes. -/
def quoted (s : String) : String :=
  String.ofList ('"' :: s.toList.flatMap quotedChar ++ ['"'])

end LiveTail.Text
