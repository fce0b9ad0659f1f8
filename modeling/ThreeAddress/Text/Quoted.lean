import ThreeAddress.Text.Printable

/-!
# Quoted file names

A file name inside a message stands between double quotes. A quote of either kind or a backslash in
it is written after a backslash, the common control characters as `\n`, `\r`, `\t` and `\0`, and any
other character that cannot be shown on its own as its code point in hexadecimal, `\u{7f}`.
-/

namespace ThreeAddress.Text

/-- A character as it is written between quotes. -/
def escape (c : Char) : List Char :=
  if c = '"' || c.toNat = 0x27 || c = '\\' then ['\\', c]
  else if c = '\n' then ['\\', 'n']
  else if c = '\r' then ['\\', 'r']
  else if c = '\t' then ['\\', 't']
  else if c.toNat = 0 then ['\\', '0']
  else if isPrintable c then [c]
  else ['\\', 'u', '\x7b'] ++ Nat.toDigits 16 c.toNat ++ ['\x7d']

/-- A file name between quotes. -/
def quoted (name : String) : String :=
  String.ofList ('"' :: (name.toList.flatMap escape ++ ['"']))

end ThreeAddress.Text
