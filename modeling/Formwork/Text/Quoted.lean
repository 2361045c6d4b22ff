import Formwork.Text.Printable

/-!
# Quoted texts in messages

A message quotes a text so that every character of it can be seen: between single quotes, or
between double quotes when the text holds a single quote and no double one; the delimiter and the
backslash after a backslash; a character that does not print as an escape of its code.
-/

namespace Formwork.Text

/-- The lower-case hexadecimal digits of a number, padded with zeros to `width`. -/
def hexadecimal (width n : Nat) : List Char :=
  let digits := Nat.toDigits 16 n
  List.replicate (width - digits.length) '0' ++ digits

/-- One character inside a quoted text. -/
def quotedChar (delimiter c : Char) : List Char :=
  if c == delimiter || c == '\\' then ['\\', c]
  else if c == '\n' then ['\\', 'n']
  else if c == '\r' then ['\\', 'r']
  else if c == '\t' then ['\\', 't']
  else if isPrintable c then [c]
  else if c.toNat < 0x100 then '\\' :: 'x' :: hexadecimal 2 c.toNat
  else if c.toNat < 0x10000 then '\\' :: 'u' :: hexadecimal 4 c.toNat
  else '\\' :: 'U' :: hexadecimal 8 c.toNat

/-- The delimiter of a quoted text. -/
def quoteOf (cs : List Char) : Char :=
  if cs.contains '\'' && !cs.contains '"' then '"' else '\''

/-- A quoted text. -/
def quoted (s : String) : String :=
  let delimiter := quoteOf s.toList
  String.ofList (delimiter :: s.toList.flatMap (quotedChar delimiter) ++ [delimiter])

/-- The beginning of a quoted text, which may be all of it. -/
def quotedShortly (s : String) : String := String.ofList ((quoted s).toList.take 200)

/-- A list of quoted texts between brackets. -/
def quotedList (items : List String) : String :=
  "[" ++ ", ".intercalate (items.map quoted) ++ "]"

end Formwork.Text
