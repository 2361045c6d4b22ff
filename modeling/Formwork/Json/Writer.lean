import Formwork.Number.Shortest
import Formwork.Text.Quoted
import Formwork.Value

/-!
# Writing JSON

JSON text in ASCII on one line: a comma and a colon are each followed by one space, and members
keep their order. Doubles are written by their shortest decimal; `NaN`, `Infinity` and `-Infinity`
stand for the doubles that are no numbers. A character beyond ASCII is written as the escapes of
its UTF-16 units. A value with an integer that is not shown has no JSON text.
-/

namespace Formwork.Json

open Formwork.Text (hexadecimal)

/-- The escape of one UTF-16 unit. -/
def unitEscape (unit : Nat) : List Char := '\\' :: 'u' :: hexadecimal 4 unit

/-- The UTF-16 units of a character. -/
def units (c : Char) : List Nat :=
  let n := c.toNat
  if n < 0x10000 then [n]
  else [0xD800 + (n - 0x10000) / 0x400, 0xDC00 + (n - 0x10000) % 0x400]

/-- One character of a string. -/
def escapeChar (c : Char) : List Char :=
  if c == '"' || c == '\\' then ['\\', c]
  else if c == '\n' then ['\\', 'n']
  else if c == '\r' then ['\\', 'r']
  else if c == '\t' then ['\\', 't']
  else if c.toNat == 8 then ['\\', 'b']
  else if c.toNat == 12 then ['\\', 'f']
  else if 32 ≤ c.toNat && c.toNat < 127 then [c]
  else (units c).flatMap unitEscape

/-- A string between double quotes. -/
def string (s : String) : List Char := '"' :: s.toList.flatMap escapeChar ++ ['"']

/-- A string between double quotes. -/
def quotedString (s : String) : String := String.ofList (string s)

/-- A double. -/
def double : Binary64 → List Char
  | .nan => "NaN".toList
  | .infinity false => "Infinity".toList
  | .infinity true => "-Infinity".toList
  | x => x.text.toList

/-- An integer. -/
def integer (n : Int) : List Char := (toString n).toList

mutual

/-- The JSON text of a value. -/
def chars : Value → List Char
  | .null => "null".toList
  | .bool true => "true".toList
  | .bool false => "false".toList
  | .int n => integer n
  | .float x => double x
  | .str s => string s
  | .list xs => '[' :: itemChars xs ++ [']']
  | .object ms => '{' :: memberChars ms ++ ['}']

/-- The items of a list, separated. -/
def itemChars : List Value → List Char
  | [] => []
  | [x] => chars x
  | x :: y :: rest => chars x ++ ',' :: ' ' :: itemChars (y :: rest)

/-- The members of an object, separated. -/
def memberChars : List (String × Value) → List Char
  | [] => []
  | [(k, x)] => string k ++ ':' :: ' ' :: chars x
  | (k, x) :: m :: rest =>
    string k ++ ':' :: ' ' :: chars x ++ ',' :: ' ' :: memberChars (m :: rest)

end

/-- The JSON text of a value, whatever the size of its integers. -/
def text (v : Value) : String := String.ofList (chars v)

/-- The JSON text of a value, if it has one. -/
def write? (v : Value) : Option String := if v.isWritable then some (text v) else none

end Formwork.Json
