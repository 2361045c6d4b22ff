/-!
# Lines

The lines of a text end with a line feed, a carriage return or both.
-/

namespace Formwork.Text

/-- Line ends written as line feeds. -/
def normalizeLines : List Char → List Char
  | '\r' :: '\n' :: rest => '\n' :: normalizeLines rest
  | '\r' :: rest => '\n' :: normalizeLines rest
  | c :: rest => c :: normalizeLines rest
  | [] => []

end Formwork.Text
