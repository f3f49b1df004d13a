import JsonShape.Text.Printable
import JsonShape.Text.Quoted

/-! Text literals in messages.

A message shows a text between single quotes, or between double quotes if it holds a single quote and no
double one. Backslashes, the quote around the text and code points that are not printable are escaped,
with two, four or eight hexadecimal digits as needed; printable ones stand for themselves.
-/

set_option autoImplicit false

namespace JsonShape.Text

def hexDigits (count n : Nat) : Text :=
  (List.range count).reverse.map fun place => hexDigit (n / Nat.pow 16 place)

def literalEscape (quote c : CodePoint) : Text :=
  if c = quote || c = '\\' then [CodePoint.ofChar '\\', c]
  else if c = '\n' then "\\n"
  else if c = '\r' then "\\r"
  else if c = '\t' then "\\t"
  else if c.isPrintable then [c]
  else if c.val < 0x100 then "\\x" ++ hexDigits 2 c.val
  else if c.val < 0x10000 then "\\u" ++ hexDigits 4 c.val
  else "\\U" ++ hexDigits 8 c.val

def literalQuote (t : Text) : CodePoint :=
  if t.contains (CodePoint.ofChar '\'') && !t.contains (CodePoint.ofChar '"') then '"' else '\''

def literal (t : Text) : Text :=
  literalQuote t :: (t.flatMap (literalEscape (literalQuote t)) ++ [literalQuote t])

end JsonShape.Text
