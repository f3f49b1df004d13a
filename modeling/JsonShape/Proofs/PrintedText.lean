import JsonShape.Text.ControlSequence

/-! Texts as they are printed.

A text is printed without its control sequences, which are looked for from left to right. A line feed is part
of none, so that lines lose theirs one by one, and what comes before the first escape is kept as it is.
-/

set_option autoImplicit false

namespace JsonShape.Text

end JsonShape.Text
