import JsonShape.Naming.Identifier
import JsonShape.Naming.Snake
import JsonShape.Text.Quoted

/-! Property keys as written in a document.

An identifier stands for itself and any other key is quoted. Where keys are renamed, a key in snake
case is written in camel case, which is always an identifier.
-/

set_option autoImplicit false

namespace JsonShape.Text

def propertyKey (key : Text) : Text := if key.isIdentifier then key else key.quoted

def displayKey (renamed : Bool) (key : Text) : Text :=
  if renamed && key.isSnake then key.camel else key.propertyKey

end JsonShape.Text
