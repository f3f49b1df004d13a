import JsonShape.Text.Alphanumeric
import JsonShape.Text.Casing

/-! Identifiers.

An identifier starts with an ASCII letter, an underscore or a dollar sign and goes on with these and
ASCII digits. The schema constant of a type has the type's name with its first letter in lower case.
-/

set_option autoImplicit false

namespace JsonShape

namespace CodePoint

def isIdentifierStart (c : CodePoint) : Bool := c.isAsciiLetter || c = '_' || c = '$'

def isIdentifierPart (c : CodePoint) : Bool := c.isIdentifierStart || c.isAsciiDigit

end CodePoint

namespace Text

def isIdentifier : Text → Bool
  | [] => false
  | c :: rest => c.isIdentifierStart && rest.all CodePoint.isIdentifierPart

def lowerFirst : Text → Text
  | [] => []
  | c :: rest => c.lower ++ rest

/-- The constant that holds the schema of the named type. -/
def schemaName (typeName : Text) : Text := lowerFirst typeName ++ "Schema"

end Text

end JsonShape
