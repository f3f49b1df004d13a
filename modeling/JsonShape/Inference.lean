import JsonShape.Inference.Walk

/-! Inference of a whole sample.

The root should be an object or an array; any other value is an error, though its shape is still found.
The name of the root is taken before anything else is named, so that no nested object gets it.
-/

set_option autoImplicit false

namespace JsonShape

open Json (Value)

def Json.Value.isContainer : Value → Bool
  | .array _ | .object _ => true
  | _ => false

structure Inferred where
  shape : Shape
  diagnostics : List Diagnostic
  fieldCount : Nat

def Inferred.hasErrors (i : Inferred) : Bool := i.diagnostics.any Diagnostic.isError

namespace Inference

def start (o : Options) (v : Value) : Progress :=
  if v.isContainer then { names := (Allocator.empty o.rootName).reserve o.rootName }
  else Progress.report { names := Allocator.empty o.rootName } .scalarRoot []

def trace (o : Options) (v : Value) : Shape × Progress := walk o v (start o v)

end Inference

def infer (o : Inference.Options) (v : Value) : Inferred :=
  let (shape, p) := Inference.trace o v
  { shape, diagnostics := p.diagnostics.toList, fieldCount := p.fieldCount }

namespace Inference

/-! ## The root name as a fallback

An object below the root whose path spells no word is named after the root.
-/

mutual

/-- Whether an object in the value is named after the root. `spelled` tells whether the path to the
value spells a word. -/
def namedAfterRoot (atRoot spelled : Bool) : Value → Bool
  | .array elements => namedAfterRootElements spelled elements
  | .object members => (!atRoot && !spelled) || namedAfterRootMembers spelled members
  | _ => false

def namedAfterRootElements (spelled : Bool) : List Value → Bool
  | [] => false
  | v :: rest => namedAfterRoot false spelled v || namedAfterRootElements spelled rest

def namedAfterRootMembers (spelled : Bool) : List (Text × Value) → Bool
  | [] => false
  | (key, v) :: rest =>
    namedAfterRoot false (spelled || !key.pascal.isEmpty) v || namedAfterRootMembers spelled rest

end

end Inference

end JsonShape
