import JsonShape.Inference.Progress

/-! Inference by recursion on the value.

This is the definition of inference: everything inside a container comes before the container, members
in the order of their keys in the text and elements from the first to the last.
-/

set_option autoImplicit false

namespace JsonShape.Inference

open Json (Value)

mutual

def inferAt (o : Options) (path : Path) : Value → Progress → Shape × Progress
  | .null, p => (.null, p)
  | .bool _, p => (.boolean, p)
  | .number _, p => (.number, p)
  | .string s, p => inferText o path s p
  | .array elements, p =>
    let (shapes, p) := inferElements o path 0 elements p
    closeArray path shapes p
  | .object members, p =>
    let (shapes, p) := inferMembers o path members (p.count members.length)
    closeObject o path ((members.map (·.1)).zip shapes) p

def inferElements (o : Options) (path : Path) (i : Nat) :
    List Value → Progress → List Shape × Progress
  | [], p => ([], p)
  | v :: rest, p =>
    let (s, p) := inferAt o (path ++ [.index i]) v p
    let (shapes, p) := inferElements o path (i + 1) rest p
    (s :: shapes, p)

def inferMembers (o : Options) (path : Path) :
    List (Text × Value) → Progress → List Shape × Progress
  | [], p => ([], p)
  | (key, v) :: rest, p =>
    let (s, p) := inferAt o (path ++ [.key key]) v p
    let (shapes, p) := inferMembers o path rest p
    (s :: shapes, p)

end

end JsonShape.Inference
