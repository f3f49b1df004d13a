import JsonShape.Diagnostic
import JsonShape.Naming.Allocator
import JsonShape.Shape.Date
import JsonShape.Shape.Record

/-! Inference at one place.

Inference goes through a value once and keeps the names it has produced, the diagnostics in the order
they arose and the number of members seen. Here is what it does at one place: at a text, and at a
container once the shapes of everything inside are known.
-/

set_option autoImplicit false

namespace JsonShape.Inference

structure Options where
  rootName : Text := "Root"
  detectsDates : Bool := false

structure Progress where
  names : Allocator
  diagnostics : Array Diagnostic := #[]
  fieldCount : Nat := 0

namespace Progress

def report (p : Progress) (finding : Finding) (path : Path) : Progress :=
  { p with diagnostics := p.diagnostics.push ⟨finding, path⟩ }

def count (p : Progress) (members : Nat) : Progress :=
  { p with fieldCount := p.fieldCount + members }

def allocate (p : Progress) (keys : List Text) : Text × Progress :=
  let (name, names) := p.names.allocate keys
  (name, { p with names })

end Progress

def inferText (o : Options) (path : Path) (s : Text) (p : Progress) : Shape × Progress :=
  if o.detectsDates && s.isDate then (.date, p.report .dateString path) else (.string, p)

/-- A member whose value is null says nothing about the shape and makes the property nullable. -/
def propertyOf (key : Text) (s : Shape) : Property Shape :=
  if s.isNull then ⟨key, .unknown, false, true⟩ else ⟨key, s, false, false⟩

/-- The shape of an object. The root has the name it was given, whatever else is named so. -/
def closeObject (o : Options) (path : Path) (members : List (Text × Shape)) (p : Progress) :
    Shape × Progress :=
  let properties := members.map fun (key, s) => propertyOf key s
  if path.isEmpty then (.object o.rootName properties, p)
  else
    let (name, p) := p.allocate path.keys
    (.object name properties, p)

/-- The last word in the name of an array's elements. -/
def itemKey : Text := "item"

def closeItems (path : Path) (records : List Record) (p : Progress) : Shape × Progress :=
  let (name, p) := p.allocate (path.keys ++ [itemKey])
  ((Record.merge records name).toShape, p)

/-- The shape of an array. The merged object of a mixed array comes last among its variants. -/
def closeArray (path : Path) (elements : List Shape) (p : Progress) : Shape × Progress :=
  let records := elements.filterMap Shape.record?
  let others := elements.filter (!·.isObject)
  if elements.isEmpty then (.array .unknown, p.report .emptyArray path)
  else if others.isEmpty then
    let (item, p) := closeItems path records p
    (.array item, p)
  else if records.isEmpty then
    let element := Shape.merge others
    (.array element, if element.isUnion then p.report .mixedElements path else p)
  else
    let (item, p) := closeItems path records (p.report .mixedObjects path)
    (.array (Shape.merge (others ++ [item])), p)

end JsonShape.Inference
