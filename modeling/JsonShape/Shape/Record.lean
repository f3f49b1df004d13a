import JsonShape.Shape.Union

/-! Merging object shapes.

Objects seen at the same place are merged key by key. A key that some of them lack becomes optional. A
null that was seen next to other values leaves the union of the shapes and makes the property nullable
instead.
-/

set_option autoImplicit false

namespace JsonShape

def Shape.splitNull : Shape → Shape × Bool
  | .union variants =>
    let others := variants.filter (!·.isNull)
    if others.length = variants.length then (.union variants, false)
    else
      match others with
      | [] => (.null, true)
      | others => (Shape.ofVariants others, true)
  | s => (s, false)

namespace Record

def keys (r : Record) : List Text := r.properties.map (·.key)

/-- The property of a key in the merge of several objects, some of which have it. -/
def mergedProperty (records : List Record) (key : Text) : Property Shape :=
  let seen := records.filterMap (find? ·.properties key)
  let (shape, hadNull) := (Shape.merge (seen.map (·.shape))).splitNull
  { key
    shape
    optional := decide (seen.length < records.length)
    nullable := hadNull || seen.any (·.nullable) }

/-- Several objects as one with the given name. A single one is only renamed. -/
def merge (records : List Record) (name : Text) : Record :=
  match records with
  | [] => ⟨name, []⟩
  | [r] => ⟨name, r.properties⟩
  | records => ⟨name, (records.flatMap keys).eraseDups.map (mergedProperty records)⟩

end Record

end JsonShape
