import LatticeLedger.Guard.Basic
import LatticeLedger.Json.Value

/-!
# Guarded steps as JSON

An address is written with all six of its numbers. A guarded step adds its position and its notes
to them, if it has any.
-/

namespace LatticeLedger

open Json

/-- The members of a written address. -/
def Address.members (address : Address) : List (String × Value) :=
  [("class_id", .ofNat address.classId.val), ("coord_idx", .ofNat address.coord.val),
    ("anchor", .ofNat address.anchor.val), ("v_bits", .ofNat address.offset.val),
    ("row", .ofNat address.row.val), ("col", .ofNat address.col.val)]

/-- An address as it is written. -/
def Address.toJson (address : Address) : Value := .ofMembers address.members

/-- Notes as they are written. -/
def notesToJson (notes : OrderedMap String String) : Value :=
  .ofMembers (notes.toList.map fun (key, note) => (key, .ofString note))

/-- A guarded step as it is written. -/
def GuardedStep.toJson (guarded : GuardedStep) : Value :=
  .ofMembers (guarded.address.members ++
    (match guarded.t with
      | some t => [("t", .ofNat t.toNat)]
      | none => []) ++
    if guarded.metadata.isEmpty then [] else [("metadata", notesToJson guarded.metadata)])

end LatticeLedger
