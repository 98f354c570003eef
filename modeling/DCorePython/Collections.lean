import DCorePython.Operation

/-!
# Collection attributes

The attributes whose setter is `decode_list`, `decode_proposed_operations`,
`decode_set` or `decode_dict`, as one type.
-/

namespace DCore

/-- An attribute of a bound class `T` that a Python list or dict of type `V` is
assigned to. -/
inductive CollectionAttribute : Type → Type → Type 1
  | list {Obj T α : Type} [Inhabited α] (extract : Obj → Conversion α)
      (container : Member T (List α)) : CollectionAttribute (List Obj) T
  | proposedOperations (F : OpClass → Type) [Inhabited (Operation F)] :
      CollectionAttribute (List (OpObj F)) (ProposalCreateOperation F)
  | set {Obj T α κ : Type} [LinearOrder κ] (key : α → κ) (extract : Obj → Conversion α)
      (container : Member T (OrderedSet key)) : CollectionAttribute (List Obj) T
  | dict {Obj T κ ν : Type} [LinearOrder κ] [Inhabited ν] [PyObject Obj] (order : EvalOrder)
      (extractKey : Obj → Conversion κ) (extractMapped : Obj → Conversion ν)
      (container : Member T (OrderedMap κ ν)) : CollectionAttribute (PyDict Obj) T

namespace CollectionAttribute

variable {V T : Type}

def assign : CollectionAttribute V T → V → Call T Unit
  | list extract container, l => decodeList extract container l
  | proposedOperations _, l => decodeProposedOperations l
  | set _ extract container, l => decodeSet extract container l
  | dict order extractKey extractMapped container, d =>
    decodeDict order extractKey extractMapped container d

def Unconvertible : CollectionAttribute V T → V → Prop
  | list extract _, l => ∃ o ∈ l, convertible extract o = false
  | proposedOperations _, l => ∃ o ∈ l, convertible extractOperation o = false
  | set _ extract _, l => ∃ o ∈ l, convertible extract o = false
  | dict _ extractKey extractMapped _, d =>
    ∃ e ∈ d.items, convertibleItem extractKey extractMapped e = false

end CollectionAttribute

end DCore
