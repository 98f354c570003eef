import DCorePython.Operation

/-!
# Wrapped operations are read back

A script says how a payload is made: field by field, or for a proposal by
assigning wrapped payloads to its operations, to any depth. What an `Operation`
holds is read back under the attribute of its own class and under no other.
-/

namespace DCore

open Loop Call

variable {F : OpClass → Type}

/-! ## The tables -/

theorem mem_operationInits (cls : OpClass) : cls ∈ operationInits := by
  cases cls <;> decide

theorem operationAttributes_classes : operationAttributes.map Prod.snd = operationInits := rfl

theorem operationAttributes_nodup : (operationAttributes.map Prod.fst).Nodup := by decide

theorem operationInits_nodup : operationInits.Nodup := by decide

theorem exists_attribute (cls : OpClass) : ∃ name, (name, cls) ∈ operationAttributes := by
  have h := mem_operationInits cls
  rw [← operationAttributes_classes] at h
  obtain ⟨⟨name, c⟩, hrow, rfl⟩ := List.mem_map.mp h
  exact ⟨name, hrow⟩

theorem attribute_unique {name name' : String} {cls : OpClass}
    (h : (name, cls) ∈ operationAttributes) (h' : (name', cls) ∈ operationAttributes) :
    name = name' := by
  have hn := operationInits_nodup
  rw [← operationAttributes_classes] at hn
  exact (Prod.ext_iff.mp (List.inj_on_of_nodup_map hn h h' rfl)).1

/-! ## Operations and their payloads -/

section
variable {tag : OpClass → Nat}

def ShowsOwn (tag : OpClass → Nat) (o : OpObj F) (p : Payload F) : Prop :=
  ∃ name, (name, p.cls) ∈ operationAttributes ∧ (operationClass F tag).ShowsUnder name o p

theorem make_operation (p : Payload F) :
    (operationClass F tag).make (.payload p) = .ok ((operationClass F tag).wrap p) :=
  VariantClass.make_payload (mem_operationInits p.cls)

theorem shows_operation (htag : tag.Injective) (p : Payload F) :
    ShowsOwn tag (.variant ((operationClass F tag).wrap p)) p := by
  obtain ⟨name, hname⟩ := exists_attribute p.cls
  have hfind : Registry.find? operationAttributes name = some p.cls :=
    Registry.find?_of_mem operationAttributes_nodup hname
  refine ⟨name, hname, ?_⟩
  rw [VariantClass.showsUnder_wrap_iff htag p (Registry.mem_names_iff.mpr ⟨_, hfind⟩)]
  refine fun name' => ⟨fun h' => ?_, by rintro rfl; exact hfind⟩
  exact attribute_unique (Registry.mem_of_find? h') hname

end

/-! ## Scripts -/

/-- How a payload is made. `before` is what a proposal held before its
operations were assigned. -/
inductive Script (F : OpClass → Type)
  | plain (cls : OpClass) (h : cls ≠ .proposalCreateOperation) (fields : F cls)
  | proposal (fields : ProposalFields) (before : List (OpWrapper F)) (proposed : List (Script F))

def ProposalCreateOperation.toPayload (op : ProposalCreateOperation F) : Payload F :=
  .proposalCreate op.fields op.proposedOps

section
variable [Inhabited (Operation F)] (tag : OpClass → Nat)

mutual

def Script.payload : Script F → Except PyErr (Payload F)
  | .plain cls h fields => .ok (.plain cls h fields)
  | .proposal fields before proposed => do
    let l ← wrapAll proposed
    match (decodeProposedOperations l).run ⟨{}, ⟨fields, before⟩⟩ with
    | .ok () b => .ok b.obj.toPayload
    | .error e _ => .error e

def wrapAll : List (Script F) → Except PyErr (List (OpObj F))
  | [] => .ok []
  | s :: ss => do
    let p ← s.payload
    let op ← (operationClass F tag).make (.payload p)
    let l ← wrapAll ss
    return .variant op :: l

end

mutual

/-- `o` shows the payload of the script, and so do the operations in it at every
depth. -/
def ReadsBack : Script F → OpObj F → Prop
  | .plain cls h fields, o => ShowsOwn tag o (.plain cls h fields)
  | .proposal fields before proposed, o =>
    ∃ op : ProposalCreateOperation F, op.fields = fields ∧
      (Script.proposal fields before proposed).payload tag = .ok op.toPayload ∧
      ShowsOwn tag o op.toPayload ∧ ReadBackAll proposed (encodeProposedOperations op)

def ReadBackAll : List (Script F) → List (OpObj F) → Prop
  | [], [] => True
  | s :: ss, o :: os => ReadsBack s o ∧ ReadBackAll ss os
  | _, _ => False

end

/-! ## Reading back -/

variable {tag}

theorem setOperations_run (ops : List (Operation F)) (b : Bound (Transaction F)) :
    ∃ b', (Transaction.setOperations (ops.map .variant)).run b = .ok () b' ∧
      Transaction.getOperations b'.obj = ops.map .variant :=
  decodeList_variants_run Transaction.operationsMember ops b

theorem decodeProposedOperations_run (ops : List (Operation F))
    (b : Bound (ProposalCreateOperation F)) :
    ∃ b', (decodeProposedOperations (ops.map .variant)).run b = .ok () b' ∧
      b'.obj.fields = b.obj.fields ∧
      encodeProposedOperations b'.obj = ops.map .variant := by
  have hc : ∀ o ∈ ops.map VariantObj.variant, convertible (extractOpWrapper (F := F)) o = true := by
    intro o ho
    obtain ⟨op, -, rfl⟩ := List.mem_map.mp ho
    rfl
  have hv : values extractOpWrapper (ops.map VariantObj.variant) = ops.map OpWrapper.mk := by
    simp [values, List.filterMap_map, extractOpWrapper, extractOperation, extractVariant,
      Conversion.value?]
  rw [decodeProposedOperations_eq]
  refine ⟨_, decodeList_run extractOpWrapper ProposalCreateOperation.proposedOpsMember hc b, rfl, ?_⟩
  rw [encodeProposedOperations_eq, hv]
  simp [ProposalCreateOperation.proposedOpsMember, OpWrapper.op]

mutual

theorem exists_payload (htag : tag.Injective) :
    ∀ s : Script F, ∃ p, s.payload tag = .ok p ∧
      ReadsBack tag s (.variant ((operationClass F tag).wrap p))
  | .plain cls h fields =>
    ⟨.plain cls h fields, by rw [Script.payload], by rw [ReadsBack]; exact shows_operation htag _⟩
  | .proposal fields before proposed => by
    obtain ⟨ops, hops, hback⟩ := exists_wrapped htag proposed
    obtain ⟨b, hrun, hfields, hread⟩ := decodeProposedOperations_run ops ⟨{}, ⟨fields, before⟩⟩
    have hp : (Script.proposal fields before proposed).payload tag = .ok b.obj.toPayload := by
      unfold Script.payload
      rw [hops]
      simp only [Except.bind, bind, hrun]
    refine ⟨b.obj.toPayload, hp, ?_⟩
    unfold ReadsBack
    exact ⟨b.obj, hfields, hp, shows_operation htag _, by rw [hread]; exact hback⟩

theorem exists_wrapped (htag : tag.Injective) :
    ∀ ss : List (Script F), ∃ ops : List (Operation F),
      wrapAll tag ss = .ok (ops.map .variant) ∧ ReadBackAll tag ss (ops.map .variant)
  | [] => ⟨[], by rw [wrapAll]; rfl, by rw [List.map_nil, ReadBackAll]; trivial⟩
  | s :: ss => by
    obtain ⟨p, hp, hback⟩ := exists_payload htag s
    obtain ⟨ops, hops, hbacks⟩ := exists_wrapped htag ss
    refine ⟨(operationClass F tag).wrap p :: ops, ?_, ?_⟩
    · unfold wrapAll
      rw [hp, hops]
      simp only [Except.bind, bind, make_operation]
      rfl
    · rw [List.map_cons, ReadBackAll]
      exact ⟨hback, hbacks⟩

end

/-- Any payloads, wrapped and assigned to a transaction or a proposal, are read
back at every nesting level, and the tables have one attribute for each of the
44 classes. -/
theorem wrapped_operations_read_back (htag : tag.Injective) (ss : List (Script F)) :
    (operationInits.length = 44 ∧ operationAttributes.map Prod.snd = operationInits ∧
      operationInits.Nodup ∧ (operationAttributes.map Prod.fst).Nodup) ∧
    ∃ l, wrapAll tag ss = .ok l ∧
      (∀ b : Bound (Transaction F), ∃ b',
        (Transaction.setOperations l).run b = .ok () b' ∧
        ReadBackAll tag ss (Transaction.getOperations b'.obj)) ∧
      (∀ b : Bound (ProposalCreateOperation F), ∃ b',
        (decodeProposedOperations l).run b = .ok () b' ∧
        ReadBackAll tag ss (encodeProposedOperations b'.obj)) := by
  refine ⟨⟨rfl, operationAttributes_classes, operationInits_nodup, operationAttributes_nodup⟩, ?_⟩
  obtain ⟨ops, hops, hback⟩ := exists_wrapped htag ss
  refine ⟨_, hops, fun b => ?_, fun b => ?_⟩
  · obtain ⟨b', hrun, hread⟩ := setOperations_run ops b
    exact ⟨b', hrun, by rw [hread]; exact hback⟩
  · obtain ⟨b', hrun, -, hread⟩ := decodeProposedOperations_run ops b
    exact ⟨b', hrun, by rw [hread]; exact hback⟩

end

def classIndex (cls : OpClass) : Nat := operationInits.idxOf cls

theorem classIndex_injective : classIndex.Injective :=
  fun cls _ h => (List.idxOf_inj (mem_operationInits cls)).mp h

def nestedScripts : List (Script fun _ => Nat) :=
  [.plain .transferOperation (by decide) 7,
    .proposal ⟨⟨0, 0⟩, 1, 0, none⟩ []
      [.plain .transferOperation (by decide) 8,
        .proposal ⟨⟨0, 0⟩, 2, 0, none⟩ [] [.plain .customOperation (by decide) 9]]]

instance : Inhabited (Operation fun _ => Nat) :=
  ⟨.mk 0 (.plain .accountCreateOperation (by decide) 0)⟩

theorem wrapped_operations_read_back_nested :
    ∃ l, wrapAll classIndex nestedScripts = .ok l ∧ ∃ b',
      (Transaction.setOperations l).run ⟨{}, ⟨0, 0, 0, [default, default, default]⟩⟩ = .ok () b' ∧
      ReadBackAll classIndex nestedScripts (Transaction.getOperations b'.obj) :=
  have ⟨_, l, hl, ht, _⟩ := wrapped_operations_read_back classIndex_injective nestedScripts
  ⟨l, hl, ht _⟩

end DCore
