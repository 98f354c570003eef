import DCorePython.Wrapping

/-!
# Operations rebuilt from what they show

An operation that the chain returns can be copied from Python: there is a script
that its attributes show, at every depth, and whatever script they show makes
the operation again. So the attributes hide nothing of an operation, and the
constructors and setters reach every operation.
-/

namespace DCore

open Loop Call

variable {F : OpClass → Type} (tag : OpClass → Nat)

/-! ## Operations as a `static_variant` holds them -/

mutual

/-- The tags of the operations in a payload are those of their classes. -/
def Payload.Tagged : Payload F → Prop
  | .plain _ _ _ => True
  | .proposalCreate _ proposedOps => TaggedAll proposedOps

def Operation.Tagged : Operation F → Prop
  | .mk which value => which = tag value.cls ∧ value.Tagged

def OpWrapper.Tagged : OpWrapper F → Prop
  | .mk op => op.Tagged

def TaggedAll : List (OpWrapper F) → Prop
  | [] => True
  | w :: ws => w.Tagged ∧ TaggedAll ws

end

variable {tag}

theorem wrap_value {op : Operation F} (h : op.Tagged tag) :
    (operationClass F tag).wrap op.value = op := by
  obtain ⟨which, value⟩ := op
  unfold Operation.Tagged at h
  rw [h.1]
  rfl

/-! ## What a script displays -/

section
variable (tag)

mutual

/-- The attributes of `o` show the fields of the script, and the operations that
a proposal shows display the scripts in it. -/
def Displays : Script F → OpObj F → Prop
  | .plain cls h fields, o => ShowsOwn tag o (.plain cls h fields)
  | .proposal fields _ proposed, o =>
    ∃ op : ProposalCreateOperation F, op.fields = fields ∧ ShowsOwn tag o op.toPayload ∧
      DisplayAll proposed (encodeProposedOperations op)

def DisplayAll : List (Script F) → List (OpObj F) → Prop
  | [], [] => True
  | s :: ss, o :: os => Displays s o ∧ DisplayAll ss os
  | _, _ => False

end

end

/-! ## What shows a payload -/

/-- An attribute that shows a payload tests the tag and the alternative. -/
theorem eq_wrap_of_shown {op : Operation F} {p : Payload F} {name : String} {c : OpClass}
    (hc : Registry.find? operationAttributes name = some c)
    (h : (operationClass F tag).readAttribute name (.variant op) = .ok (.payload p)) :
    op = (operationClass F tag).wrap p := by
  obtain ⟨which, value⟩ := op
  have hread : decodeStaticVariant (operationClass F tag).which (tag c)
      ((operationClass F tag).get c) VariantObj.payload (.mk which value) =
        .ok (.payload p : OpObj F) := by
    unfold VariantClass.readAttribute at h
    simp only [operationClass] at h hc ⊢
    rwa [hc] at h
  unfold decodeStaticVariant at hread
  by_cases hw : (operationClass F tag).which (.mk which value) = tag c
  · rw [if_pos hw] at hread
    unfold VariantClass.get at hread
    by_cases hcls : (operationClass F tag).cls ((operationClass F tag).value (.mk which value)) = c
    · rw [if_pos hcls] at hread
      cases hread
      have hwhich : which = tag value.cls := by
        rw [← hcls] at hw
        exact hw
      rw [hwhich]
      rfl
    · rw [if_neg hcls] at hread
      cases hread
  · rw [if_neg hw] at hread
    cases hread

theorem eq_wrap_of_showsOwn {op : Operation F} {p : Payload F}
    (h : ShowsOwn tag (.variant op) p) : op = (operationClass F tag).wrap p := by
  obtain ⟨name, hname, hshown, -⟩ := h
  exact eq_wrap_of_shown (Registry.find?_of_mem operationAttributes_nodup hname) hshown

theorem proposedOps_eq_of_encode {op : ProposalCreateOperation F} {ws : List (OpWrapper F)}
    (h : encodeProposedOperations op = (ws.map OpWrapper.op).map .variant) :
    op.proposedOps = ws := by
  rw [encodeProposedOperations_eq, List.map_map] at h
  apply List.map_injective_iff.mpr _ h
  intro w w' hw
  obtain ⟨o⟩ := w
  obtain ⟨o'⟩ := w'
  cases hw
  rfl

section
variable [Inhabited (Operation F)]

mutual

/-- A proposal may hold anything before its operations are assigned. -/
theorem payload_of_displays : ∀ {s : Script F} {op : Operation F}, Displays tag s (.variant op) →
    ∃ p, s.payload tag = .ok p ∧ op = (operationClass F tag).wrap p
  | .plain cls hcls fields, op, h => by
    unfold Displays at h
    exact ⟨.plain cls hcls fields, by rw [Script.payload], eq_wrap_of_showsOwn h⟩
  | .proposal fields before proposed, op, h => by
    unfold Displays at h
    obtain ⟨op', rfl, hshown, hproposed⟩ := h
    have hlist : encodeProposedOperations op' = (op'.proposedOps.map OpWrapper.op).map .variant := by
      rw [encodeProposedOperations_eq, List.map_map]
      rfl
    rw [hlist] at hproposed
    obtain ⟨b, hrun, hfields, hread⟩ :=
      decodeProposedOperations_run (op'.proposedOps.map OpWrapper.op) ⟨{}, ⟨op'.fields, before⟩⟩
    refine ⟨op'.toPayload, ?_, eq_wrap_of_showsOwn hshown⟩
    unfold Script.payload
    rw [wrapAll_of_displayAll hproposed]
    simp only [Except.bind, bind, hrun]
    rw [ProposalCreateOperation.toPayload, hfields, proposedOps_eq_of_encode hread]
    rfl

theorem wrapAll_of_displayAll : ∀ {ss : List (Script F)} {ops : List (Operation F)},
    DisplayAll tag ss (ops.map .variant) → wrapAll tag ss = .ok (ops.map .variant)
  | [], [], _ => by rw [wrapAll]; rfl
  | [], _ :: _, h => by simp [DisplayAll] at h
  | _ :: _, [], h => by simp [DisplayAll] at h
  | s :: ss, op :: ops, h => by
    rw [List.map_cons, DisplayAll] at h
    obtain ⟨p, hp, rfl⟩ := payload_of_displays h.1
    unfold wrapAll
    rw [hp, wrapAll_of_displayAll h.2]
    simp only [Except.bind, bind, make_operation]
    rfl

end

/-! ## A script for every operation -/

mutual

theorem exists_script : ∀ p : Payload F, p.Tagged tag → ∃ s : Script F, s.payload tag = .ok p
  | .plain cls hcls fields, _ => ⟨.plain cls hcls fields, by rw [Script.payload]⟩
  | .proposalCreate fields proposedOps, h => by
    unfold Payload.Tagged at h
    obtain ⟨ss, hss⟩ := exists_scripts proposedOps h
    obtain ⟨b, hrun, hfields, hread⟩ :=
      decodeProposedOperations_run (proposedOps.map OpWrapper.op) ⟨{}, ⟨fields, []⟩⟩
    refine ⟨.proposal fields [] ss, ?_⟩
    unfold Script.payload
    rw [hss]
    simp only [Except.bind, bind, hrun]
    rw [ProposalCreateOperation.toPayload, hfields, proposedOps_eq_of_encode hread]

theorem exists_scripts : ∀ ws : List (OpWrapper F), TaggedAll tag ws →
    ∃ ss : List (Script F), wrapAll tag ss = .ok ((ws.map OpWrapper.op).map .variant)
  | [], _ => ⟨[], by rw [wrapAll]; rfl⟩
  | .mk (.mk which value) :: ws, h => by
    unfold TaggedAll OpWrapper.Tagged at h
    have hvalue : value.Tagged tag := by
      have hop := h.1
      unfold Operation.Tagged at hop
      exact hop.2
    obtain ⟨s, hs⟩ := exists_script value hvalue
    obtain ⟨ss, hss⟩ := exists_scripts ws h.2
    have hwrap : (operationClass F tag).wrap value = .mk which value := wrap_value h.1
    refine ⟨s :: ss, ?_⟩
    unfold wrapAll
    rw [hs, hss]
    simp only [Except.bind, bind, make_operation, hwrap]
    rfl

end

mutual

theorem displays_of_readsBack : ∀ {s : Script F} {o : OpObj F}, ReadsBack tag s o → Displays tag s o
  | .plain cls hcls fields, o, h => by
    unfold ReadsBack at h
    unfold Displays
    exact h
  | .proposal fields before proposed, o, h => by
    unfold ReadsBack at h
    obtain ⟨op, hfields, -, hshown, hproposed⟩ := h
    unfold Displays
    exact ⟨op, hfields, hshown, displayAll_of_readBackAll hproposed⟩

theorem displayAll_of_readBackAll : ∀ {ss : List (Script F)} {os : List (OpObj F)},
    ReadBackAll tag ss os → DisplayAll tag ss os
  | [], [], _ => by rw [DisplayAll]; trivial
  | [], _ :: _, h => by simp [ReadBackAll] at h
  | _ :: _, [], h => by simp [ReadBackAll] at h
  | s :: ss, o :: os, h => by
    rw [ReadBackAll] at h
    rw [DisplayAll]
    exact ⟨displays_of_readsBack h.1, displayAll_of_readBackAll h.2⟩

end

/-- The attributes of an operation display a script of it, to any depth of
proposals in proposals, and every script that they display makes that
operation. -/
theorem operation_rebuilt_from_attributes (htag : tag.Injective) (op : Operation F)
    (hop : op.Tagged tag) :
    (∃ s : Script F, Displays tag s (.variant op)) ∧
      ∀ s : Script F, Displays tag s (.variant op) →
        ∃ p, s.payload tag = .ok p ∧
          (operationClass F tag).make (.payload p) = .ok op := by
  have hvalue : op.value.Tagged tag := by
    obtain ⟨which, value⟩ := op
    unfold Operation.Tagged at hop
    exact hop.2
  refine ⟨?_, ?_⟩
  · obtain ⟨s, hs⟩ := exists_script op.value hvalue
    obtain ⟨p, hp, hback⟩ := exists_payload htag s
    rw [hs] at hp
    cases hp
    rw [wrap_value hop] at hback
    exact ⟨s, displays_of_readsBack hback⟩
  · intro s hs
    obtain ⟨p, hp, heq⟩ := payload_of_displays hs
    exact ⟨p, hp, by rw [make_operation, heq]⟩

end

/-- A proposal of a transfer and of a proposal of a custom operation. -/
def nestedProposal : Operation fun _ => Nat :=
  .mk (classIndex .proposalCreateOperation) (.proposalCreate ⟨⟨0, 0⟩, 1, 0, none⟩
    [⟨.mk (classIndex .transferOperation) (.plain .transferOperation OpClass.noConfusion 8)⟩,
      ⟨.mk (classIndex .proposalCreateOperation) (.proposalCreate ⟨⟨0, 0⟩, 2, 0, none⟩
        [⟨.mk (classIndex .customOperation) (.plain .customOperation OpClass.noConfusion 9)⟩])⟩])

theorem operation_rebuilt_from_attributes_nested :
    ∃ s : Script fun _ => Nat, Displays classIndex s (.variant nestedProposal) ∧
      ∃ p, s.payload classIndex = .ok p ∧
        (operationClass (fun _ => Nat) classIndex).make (.payload p) = .ok nestedProposal :=
  have h := operation_rebuilt_from_attributes classIndex_injective nestedProposal (by
    simp [nestedProposal, Operation.Tagged, Payload.Tagged, TaggedAll, OpWrapper.Tagged,
      Payload.cls])
  h.1.imp fun s hs => ⟨hs, h.2 s hs⟩

end DCore
