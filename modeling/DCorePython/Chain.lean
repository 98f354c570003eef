import DCorePython.Codecs

/-!
# Fee schedules

The parameters of a fee schedule are a set ordered by operation tag alone, and
an insertion leaves an equivalent element as it is. Copying the parameters of
one schedule to another therefore fills its gaps and changes no fee.
-/

namespace DCore

open Loop

variable {P : Type}

/-- The fee parameters of one operation; their operators compare the tags. -/
structure FeeParameters (P : Type) where
  which : Nat
  parameters : P
  deriving DecidableEq

structure FeeSchedule (P : Type) where
  parameters : OrderedSet (FeeParameters.which : FeeParameters P → Nat)
  scale : Fin (2 ^ 32)

inductive FeeObj (P : Type)
  | feeParameters (f : FeeParameters P)
  | other

def extractFeeParameters : FeeObj P → Conversion (FeeParameters P)
  | .feeParameters f => .built f none
  | .other => .raised .typeError

namespace FeeSchedule

def parametersMember :
    Member (FeeSchedule P) (OrderedSet (FeeParameters.which : FeeParameters P → Nat)) where
  get := parameters
  set t c := { t with parameters := c }
  get_set _ _ := rfl
  set_get _ := rfl
  set_set _ _ _ := rfl

def scaleMember : Member (FeeSchedule P) (Fin (2 ^ 32)) where
  get := scale
  set t c := { t with scale := c }
  get_set _ _ := rfl
  set_get _ := rfl
  set_set _ _ _ := rfl

def getParameters (s : FeeSchedule P) : List (FeeObj P) :=
  encodeSet (m := Id) FeeObj.feeParameters parametersMember s

def setParameters (l : List (FeeObj P)) : Call (FeeSchedule P) Unit :=
  decodeSet extractFeeParameters parametersMember l

/-- `A.parameters = B.parameters`, run on `A`. -/
def copyParameters (B : FeeSchedule P) : Call (FeeSchedule P) Unit :=
  setParameters B.getParameters

theorem convertible_getParameters (s : FeeSchedule P) :
    ∀ o ∈ s.getParameters, convertible extractFeeParameters o = true := by
  intro o ho
  unfold getParameters at ho
  rw [encodeSet_eq, mapM_id] at ho
  obtain ⟨f, -, rfl⟩ := List.mem_map.mp ho
  rfl

theorem values_getParameters (s : FeeSchedule P) :
    values extractFeeParameters s.getParameters = s.parameters.toList := by
  unfold getParameters
  rw [encodeSet_eq, mapM_id, values_map_toPython (fun _ => rfl)]
  rfl

theorem copyParameters_run (A B : FeeSchedule P) (i : Interp) :
    ∃ b', (copyParameters B).run ⟨i, A⟩ = .ok () b' ∧
      b'.obj.parameters.contents = A.parameters.contents.overlay B.parameters.contents := by
  refine ⟨_, decodeSet_run extractFeeParameters parametersMember (convertible_getParameters B) _, ?_⟩
  show (A.parameters.insertBack (values _ B.getParameters)).contents = _
  rw [OrderedSet.contents_insertBack, values_getParameters, OrderedSet.ofBack_toList]

/-- After `A.parameters = B.parameters` every entry of `B` is an entry of `A`
exactly when no tag had different entries in the two. -/
theorem copyParameters_extends_iff (A B : FeeSchedule P) (i : Interp) :
    ∃ b', (copyParameters B).run ⟨i, A⟩ = .ok () b' ∧
      ((∀ tag f, B.parameters.find? tag = some f → b'.obj.parameters.find? tag = some f) ↔
        ∀ tag f g, A.parameters.find? tag = some f → B.parameters.find? tag = some g → f = g) := by
  obtain ⟨b', hrun, hcontents⟩ := copyParameters_run A B i
  refine ⟨b', hrun, ?_⟩
  have h := PartialMap.overlay_extends_right_iff A.parameters.contents B.parameters.contents
  rw [← hcontents] at h
  exact h

def single (tag : Nat) (fee : P) : FeeSchedule P where
  parameters := ⟨[⟨tag, fee⟩], by simp⟩
  scale := 0

theorem copyParameters_keeps_fee :
    ∃ b', (copyParameters (single 0 7)).run ⟨{}, single 0 5⟩ = .ok () b' ∧
      (single 0 7).parameters.find? 0 = some ⟨0, 7⟩ ∧
      b'.obj.parameters.find? 0 = some ⟨0, 5⟩ :=
  ⟨_, rfl, rfl, rfl⟩

end FeeSchedule

end DCore
