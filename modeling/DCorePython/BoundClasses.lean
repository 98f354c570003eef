import DCorePython.Chain
import DCorePython.Operation
import DCorePython.References

/-!
# Steps between bound classes

Registrations in chain.cpp, common.cpp and operation.cpp of attributes whose
values are bound objects in turn. Operations hold proposals and proposals hold
operations, so paths over these steps have any length.
-/

namespace DCore

structure ChainParameters (P : Type) where
  currentFees : FeeSchedule P
  maintenanceInterval : Fin (2 ^ 32)

structure GlobalPropertyObject (P : Type) where
  parameters : ChainParameters P
  pendingParameters : Option (ChainParameters P)

structure TransferOperation where
  fee : Asset
  sender : IdNumber
  receiver : IdNumber
  amount : Asset
  memo : Option MemoData

namespace ChainParameters

variable {P : Type}

def currentFeesMember : Member (ChainParameters P) (FeeSchedule P) where
  get := currentFees
  set t c := { t with currentFees := c }
  get_set _ _ := rfl
  set_get _ := rfl
  set_set _ _ _ := rfl

def maintenanceIntervalMember : Member (ChainParameters P) (Fin (2 ^ 32)) where
  get := maintenanceInterval
  set t c := { t with maintenanceInterval := c }
  get_set _ _ := rfl
  set_get _ := rfl
  set_set _ _ _ := rfl

end ChainParameters

namespace GlobalPropertyObject

variable {P : Type}

def parametersMember : Member (GlobalPropertyObject P) (ChainParameters P) where
  get := parameters
  set t c := { t with parameters := c }
  get_set _ _ := rfl
  set_get _ := rfl
  set_set _ _ _ := rfl

def pendingParametersMember :
    Member (GlobalPropertyObject P) (Option (ChainParameters P)) where
  get := pendingParameters
  set t c := { t with pendingParameters := c }
  get_set _ _ := rfl
  set_get _ := rfl
  set_set _ _ _ := rfl

end GlobalPropertyObject

namespace MemoData

def nonceMember : Member MemoData (Fin (2 ^ 64)) where
  get := nonce
  set t c := { t with nonce := c }
  get_set _ _ := rfl
  set_get _ := rfl
  set_set _ _ _ := rfl

end MemoData

namespace TransferOperation

def amountMember : Member TransferOperation Asset where
  get := amount
  set t c := { t with amount := c }
  get_set _ _ := rfl
  set_get _ := rfl
  set_set _ _ _ := rfl

def memoMember : Member TransferOperation (Option MemoData) where
  get := memo
  set t c := { t with memo := c }
  get_set _ _ := rfl
  set_get _ := rfl
  set_set _ _ _ := rfl

end TransferOperation

/-! ## Classes and steps -/

inductive BoundClass
  | globalProperties | chainParameters | feeSchedule | transaction | operation | createProposal
  | transfer | memo
  deriving DecidableEq

/-- The operations' fields, those of `Transfer` written out. -/
abbrev OpFields (F : OpClass → Type) : OpClass → Type
  | .transferOperation => TransferOperation
  | cls => F cls

abbrev BoundClass.Value (P : Type) (F : OpClass → Type) : BoundClass → Type
  | globalProperties => GlobalPropertyObject P
  | chainParameters => ChainParameters P
  | feeSchedule => FeeSchedule P
  | transaction => Transaction (OpFields F)
  | operation => Operation (OpFields F)
  | createProposal => ProposalCreateOperation (OpFields F)
  | transfer => TransferOperation
  | memo => MemoData

namespace BoundClass

variable {P : Type} {F : OpClass → Type} (tag : OpClass → Nat)

def getTransfer : Operation (OpFields F) → Option TransferOperation
  | .mk _ (.plain .transferOperation _ fields) => some fields
  | _ => none

def getProposalCreate : Operation (OpFields F) → Option (ProposalCreateOperation (OpFields F))
  | .mk _ (.proposalCreate fields proposedOps) => some ⟨fields, proposedOps⟩
  | _ => none

def parameters : Step (Value P F) globalProperties chainParameters :=
  .readwrite GlobalPropertyObject.parametersMember

def pendingParameters : Step (Value P F) globalProperties chainParameters :=
  .optional GlobalPropertyObject.pendingParametersMember

def currentFees : Step (Value P F) chainParameters feeSchedule :=
  .smartRef ChainParameters.currentFeesMember

def operations (i : Int) : Step (Value P F) transaction operation :=
  .element Transaction.operationsMember id i

def proposedOperations (i : Int) : Step (Value P F) createProposal operation :=
  .element ProposalCreateOperation.proposedOpsMember OpWrapper.op i

def proposalCreate : Step (Value P F) operation createProposal :=
  .alternative Operation.which (tag .proposalCreateOperation) getProposalCreate

def transferAlternative : Step (Value P F) operation transfer :=
  .alternative Operation.which (tag .transferOperation) getTransfer

def memoOptional : Step (Value P F) transfer memo := .optional TransferOperation.memoMember

end BoundClass

end DCore
