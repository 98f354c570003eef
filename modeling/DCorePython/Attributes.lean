import DCorePython.Module
import DCorePython.Objects

/-!
# Bound classes with collections

Registrations in account.cpp and operation.cpp of attributes that are sets and
dicts.
-/

namespace DCore

open PyObj

abbrev Weight := Fin (2 ^ 16)

instance neZero_weight : NeZero (2 ^ 16) := ⟨by decide⟩

structure Asset where
  amount : Int
  assetId : IdNumber
  deriving DecidableEq

structure MemoData where
  sender : PublicKey
  receiver : PublicKey
  nonce : Fin (2 ^ 64)
  message : List UInt8
  deriving DecidableEq

/-! ## `Authority` -/

structure Authority where
  weightThreshold : Fin (2 ^ 32)
  accountAuths : OrderedMap IdNumber Weight
  keyAuths : OrderedMap PublicKey Weight
  deriving DecidableEq

namespace Authority

def accountAuthsMember : Member Authority (OrderedMap IdNumber Weight) where
  get := accountAuths
  set t c := { t with accountAuths := c }
  get_set _ _ := rfl
  set_get _ := rfl
  set_set _ _ _ := rfl

def keyAuthsMember : Member Authority (OrderedMap PublicKey Weight) where
  get := keyAuths
  set t c := { t with keyAuths := c }
  get_set _ _ := rfl
  set_get _ := rfl
  set_set _ _ _ := rfl

def weightThresholdMember : Member Authority (Fin (2 ^ 32)) where
  get := weightThreshold
  set t c := { t with weightThreshold := c }
  get_set _ _ := rfl
  set_get _ := rfl
  set_set _ _ _ := rfl

def setWeightThreshold (o : PyObj) : Call Authority Unit :=
  convertThen (extractUnsigned 32 o) fun v t => weightThresholdMember.set t v

def setAccountAuths (order : EvalOrder) (d : PyDict PyObj) : Call Authority Unit :=
  decodeDict order (extractId .accountId) (extractUnsigned 16) accountAuthsMember d

def setKeyAuths (order : EvalOrder) (d : PyDict PyObj) : Call Authority Unit :=
  decodeDict order extractPublicKey (extractUnsigned 16) keyAuthsMember d

end Authority

/-! ## `UpdateProposal` -/

structure ProposalUpdateOperation where
  fee : Asset
  feePayingAccount : IdNumber
  proposal : IdNumber
  activeApprovalsToAdd : ValueSet IdNumber
  activeApprovalsToRemove : ValueSet IdNumber
  ownerApprovalsToAdd : ValueSet IdNumber
  ownerApprovalsToRemove : ValueSet IdNumber
  keyApprovalsToAdd : ValueSet PublicKey
  keyApprovalsToRemove : ValueSet PublicKey
  deriving DecidableEq

namespace ProposalUpdateOperation

def activeApprovalsToAddMember : Member ProposalUpdateOperation (ValueSet IdNumber) where
  get := activeApprovalsToAdd
  set t c := { t with activeApprovalsToAdd := c }
  get_set _ _ := rfl
  set_get _ := rfl
  set_set _ _ _ := rfl

def keyApprovalsToAddMember : Member ProposalUpdateOperation (ValueSet PublicKey) where
  get := keyApprovalsToAdd
  set t c := { t with keyApprovalsToAdd := c }
  get_set _ _ := rfl
  set_get _ := rfl
  set_set _ _ _ := rfl

def setActiveApprovalsToAdd (l : List PyObj) : Call ProposalUpdateOperation Unit :=
  decodeSet (extractId .accountId) activeApprovalsToAddMember l

def setKeyApprovalsToAdd (l : List PyObj) : Call ProposalUpdateOperation Unit :=
  decodeSet extractPublicKey keyApprovalsToAddMember l

end ProposalUpdateOperation

end DCore
