import DCorePython.Attributes
import DCorePython.Variants

/-!
# Operations

An operation is a variant over 44 payload classes. The Python class has one
constructor for each class and one attribute for each class; both tables are
written out by hand in operation.cpp. A proposal carries a list of operations,
each in a wrapper, so payloads and operations nest.
-/

namespace DCore

open Loop Call

inductive OpClass
  | accountCreateOperation | accountUpdateOperation | assetCreateOperation | assetIssueOperation
  | assetPublishFeedOperation | minerCreateOperation | minerUpdateOperation
  | minerUpdateGlobalParametersOperation | proposalCreateOperation | proposalUpdateOperation
  | proposalDeleteOperation | withdrawPermissionCreateOperation
  | withdrawPermissionUpdateOperation | withdrawPermissionClaimOperation
  | withdrawPermissionDeleteOperation | vestingBalanceCreateOperation
  | vestingBalanceWithdrawOperation | customOperation | assertOperation | contentSubmitOperation
  | requestToBuyOperation | leaveRatingAndCommentOperation | proofOfCustodyOperation
  | deliverKeysOperation | subscribeOperation | subscribeByAuthorOperation
  | automaticRenewalOfSubscriptionOperation | reportStatsOperation
  | setPublishingManagerOperation | setPublishingRightOperation | contentCancellationOperation
  | assetFundPoolsOperation | assetReserveOperation | assetClaimFeesOperation
  | updateUserIssuedAssetOperation | updateMonitoredAssetOperation | readyToPublishOperation
  | transferOperation | updateUserIssuedAssetAdvancedOperation
  | nonFungibleTokenCreateDefinitionOperation | nonFungibleTokenUpdateDefinitionOperation
  | nonFungibleTokenIssueOperation | nonFungibleTokenTransferOperation
  | nonFungibleTokenUpdateDataOperation
  deriving DecidableEq, Repr

structure ProposalFields where
  fee : Asset
  feePayingAccount : IdNumber
  expirationTime : Fin (2 ^ 32)
  reviewPeriodSeconds : Option (Fin (2 ^ 32))
  deriving DecidableEq

mutual

/-- A payload. The fields of the classes other than `CreateProposal` are those
that the family `F` gives. -/
inductive Payload (F : OpClass → Type)
  | plain (cls : OpClass) (h : cls ≠ .proposalCreateOperation) (fields : F cls)
  | proposalCreate (fields : ProposalFields) (proposedOps : List (OpWrapper F))

inductive Operation (F : OpClass → Type)
  | mk (which : Nat) (value : Payload F)

inductive OpWrapper (F : OpClass → Type)
  | mk (op : Operation F)

end

variable {F : OpClass → Type}

namespace Payload

def cls : Payload F → OpClass
  | plain cls _ _ => cls
  | proposalCreate _ _ => .proposalCreateOperation

end Payload

namespace Operation

def which : Operation F → Nat
  | mk which _ => which

def value : Operation F → Payload F
  | mk _ value => value

end Operation

namespace OpWrapper

def op : OpWrapper F → Operation F
  | mk op => op

instance [Inhabited (Operation F)] : Inhabited (OpWrapper F) := ⟨⟨default⟩⟩

end OpWrapper

/-! ## The class `Operation` -/

abbrev OpObj (F : OpClass → Type) := VariantObj (Payload F) (Operation F)

def operationInits : List OpClass :=
  [.accountCreateOperation, .accountUpdateOperation, .assetCreateOperation,
    .assetIssueOperation, .assetPublishFeedOperation, .minerCreateOperation,
    .minerUpdateOperation, .minerUpdateGlobalParametersOperation, .proposalCreateOperation,
    .proposalUpdateOperation, .proposalDeleteOperation, .withdrawPermissionCreateOperation,
    .withdrawPermissionUpdateOperation, .withdrawPermissionClaimOperation,
    .withdrawPermissionDeleteOperation, .vestingBalanceCreateOperation,
    .vestingBalanceWithdrawOperation, .customOperation, .assertOperation,
    .contentSubmitOperation, .requestToBuyOperation, .leaveRatingAndCommentOperation,
    .proofOfCustodyOperation, .deliverKeysOperation, .subscribeOperation,
    .subscribeByAuthorOperation, .automaticRenewalOfSubscriptionOperation, .reportStatsOperation,
    .setPublishingManagerOperation, .setPublishingRightOperation, .contentCancellationOperation,
    .assetFundPoolsOperation, .assetReserveOperation, .assetClaimFeesOperation,
    .updateUserIssuedAssetOperation, .updateMonitoredAssetOperation, .readyToPublishOperation,
    .transferOperation, .updateUserIssuedAssetAdvancedOperation,
    .nonFungibleTokenCreateDefinitionOperation, .nonFungibleTokenUpdateDefinitionOperation,
    .nonFungibleTokenIssueOperation, .nonFungibleTokenTransferOperation,
    .nonFungibleTokenUpdateDataOperation]

/-- The attributes, each with the class that its `decode_static_variant`
reads. -/
def operationAttributes : List (String × OpClass) :=
  [("account_create", .accountCreateOperation),
    ("account_update", .accountUpdateOperation),
    ("asset_create", .assetCreateOperation),
    ("asset_issue", .assetIssueOperation),
    ("asset_publish_feed", .assetPublishFeedOperation),
    ("miner_create", .minerCreateOperation),
    ("miner_update", .minerUpdateOperation),
    ("update_global_parameters", .minerUpdateGlobalParametersOperation),
    ("proposal_create", .proposalCreateOperation),
    ("proposal_update", .proposalUpdateOperation),
    ("proposal_delete", .proposalDeleteOperation),
    ("withdraw_permission_create", .withdrawPermissionCreateOperation),
    ("withdraw_permission_update", .withdrawPermissionUpdateOperation),
    ("withdraw_permission_claim", .withdrawPermissionClaimOperation),
    ("withdraw_permission_delete", .withdrawPermissionDeleteOperation),
    ("vesting_balance_create", .vestingBalanceCreateOperation),
    ("vesting_balance_withdraw", .vestingBalanceWithdrawOperation),
    ("custom", .customOperation),
    ("assert", .assertOperation),
    ("content_submit", .contentSubmitOperation),
    ("request_to_buy", .requestToBuyOperation),
    ("leave_rating_and_comment", .leaveRatingAndCommentOperation),
    ("proof_of_custody", .proofOfCustodyOperation),
    ("deliver_keys", .deliverKeysOperation),
    ("subscribe_to_author", .subscribeOperation),
    ("subscribe_by_author", .subscribeByAuthorOperation),
    ("automatic_renewal_of_subscription", .automaticRenewalOfSubscriptionOperation),
    ("report_statistics", .reportStatsOperation),
    ("set_publishing_manager", .setPublishingManagerOperation),
    ("set_publishing_right", .setPublishingRightOperation),
    ("content_cancellation", .contentCancellationOperation),
    ("asset_fund_pools", .assetFundPoolsOperation),
    ("asset_reserve", .assetReserveOperation),
    ("asset_claim_fees", .assetClaimFeesOperation),
    ("update_user_issued_asset", .updateUserIssuedAssetOperation),
    ("update_monitored_asset", .updateMonitoredAssetOperation),
    ("ready_to_publish", .readyToPublishOperation),
    ("transfer", .transferOperation),
    ("update_user_issued_asset_advanced", .updateUserIssuedAssetAdvancedOperation),
    ("non_fungible_token_create", .nonFungibleTokenCreateDefinitionOperation),
    ("non_fungible_token_update", .nonFungibleTokenUpdateDefinitionOperation),
    ("non_fungible_token_issue", .nonFungibleTokenIssueOperation),
    ("non_fungible_token_transfer", .nonFungibleTokenTransferOperation),
    ("non_fungible_token_data_update", .nonFungibleTokenUpdateDataOperation)]

def operationClass (F : OpClass → Type) (tag : OpClass → Nat) :
    VariantClass OpClass (Payload F) (Operation F) where
  inits := operationInits
  attributes := operationAttributes
  tag := tag
  cls := Payload.cls
  pack := Operation.mk
  which := Operation.which
  value := Operation.value
  which_pack _ _ := rfl
  value_pack _ _ := rfl

def extractOperation : OpObj F → Conversion (Operation F) := extractVariant

def extractOpWrapper (o : OpObj F) : Conversion (OpWrapper F) :=
  match extractOperation o with
  | .built op p => .built ⟨op⟩ p
  | .raised e => .raised e

/-! ## `Transaction.operations` -/

structure Transaction (F : OpClass → Type) where
  refBlockNum : Fin (2 ^ 16)
  refBlockPrefix : Fin (2 ^ 32)
  expiration : Fin (2 ^ 32)
  operations : List (Operation F)

namespace Transaction

def operationsMember : Member (Transaction F) (List (Operation F)) where
  get := operations
  set t c := { t with operations := c }
  get_set _ _ := rfl
  set_get _ := rfl
  set_set _ _ _ := rfl

def getOperations (t : Transaction F) : List (OpObj F) :=
  encodeList (m := Id) VariantObj.variant operationsMember t

def setOperations [Inhabited (Operation F)] (l : List (OpObj F)) : Call (Transaction F) Unit :=
  decodeList extractOperation operationsMember l

end Transaction

/-! ## `CreateProposal.proposed_operations` -/

structure ProposalCreateOperation (F : OpClass → Type) where
  fields : ProposalFields
  proposedOps : List (OpWrapper F)

namespace ProposalCreateOperation

def proposedOpsMember : Member (ProposalCreateOperation F) (List (OpWrapper F)) where
  get := proposedOps
  set t c := { t with proposedOps := c }
  get_set _ _ := rfl
  set_get _ := rfl
  set_set _ _ _ := rfl

end ProposalCreateOperation

def encodeProposedOperations (op : ProposalCreateOperation F) : List (OpObj F) :=
  op.proposedOps.foldl (fun l v => l ++ [.variant v.op]) []

def decodeProposedOperations [Inhabited (Operation F)] (l : List (OpObj F)) :
    Call (ProposalCreateOperation F) Unit := do
  onObj fun op => { op with proposedOps := resize op.proposedOps l.length }
  whileDown (fun len => do
    let o ← getItem l len
    let v ← build (extractOperation o)
    onObj fun op => { op with proposedOps := op.proposedOps.set len ⟨v⟩ }) l.length

section
variable [Inhabited (Operation F)]

theorem decodeProposedOperations_eq (l : List (OpObj F)) :
    decodeProposedOperations l =
      decodeList extractOpWrapper ProposalCreateOperation.proposedOpsMember l := by
  unfold decodeProposedOperations decodeList
  congr 1
  funext _
  congr 1
  funext len
  congr 1
  funext o
  cases ho : extractOperation o <;> simp only [extractOpWrapper, ho] <;> rfl

end

theorem encodeProposedOperations_eq (op : ProposalCreateOperation F) :
    encodeProposedOperations op = op.proposedOps.map fun v => .variant v.op := by
  unfold encodeProposedOperations
  rw [List.map_eq_flatMap]
  exact List.foldl_append_eq_append (f := fun v : OpWrapper F => [VariantObj.variant v.op])

end DCore
