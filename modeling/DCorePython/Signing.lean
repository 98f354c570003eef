import DCorePython.Lib.Machine
import DCorePython.Objects
import DCorePython.Operation

/-!
# Signing a transaction

A signed transaction is a transaction with a list of signatures. The chain's
`sign` appends one; from Python one can also calculate it and assign the longer
list. The setters of the transaction's own attributes do not look at the
signatures, so a signature stays when what it signed has changed.
-/

namespace DCore

open Loop Call

variable {F : OpClass → Type} {Key ChainId Digest BlockId Sig : Type}

structure SignedTransaction (F : OpClass → Type) (Sig : Type) extends Transaction F where
  signatures : List Sig

namespace SignedTransaction

def signaturesMember : Member (SignedTransaction F Sig) (List Sig) where
  get := signatures
  set t c := { t with signatures := c }
  get_set _ _ := rfl
  set_get _ := rfl
  set_set _ _ _ := rfl

/-- `bp::bases<transaction>`: the attributes of the base work on this part. -/
def transactionMember : Member (SignedTransaction F Sig) (Transaction F) where
  get := toTransaction
  set t c := { t with toTransaction := c }
  get_set _ _ := rfl
  set_get _ := rfl
  set_set _ _ _ := rfl

end SignedTransaction

/-- What is used of the chain's transactions and keys. `sig_digest` and
`set_reference_block` are methods of `transaction`, which has no signatures. -/
structure SigningScheme (F : OpClass → Type) (Key ChainId Digest BlockId Sig : Type) where
  sigDigest : Transaction F → ChainId → Digest
  signCompact : Key → Digest → Bool → Except PyErr Sig
  setReferenceBlock : BlockId → Transaction F → Transaction F
  sign : SignedTransaction F Sig → Key → ChainId → Except PyErr (Sig × SignedTransaction F Sig)

/-- The chain's `sign` makes one signature of the transaction as it is without
its signatures, appends it and leaves the rest. -/
def SigningScheme.Appends (S : SigningScheme F Key ChainId Digest BlockId Sig)
    (signatureOf : Transaction F → Key → ChainId → Except PyErr Sig) : Prop :=
  ∀ trx key chainId, S.sign trx key chainId =
    (signatureOf trx.toTransaction key chainId).map fun s =>
      (s, { trx with signatures := trx.signatures ++ [s] })

/-! ## Attributes -/

inductive TrxItem (F : OpClass → Type) (Sig : Type)
  | py (o : PyObj)
  | timePointSec (t : Fin (2 ^ 32))
  | signature (s : Sig)
  | operation (o : OpObj F)

inductive TrxObj (F : OpClass → Type) (Sig : Type)
  | item (i : TrxItem F Sig)
  | list (l : List (TrxItem F Sig))

namespace TrxItem

def asOperation : TrxItem F Sig → OpObj F
  | operation o => o
  | py .none => .none
  | _ => .other

def extractSignature : TrxItem F Sig → Conversion Sig
  | signature s => .built s none
  | _ => .raised .typeError

end TrxItem

namespace TrxObj

def extractUnsigned (w : Nat) : TrxObj F Sig → Conversion (Fin (2 ^ w))
  | item (.py o) => PyObj.extractUnsigned w o
  | _ => .raised .typeError

def extractTime : TrxObj F Sig → Conversion (Fin (2 ^ 32))
  | item (.timePointSec t) => .built t none
  | _ => .raised .typeError

def extractList : TrxObj F Sig → Conversion (List (TrxItem F Sig))
  | list l => .built l none
  | _ => .raised .typeError

end TrxObj

inductive TransactionAttribute
  | refBlockNum | refBlockPrefix | expiration | operations
  deriving DecidableEq, Repr

def assignTransaction [Inhabited (Operation F)] (o : TrxObj F Sig) :
    TransactionAttribute → Call (Transaction F) Unit
  | .refBlockNum => convertThen (o.extractUnsigned 16) fun v t => { t with refBlockNum := v }
  | .refBlockPrefix => convertThen (o.extractUnsigned 32) fun v t => { t with refBlockPrefix := v }
  | .expiration => convertThen o.extractTime fun v t => { t with expiration := v }
  | .operations => do
    let l ← build o.extractList
    Transaction.setOperations (l.map TrxItem.asOperation)

namespace SignedTransaction

def getSignatures (t : SignedTransaction F Sig) : List (TrxItem F Sig) :=
  encodeList (m := Id) TrxItem.signature signaturesMember t

def setSignatures [Inhabited Sig] (l : List (TrxItem F Sig)) :
    Call (SignedTransaction F Sig) Unit :=
  decodeList TrxItem.extractSignature signaturesMember l

end SignedTransaction

/-! ## Statements -/

section
variable (S : SigningScheme F Key ChainId Digest BlockId Sig)

def signTransaction (key : Key) (chainId : ChainId) : Call (SignedTransaction F Sig) Sig := do
  let trx ← current
  let signed ← build (.ofExcept (S.sign trx key chainId))
  onObj fun _ => signed.2
  return signed.1

def calculateSignature {T : Type} (trx : Transaction F) (key : Key) (chainId : ChainId) :
    Call T Sig :=
  build (.ofExcept (S.signCompact key (S.sigDigest trx chainId) true))

/-- `trx.signatures = trx.signatures + [calculate_signature(trx, key, chain_id)]` -/
def addSignature [Inhabited Sig] (key : Key) (chainId : ChainId) :
    Call (SignedTransaction F Sig) Unit := do
  let trx ← current
  let s ← calculateSignature S trx.toTransaction key chainId
  SignedTransaction.setSignatures (trx.getSignatures ++ [.signature s])

end

inductive SigningStatement (F : OpClass → Type) (Key ChainId BlockId Sig : Type)
  | assign (a : TransactionAttribute) (o : TrxObj F Sig)
  | assignSignatures (o : TrxObj F Sig)
  | setReferenceBlock (id : BlockId)
  | sign (key : Key) (chainId : ChainId)
  | addSignature (key : Key) (chainId : ChainId)

namespace SigningStatement

def assignsSignatures : SigningStatement F Key ChainId BlockId Sig → Bool
  | assignSignatures _ => true
  | _ => false

/-- `sign` or its Python form. -/
def signs : SigningStatement F Key ChainId BlockId Sig → Bool
  | sign _ _ => true
  | addSignature _ _ => true
  | _ => false

variable (S : SigningScheme F Key ChainId Digest BlockId Sig) [Inhabited (Operation F)]
  [Inhabited Sig]

def exec : SigningStatement F Key ChainId BlockId Sig →
    Call (SignedTransaction F Sig) (Option Sig)
  | assign a o => do
    onMember SignedTransaction.transactionMember (assignTransaction o a)
    return none
  | assignSignatures o => do
    let l ← build o.extractList
    SignedTransaction.setSignatures l
    return none
  | setReferenceBlock id => do
    onMember SignedTransaction.transactionMember (onObj (S.setReferenceBlock id))
    return none
  | sign key chainId => do
    let s ← signTransaction S key chainId
    return some s
  | addSignature key chainId => do
    DCore.addSignature S key chainId
    return none

def machine : Machine (SignedTransaction F Sig) (SigningStatement F Key ChainId BlockId Sig)
    (Except Fault (Option Sig)) where
  step trx st := settle ((lift (st.exec S)).run ⟨{}, trx⟩)

/-! ## What a statement leaves -/

/-- The transaction without its signatures, behind a statement. -/
def content (t : Transaction F) : SigningStatement F Key ChainId BlockId Sig → Transaction F
  | assign a o => left ((assignTransaction o a).run ⟨{}, t⟩)
  | setReferenceBlock id => S.setReferenceBlock id t
  | _ => t

/-- The signatures that a statement adds: one, over the transaction as it is, or
none. -/
def signatures (signatureOf : Transaction F → Key → ChainId → Except PyErr Sig)
    (t : Transaction F) : SigningStatement F Key ChainId BlockId Sig → List Sig
  | sign key chainId => (signatureOf t key chainId).toOption.toList
  | addSignature key chainId => (S.signCompact key (S.sigDigest t chainId) true).toOption.toList
  | _ => []

end SigningStatement

section
variable {S : SigningScheme F Key ChainId Digest BlockId Sig}
  {signatureOf : Transaction F → Key → ChainId → Except PyErr Sig} (key : Key) (chainId : ChainId)
  (trx : SignedTransaction F Sig)

theorem signTransaction_left (hsign : S.Appends signatureOf) :
    left ((signTransaction S key chainId).run ⟨{}, trx⟩) =
      { trx with signatures := trx.signatures ++
          (signatureOf trx.toTransaction key chainId).toOption.toList } := by
  unfold signTransaction
  rw [run_bind_ok (current_run _), hsign]
  cases signatureOf trx.toTransaction key chainId with
  | error e =>
    show trx = _
    simp [Except.toOption]
  | ok s => rfl

theorem getSignatures_eq : trx.getSignatures = trx.signatures.map .signature := by
  unfold SignedTransaction.getSignatures
  rw [encodeList_eq, mapM_id]
  rfl

variable [Inhabited Sig]

theorem setSignatures_run (sigs : List Sig) (b : Bound (SignedTransaction F Sig)) :
    (SignedTransaction.setSignatures (sigs.map .signature)).run b =
      .ok () ⟨b.interp, { b.obj with signatures := sigs }⟩ :=
  decodeList_map_run TrxItem.extractSignature SignedTransaction.signaturesMember (fun _ => rfl) sigs b

/-- The setter undoes the getter, so the list grows by one. -/
theorem addSignature_left :
    left ((addSignature S key chainId).run ⟨{}, trx⟩) =
      { trx with signatures := trx.signatures ++
          (S.signCompact key (S.sigDigest trx.toTransaction chainId) true).toOption.toList } := by
  unfold addSignature calculateSignature
  rw [run_bind_ok (current_run _)]
  cases S.signCompact key (S.sigDigest trx.toTransaction chainId) true with
  | error e =>
    show trx = _
    simp [Except.toOption]
  | ok s =>
    have hlist : trx.getSignatures ++ [.signature s] =
        (trx.signatures ++ [s]).map (TrxItem.signature (F := F)) := by
      rw [getSignatures_eq, List.map_append]
      rfl
    rw [run_bind_ok (build_ofExcept_ok s _), hlist, setSignatures_run]
    rfl

end

namespace SigningStatement

variable (S : SigningScheme F Key ChainId Digest BlockId Sig) [Inhabited (Operation F)]

theorem content_of_signs {st : SigningStatement F Key ChainId BlockId Sig}
    (h : st.signs = true) (t : Transaction F) : st.content S t = t := by
  cases st with
  | sign key chainId => rfl
  | addSignature key chainId => rfl
  | assign a o => cases h
  | assignSignatures o => cases h
  | setReferenceBlock id => cases h

variable [Inhabited Sig] {S}
  {signatureOf : Transaction F → Key → ChainId → Except PyErr Sig} (hsign : S.Appends signatureOf)
include hsign

theorem machine_step {trx : SignedTransaction F Sig}
    {st : SigningStatement F Key ChainId BlockId Sig} (h : st.assignsSignatures = false) :
    ((machine S).step trx st).1 =
      ⟨st.content S trx.toTransaction,
        trx.signatures ++ st.signatures S signatureOf trx.toTransaction⟩ := by
  unfold machine
  rw [settle_lift_fst]
  cases st with
  | assignSignatures o => cases h
  | assign a o =>
    rw [exec, left_bind_pure _ fun _ => none, left_onMember]
    exact congrArg _ (List.append_nil _).symm
  | setReferenceBlock id =>
    rw [exec, left_bind_pure _ fun _ => none, left_onMember]
    exact congrArg _ (List.append_nil _).symm
  | sign key chainId =>
    rw [exec, left_bind_pure _ some, signTransaction_left key chainId trx hsign]
    rfl
  | addSignature key chainId =>
    rw [exec, left_bind_pure _ fun _ => none, addSignature_left]
    rfl

theorem after_of_unassigned {prog : List (SigningStatement F Key ChainId BlockId Sig)}
    (trx : SignedTransaction F Sig) (h : ∀ st ∈ prog, st.assignsSignatures = false) :
    ((machine S).after trx prog).toTransaction = prog.foldl (content S) trx.toTransaction ∧
      ((machine S).after trx prog).signatures = trx.signatures ++
        Machine.emitted (content S) (signatures S signatureOf) trx.toTransaction prog := by
  refine (machine S).after_of_emits ?_ h
  intro trx st hst
  rw [machine_step hsign hst]
  exact ⟨rfl, rfl⟩

/-- Every signature is over the transaction as it stood then, and none is taken
away when the transaction changes behind it, by an assignment that fails
included. Behind the last change all are over the transaction as it is. -/
theorem signatures_after_run (prog : List (SigningStatement F Key ChainId BlockId Sig))
    (trx : SignedTransaction F Sig) (h : ∀ st ∈ prog, st.assignsSignatures = false) :
    ((machine S).after trx prog).toTransaction = prog.foldl (content S) trx.toTransaction ∧
    ((machine S).after trx prog).signatures = trx.signatures ++
      Machine.emitted (content S) (signatures S signatureOf) trx.toTransaction prog ∧
    ∀ before behind, prog = before ++ behind →
      ((machine S).after trx before).signatures <+: ((machine S).after trx prog).signatures ∧
      ((∀ st ∈ behind, st.signs = true) →
        ((machine S).after trx prog).signatures = ((machine S).after trx before).signatures ++
          behind.flatMap (signatures S signatureOf ((machine S).after trx prog).toTransaction)) := by
  refine ⟨(after_of_unassigned hsign trx h).1, (after_of_unassigned hsign trx h).2, ?_⟩
  rintro before behind rfl
  obtain ⟨-, hnone⟩ := List.forall_mem_append.mp h
  obtain ⟨hcontent, hsigs⟩ := after_of_unassigned hsign ((machine S).after trx before) hnone
  rw [Machine.after_append, hsigs, hcontent]
  refine ⟨List.prefix_append _ _, ?_⟩
  intro hbehind
  have hkept : ∀ st ∈ behind, content S ((machine S).after trx before).toTransaction st =
      ((machine S).after trx before).toTransaction :=
    fun st hst => content_of_signs S (hbehind st hst) _
  rw [Machine.foldl_of_kept hkept, Machine.emitted_of_kept hkept]

end SigningStatement

/-! ## An instance -/

section

instance : Inhabited (Operation fun _ => Unit) :=
  ⟨.mk 0 (.plain .transferOperation OpClass.noConfusion ())⟩

/-- A scheme whose signatures show what they are made of. -/
def plainScheme (F : OpClass → Type) :
    SigningScheme F Nat Nat (Fin (2 ^ 32) × Nat) Nat (Nat × Fin (2 ^ 32) × Nat) where
  sigDigest t chainId := (t.expiration, chainId)
  signCompact key digest _ := if key = 0 then .error .runtimeError else .ok (key, digest)
  setReferenceBlock id t := { t with refBlockPrefix := Fin.ofNat _ id }
  sign trx key chainId :=
    if key = 0 then .error .runtimeError
    else .ok ((key, trx.expiration, chainId),
      { trx with signatures := trx.signatures ++ [(key, trx.expiration, chainId)] })

def plainSignature {F : OpClass → Type} (t : Transaction F) (key chainId : Nat) :
    Except PyErr (Nat × Fin (2 ^ 32) × Nat) :=
  if key = 0 then .error .runtimeError else .ok (key, t.expiration, chainId)

theorem plainScheme_appends (F : OpClass → Type) : (plainScheme F).Appends plainSignature := by
  intro trx key chainId
  unfold plainScheme plainSignature
  by_cases h : key = 0
  · simp only [if_pos h]
    rfl
  · simp only [if_neg h]
    rfl

def unsignedTrx (F : OpClass → Type) : SignedTransaction F (Nat × Fin (2 ^ 32) × Nat) :=
  ⟨⟨0, 0, 0, []⟩, []⟩

theorem signatures_after_run_expiration :
    ((SigningStatement.machine (plainScheme fun _ => Unit)).after (unsignedTrx _)
      [.sign 1 7, .assign .expiration (.item (.timePointSec 30)), .addSignature 0 7,
        .addSignature 2 7]).signatures = [(1, 0, 7), (2, 30, 7)] :=
  (SigningStatement.signatures_after_run (plainScheme_appends fun _ => Unit)
    [.sign 1 7, .assign .expiration (.item (.timePointSec 30)), .addSignature 0 7,
      .addSignature 2 7] (unsignedTrx _) (by simp [SigningStatement.assignsSignatures])).2.1.trans
    rfl

end

end DCore
