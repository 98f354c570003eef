import DCorePython.Lib.Text
import DCorePython.Python

/-!
# Python objects

The values that are handed to the bound classes as elements, keys and scalar
arguments: `None`, numbers, strings, ids, public keys and votes. Every object of
another class is one of the others, which no converter takes; `bytes` objects
are left out, which Boost.Python takes for a `std::string` as well.

Instances of bound classes have an address: their classes do not define
`__eq__`, so a dict takes two of them for the same key only when they are one
object. Numbers and strings compare by value.
-/

namespace DCore

inductive IdClass
  | accountId | assetId | minerId | proposalId | operationHistoryId | withdrawPermissionId
  | vestingBalanceId | nonFungibleTokenId | nonFungibleTokenDataId | globalPropertyId
  | dynamicGlobalPropertyId | assetDynamicDataId | accountBalanceId | accountStatisticsId
  | transactionId | blockSummaryId | accountTransactionHistoryId | chainPropertyId
  | minerScheduleId | budgetRecordId | buyingId | contentId | seederId | subscriptionId
  | seedingStatisticsId | transactionDetailId | messageId | transactionHistoryId
  deriving DecidableEq, Repr

abbrev IdNumber := Fin (2 ^ 64)

/-- A compressed public key, its 33 bytes read as one number. -/
abbrev PublicKey := Fin (256 ^ 33)

abbrev VoteId := Fin (2 ^ 32)

instance neZero_idNumber : NeZero (2 ^ 64) := ⟨by decide⟩

instance neZero_voteId : NeZero (2 ^ 32) := ⟨by decide⟩

instance neZero_publicKey : NeZero (256 ^ 33) := ⟨by decide⟩

structure KeyOperators where
  hash : IdNumber → Nat
  eq : Option (IdNumber → IdNumber → Bool)

/-- What `register_object_id` defines: `__hash__` is the number of the id, as
CPython reduces it to a hash, and there is no `__eq__`. -/
def registerObjectId : KeyOperators where
  hash n := if n.val < 2 ^ 63 then n.val else n.val % (2 ^ 61 - 1)
  eq := none

inductive PyObj
  | none
  | bool (b : Bool)
  | int (n : Int)
  | str (s : List CodePoint)
  | id (addr : Nat) (cls : IdClass) (number : IdNumber)
  | publicKey (addr : Nat) (key : PublicKey)
  | voteId (addr : Nat) (vote : VoteId)
  | other (addr : Nat)
  deriving DecidableEq, Repr

namespace PyObj

def asInt? : PyObj → Option Int
  | bool b => some (if b then 1 else 0)
  | int n => some n
  | _ => Option.none

def addr? : PyObj → Option Nat
  | id a _ _ => some a
  | publicKey a _ => some a
  | voteId a _ => some a
  | other a => some a
  | _ => Option.none

/-- `bool(o)`; instances of the bound classes are true. -/
def truth : PyObj → Bool
  | none => false
  | bool b => b
  | int n => n != 0
  | str s => !s.isEmpty
  | _ => true

def sameKey (x y : PyObj) : Bool :=
  match x, y with
  | id a c m, id a' c' n =>
    registerObjectId.hash m == registerObjectId.hash n &&
      (a == a' || match registerObjectId.eq with
        | some eq => c == c' && eq m n
        | Option.none => false)
  | _, _ =>
    match x.addr?, y.addr? with
    | some a, some b => a == b
    | Option.none, Option.none =>
      match x.asInt?, y.asInt? with
      | some m, some n => m == n
      | _, _ => x == y
    | _, _ => false

instance : PyObject PyObj where
  none := none
  isNone o := o == none
  isNone_iff o := by simp
  same := sameKey
  same_refl o := by cases o <;> simp [sameKey, addr?, asInt?]

/-! ## Converters of parameters and elements -/

def extractUnsigned (w : Nat) (o : PyObj) : Conversion (Fin (2 ^ w)) :=
  match o.asInt? with
  | some n =>
    if h : 0 ≤ n ∧ n < 2 ^ w then
      .built ⟨n.toNat, by
        have : (n.toNat : Int) < ((2 ^ w : Nat) : Int) := by
          rw [Int.toNat_of_nonneg h.1]; exact_mod_cast h.2
        exact_mod_cast this⟩ Option.none
    else .raised .overflowError
  | Option.none => .raised .typeError

/-- Boost.Python takes `None`, bools and ints for a `bool`, by their truth. -/
def extractBool : PyObj → Conversion Bool
  | none => .built false Option.none
  | bool b => .built b Option.none
  | int n => .built (n != 0) Option.none
  | _ => .raised .typeError

def extractId (cls : IdClass) : PyObj → Conversion IdNumber
  | id _ c n => if c = cls then .built n Option.none else .raised .typeError
  | _ => .raised .typeError

def extractPublicKey : PyObj → Conversion PublicKey
  | publicKey _ k => .built k Option.none
  | _ => .raised .typeError

def extractVoteId : PyObj → Conversion VoteId
  | voteId _ v => .built v Option.none
  | _ => .raised .typeError

theorem truth_of_extractBool {o : PyObj} {b : Bool} (h : (extractBool o).value? = some b) :
    o.truth = b := by
  cases o <;> cases h <;> rfl

theorem extractBool_of_none_or_int {o : PyObj} (h : o = none ∨ o.asInt?.isSome) :
    extractBool o = .built o.truth Option.none := by
  cases o with
  | none => rfl
  | bool b => rfl
  | int n => rfl
  | _ => rcases h with h | h <;> cases h

/-! ## Converters of `std::string` -/

def extractString : PyObj → Conversion (List UInt8)
  | str s =>
    match Text.encode s with
    | some bs => .built bs Option.none
    | Option.none => .raised .unicodeEncodeError
  | _ => .raised .typeError

def ofString (bs : List UInt8) : Except PyErr PyObj :=
  match Text.decode bs with
  | some s => .ok (.str s)
  | Option.none => .error .unicodeDecodeError

theorem extractString_of_encode {s : List CodePoint} {bs : List UInt8}
    (h : Text.encode s = some bs) : extractString (.str s) = .built bs Option.none := by
  simp only [extractString, h]

theorem ofString_of_encode {s : List CodePoint} {bs : List UInt8}
    (h : Text.encode s = some bs) : ofString bs = .ok (.str s) := by
  simp only [ofString, Text.decode_encode h]

theorem extractUnsigned_natCast {w n : Nat} (h : n < 2 ^ w) :
    extractUnsigned w (.int n) = .built ⟨n, h⟩ Option.none := by
  have hrange : 0 ≤ (n : Int) ∧ (n : Int) < 2 ^ w := ⟨by omega, by exact_mod_cast h⟩
  simp only [extractUnsigned, asInt?]
  rw [dif_pos hrange]
  rfl

theorem extractUnsigned_of_le {w n : Nat} (h : 2 ^ w ≤ n) :
    extractUnsigned w (.int n) = .raised .overflowError := by
  have hrange : ¬ (0 ≤ (n : Int) ∧ (n : Int) < 2 ^ w) := by
    intro hn
    exact absurd (by exact_mod_cast hn.2) (Nat.not_lt.mpr h)
  simp only [extractUnsigned, asInt?]
  rw [dif_neg hrange]

end PyObj

end DCore
