import DCorePython.Attributes
import DCorePython.Codecs

/-!
# Token data

The converter between Python objects and `fc::variant`, and the data of an
`IssueNonFungibleToken`. The values that a variant can hold faithfully are read
back as they were.
-/

namespace DCore

open Loop

/-- The kinds of `fc::variant`; doubles are their 64 bits. -/
inductive Variant
  | null
  | int64 (v : Int64)
  | uint64 (v : UInt64)
  | double (bits : UInt64)
  | bool (b : Bool)
  | string (s : List UInt8)
  | array (vs : List Variant)
  | object (entries : List (List UInt8 × Variant))
  | blob (data : List UInt8)

instance : Inhabited Variant := ⟨.null⟩

/-! ## C functions of CPython -/

/-- `PyLong_AsLongLongAndOverflow`: the value, or -1 and an overflow flag. -/
def asLongLongAndOverflow (n : Int) : Int64 × Int :=
  if 2 ^ 63 ≤ n then (-1, 1)
  else if n < -2 ^ 63 then (-1, -1)
  else (.ofInt n, 0)

/-- `PyLong_AsUnsignedLongLong`: out of range it gives 2^64 - 1 and leaves an
error pending. -/
def asUnsignedLongLong (n : Int) : UInt64 × Option PyErr :=
  if 0 ≤ n ∧ n < 2 ^ 64 then (.ofNat n.toNat, none) else (18446744073709551615, some .overflowError)

/-- `std::string` of what `PyUnicode_AsUTF8` gives: it ends at the first zero
byte, and throws when that is null. -/
def stringAsUTF8 (s : List CodePoint) : Except PyErr (List UInt8) :=
  match Text.encode s with
  | some bs => .ok (Text.cString bs)
  | none => .error .runtimeError

/-! ## `variant_converter` -/

namespace VariantConverter

def convert : Variant → Except PyErr PyObj
  | .bool b => .ok (.bool b)
  | .int64 v => .ok (.int v.toInt)
  | .uint64 v => .ok (.int v.toNat)
  | .string bs =>
    match Text.decode (Text.cString bs) with
    | some s => .ok (.str s)
    | none => .error .unicodeDecodeError
  | _ => .ok .none

def convertible : PyObj → Bool
  | .none | .bool _ | .int _ | .str _ => true
  | _ => false

def construct : PyObj → Conversion Variant
  | .bool b => .built (.bool b) none
  | .int n =>
    match asLongLongAndOverflow n with
    | (v, 0) => .built (.int64 v) none
    | _ => match asUnsignedLongLong n with
      | (v, leaves) => .built (.uint64 v) leaves
  | .str s =>
    match stringAsUTF8 s with
    | .ok bs => .built (.string bs) none
    | .error e => .raised e
  | _ => .built .null none

def extract (o : PyObj) : Conversion Variant :=
  if convertible o then construct o else .raised .typeError

end VariantConverter

/-! ## What a variant holds -/

/-- The values that a variant can hold as they are. -/
def Faithful : PyObj → Prop
  | .none | .bool _ => True
  | .int n => -2 ^ 63 ≤ n ∧ n < 2 ^ 64
  | .str s => (Text.encode s).isSome ∧ 0 ∉ s
  | _ => False

def Rejected : PyObj → Prop
  | .none | .bool _ | .int _ => False
  | .str s => Text.encode s = none
  | _ => True

theorem asLongLongAndOverflow_of_mem {n : Int} (h : -2 ^ 63 ≤ n) (h' : n < 2 ^ 63) :
    asLongLongAndOverflow n = (.ofInt n, 0) := by
  unfold asLongLongAndOverflow
  rw [if_neg (by omega), if_neg (by omega)]

theorem asLongLongAndOverflow_of_le {n : Int} (h : 2 ^ 63 ≤ n) :
    asLongLongAndOverflow n = (-1, 1) := if_pos h

theorem extract_int_of_lt {n : Int} (h : -2 ^ 63 ≤ n) (h' : n < 2 ^ 63) :
    VariantConverter.extract (.int n) = .built (.int64 (.ofInt n)) none := by
  simp [VariantConverter.extract, VariantConverter.convertible, VariantConverter.construct,
    asLongLongAndOverflow_of_mem h h']

theorem extract_int_of_le {n : Int} (h : 2 ^ 63 ≤ n) (h' : n < 2 ^ 64) :
    VariantConverter.extract (.int n) = .built (.uint64 (.ofNat n.toNat)) none := by
  have hu : asUnsignedLongLong n = (.ofNat n.toNat, none) := if_pos ⟨by omega, h'⟩
  simp [VariantConverter.extract, VariantConverter.convertible, VariantConverter.construct,
    asLongLongAndOverflow_of_le h, hu]

/-- An int out of range is built as another one, with the error pending. -/
theorem extract_int_of_not_faithful {n : Int} (h : ¬ Faithful (.int n)) :
    VariantConverter.extract (.int n) =
      .built (.uint64 18446744073709551615) (some .overflowError) := by
  simp only [Faithful, not_and_or, not_le, not_lt] at h
  have hu : asUnsignedLongLong n = (18446744073709551615, some .overflowError) :=
    if_neg (by omega)
  have hl : asLongLongAndOverflow n = (-1, 1) ∨ asLongLongAndOverflow n = (-1, -1) := by
    rcases h with h | h
    · exact .inr (by rw [asLongLongAndOverflow, if_neg (by omega), if_pos h])
    · exact .inl (asLongLongAndOverflow_of_le (by omega))
  rcases hl with hl | hl <;>
    simp [VariantConverter.extract, VariantConverter.convertible, VariantConverter.construct, hl, hu]

theorem extract_int (n : Int) : ∃ v p, VariantConverter.extract (.int n) = .built v p := by
  by_cases h : Faithful (.int n)
  · obtain ⟨hlow, hhigh⟩ := h
    by_cases hn : n < 2 ^ 63
    · exact ⟨_, _, extract_int_of_lt hlow hn⟩
    · exact ⟨_, _, extract_int_of_le (by omega) hhigh⟩
  · exact ⟨_, _, extract_int_of_not_faithful h⟩

theorem extract_str (s : List CodePoint) :
    VariantConverter.extract (.str s) = match Text.encode s with
      | some bs => .built (.string (Text.cString bs)) none
      | none => .raised .runtimeError := by
  simp only [VariantConverter.extract, VariantConverter.convertible, VariantConverter.construct,
    if_true, stringAsUTF8]
  cases Text.encode s <;> rfl

theorem convert_int64 {n : Int} (h : -2 ^ 63 ≤ n) (h' : n < 2 ^ 63) :
    VariantConverter.convert (.int64 (.ofInt n)) = .ok (.int n) := by
  rw [VariantConverter.convert, Int64.toInt_ofInt_of_le h h']

theorem convert_uint64 {n : Int} (h : 2 ^ 63 ≤ n) (h' : n < 2 ^ 64) :
    VariantConverter.convert (.uint64 (.ofNat n.toNat)) = .ok (.int n) := by
  have hsize : n.toNat < UInt64.size := by show _ < 2 ^ 64; omega
  rw [VariantConverter.convert, UInt64.toNat_ofNat_of_lt' hsize, Int.toNat_of_nonneg (by omega)]

/-- A faithful value is built without an error and read back as it was. -/
theorem extract_faithful {o : PyObj} (h : Faithful o) :
    ∃ v, VariantConverter.extract o = .built v none ∧ VariantConverter.convert v = .ok o := by
  cases o with
  | none => exact ⟨.null, rfl, rfl⟩
  | bool b => exact ⟨.bool b, rfl, rfl⟩
  | int n =>
    obtain ⟨hlow, hhigh⟩ := h
    by_cases hn : n < 2 ^ 63
    · exact ⟨_, extract_int_of_lt hlow hn, convert_int64 hlow hn⟩
    · have hle : 2 ^ 63 ≤ n := by omega
      exact ⟨_, extract_int_of_le hle hhigh, convert_uint64 hle hhigh⟩
  | str s =>
    obtain ⟨henc, hzero⟩ := h
    obtain ⟨bs, hbs⟩ := Option.isSome_iff_exists.mp henc
    have hc : Text.cString bs = bs := by
      rw [Text.cString_eq_self_iff, Text.zero_mem_encode hbs]
      exact hzero
    refine ⟨.string bs, ?_, ?_⟩
    · rw [extract_str, hbs]
      simp only [hc]
    · rw [VariantConverter.convert, hc, Text.decode_encode hbs]
  | id a c n => cases h
  | publicKey a k => cases h
  | voteId a v => cases h
  | other a => cases h

theorem rejected_iff (o : PyObj) :
    Rejected o ↔ convertible VariantConverter.extract o = false := by
  unfold convertible
  rw [Option.isSome_eq_false_iff, Option.isNone_iff_eq_none]
  cases o with
  | none => exact iff_of_false id (by rintro ⟨⟩)
  | bool b => exact iff_of_false id (by rintro ⟨⟩)
  | int n =>
    obtain ⟨v, p, h⟩ := extract_int n
    rw [h]
    exact iff_of_false id (by rintro ⟨⟩)
  | str s =>
    rw [extract_str, Rejected]
    cases Text.encode s with
    | none => exact iff_of_true rfl rfl
    | some bs => exact iff_of_false (by rintro ⟨⟩) (by rintro ⟨⟩)
  | id a c n => exact iff_of_true trivial rfl
  | publicKey a k => exact iff_of_true trivial rfl
  | voteId a v => exact iff_of_true trivial rfl
  | other a => exact iff_of_true trivial rfl

theorem convertible_of_faithful {o : PyObj} (h : Faithful o) :
    convertible VariantConverter.extract o = true := by
  obtain ⟨v, hv, -⟩ := extract_faithful h
  unfold convertible
  rw [hv]
  rfl

theorem not_faithful_of_rejected {o : PyObj} (h : Rejected o) : ¬ Faithful o := by
  intro hf
  have := (rejected_iff o).mp h
  rw [convertible_of_faithful hf] at this
  cases this

/-! ## `IssueNonFungibleToken.data` -/

structure NonFungibleTokenIssueOperation where
  fee : Asset
  issuer : IdNumber
  receiver : IdNumber
  nftId : IdNumber
  data : List Variant
  memo : Option MemoData

namespace NonFungibleTokenIssueOperation

def dataMember : Member NonFungibleTokenIssueOperation (List Variant) where
  get := data
  set t c := { t with data := c }
  get_set _ _ := rfl
  set_get _ := rfl
  set_set _ _ _ := rfl

def getData (op : NonFungibleTokenIssueOperation) : Except PyErr (List PyObj) :=
  encodeList VariantConverter.convert dataMember op

def setData (l : List PyObj) : Call NonFungibleTokenIssueOperation Unit :=
  decodeList VariantConverter.extract dataMember l

end NonFungibleTokenIssueOperation

theorem mapM_convert_values {l : List PyObj} (h : ∀ o ∈ l, Faithful o) :
    (values VariantConverter.extract l).mapM VariantConverter.convert = .ok l := by
  induction l with
  | nil => rfl
  | cons o l ih =>
    obtain ⟨ho, hl⟩ := List.forall_mem_cons.mp h
    obtain ⟨v, hv, hback⟩ := extract_faithful ho
    rw [values_cons (a := v) (by rw [hv]; rfl), List.mapM_cons, hback, ih hl]
    rfl

theorem leaveAll_faithful {l : List PyObj} (h : ∀ o ∈ l, Faithful o) (i : Interp) :
    leaveAll VariantConverter.extract l i = i := by
  induction l with
  | nil => rfl
  | cons o l ih =>
    obtain ⟨ho, hl⟩ := List.forall_mem_cons.mp h
    obtain ⟨v, hv, -⟩ := extract_faithful ho
    have hc : leaveAll VariantConverter.extract (o :: l) i =
        (leaveAll VariantConverter.extract l i).leave (VariantConverter.extract o).leaves := rfl
    rw [hc, hv, ih hl]
    rfl

/-- Faithful token data is read back as it was assigned, whatever the operation
held, and leaves no error pending. -/
theorem token_data_read_back (l : List PyObj) (h : ∀ o ∈ l, Faithful o)
    (b : Bound NonFungibleTokenIssueOperation) :
    ∃ b', (NonFungibleTokenIssueOperation.setData l).run b = .ok () b' ∧
      b'.interp = b.interp ∧ NonFungibleTokenIssueOperation.getData b'.obj = .ok l := by
  refine ⟨_, decodeList_run VariantConverter.extract NonFungibleTokenIssueOperation.dataMember
    (fun o ho => convertible_of_faithful (h o ho)) b, leaveAll_faithful h _, ?_⟩
  unfold NonFungibleTokenIssueOperation.getData
  rw [encodeList_eq, Member.get_set]
  exact mapM_convert_values h

def emptyIssue : NonFungibleTokenIssueOperation := ⟨⟨0, 0⟩, 0, 0, 0, [], none⟩

theorem token_data_read_back_bounds :
    ∃ b', (NonFungibleTokenIssueOperation.setData [.none, .bool true, .int 1, .int (-2 ^ 63),
        .int (2 ^ 63), .int (2 ^ 64 - 1), .str [233]]).run ⟨{}, emptyIssue⟩ = .ok () b' ∧
      b'.interp = {} ∧ NonFungibleTokenIssueOperation.getData b'.obj = .ok [.none, .bool true,
        .int 1, .int (-2 ^ 63), .int (2 ^ 63), .int (2 ^ 64 - 1), .str [233]] :=
  token_data_read_back _ (by simp [Faithful]; decide) ⟨{}, emptyIssue⟩

end DCore
