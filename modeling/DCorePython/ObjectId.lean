import DCorePython.Lib.Dotted
import DCorePython.Objects

/-!
# The class `ObjectId`

An object id packs a space and a type of 8 bits each and an instance of 48 bits
into one number. Python builds one from the three numbers or from their dotted
text. The constructor for three numbers declares all of them `uint8_t`.
-/

namespace DCore

open Loop Call Dotted

/-- What is used of `graphene::db::object_id_type`: how it packs the numbers, and
the dotted text that it prints and parses. -/
structure ObjectIdType where
  make : Fin (2 ^ 8) → Fin (2 ^ 8) → Fin (2 ^ 64) → Except PyErr IdNumber
  space : IdNumber → Fin (2 ^ 8)
  type : IdNumber → Fin (2 ^ 8)
  inst : IdNumber → Fin (2 ^ 64)
  toString : IdNumber → List UInt8
  ofString : List UInt8 → Except PyErr IdNumber
  make_packs : ∀ s t i, i.val < 2 ^ 48 →
    ∃ n, make s t i = .ok n ∧ n.val = s.val * 2 ^ 56 + t.val * 2 ^ 48 + i.val
  space_val : ∀ n, (space n).val = n.val / 2 ^ 56
  type_val : ∀ n, (type n).val = n.val / 2 ^ 48 % 2 ^ 8
  inst_val : ∀ n, (inst n).val = n.val % 2 ^ 48
  toString_dotted : ∀ n, toString n = Text.utf8 (dotted [(space n).val, (type n).val, (inst n).val])
  ofString_dotted : ∀ s t i, i.val < 2 ^ 48 →
    ofString (Text.utf8 (dotted [s.val, t.val, i.val])) = make s t i

/-! ## Constructors and attributes -/

namespace ObjectId

variable (T : ObjectIdType)

/-- Boost.Python takes a constructor when all arguments are convertible to its
parameters, and converts them then. -/
def init (args : List PyObj) : Call Unit IdNumber :=
  match args with
  | [s, t, i] =>
    if s.asInt?.isSome ∧ t.asInt?.isSome ∧ i.asInt?.isSome then do
      let s ← build (PyObj.extractUnsigned 8 s)
      let t ← build (PyObj.extractUnsigned 8 t)
      let i ← build (PyObj.extractUnsigned 8 i)
      build (.ofExcept (T.make s t (i.castLE (by decide))))
    else throw .typeError
  | [text] => do
    let text ← build (PyObj.extractString text)
    build (.ofExcept (T.ofString text))
  | _ => throw .typeError

def getSpace (n : IdNumber) : PyObj := .int (T.space n).val

def getType (n : IdNumber) : PyObj := .int (T.type n).val

def getInstance (n : IdNumber) : PyObj := .int (T.inst n).val

def str (n : IdNumber) : Except PyErr PyObj := PyObj.ofString (T.toString n)

def hash (n : IdNumber) : PyObj := .int n.val

end ObjectId

def dottedStr (s t i : Nat) : PyObj := .str ((dotted [s, t, i]).map Text.ofChar)

/-- The constructor builds the id of three numbers, and the string constructor
builds the same one of their text; no other numbers give that id. -/
def ThreeNumbersAgree (T : ObjectIdType) (s t i : Nat) (b : Bound Unit) : Prop :=
  ∃ n, (ObjectId.init T [.int s, .int t, .int i]).run b = .ok n b ∧
    ObjectId.getSpace T n = .int s ∧ ObjectId.getType T n = .int t ∧
    ObjectId.getInstance T n = .int i ∧ ObjectId.str T n = .ok (dottedStr s t i) ∧
    ObjectId.hash n = .int (s * 2 ^ 56 + t * 2 ^ 48 + i : Nat) ∧
    (ObjectId.init T [dottedStr s t i]).run b = .ok n b ∧
    ∀ (s' t' i' : Nat) n', (ObjectId.init T [.int s', .int t', .int i']).run b = .ok n' b → n' = n →
      s' = s ∧ t' = t ∧ i' = i

/-! ## Packing -/

theorem pack_inj {s t i s' t' i' : Nat} (ht : t < 2 ^ 8) (hi : i < 2 ^ 48) (ht' : t' < 2 ^ 8)
    (hi' : i' < 2 ^ 48)
    (h : s * 2 ^ 56 + t * 2 ^ 48 + i = s' * 2 ^ 56 + t' * 2 ^ 48 + i') :
    s = s' ∧ t = t' ∧ i = i' := by
  omega

namespace ObjectIdType

variable (T : ObjectIdType) {n : IdNumber} {s t i : Nat}

theorem space_of_packed (ht : t < 2 ^ 8) (hi : i < 2 ^ 48)
    (hn : n.val = s * 2 ^ 56 + t * 2 ^ 48 + i) : (T.space n).val = s := by
  rw [T.space_val]
  omega

theorem type_of_packed (ht : t < 2 ^ 8) (hi : i < 2 ^ 48)
    (hn : n.val = s * 2 ^ 56 + t * 2 ^ 48 + i) : (T.type n).val = t := by
  rw [T.type_val]
  omega

theorem inst_of_packed (hi : i < 2 ^ 48) (hn : n.val = s * 2 ^ 56 + t * 2 ^ 48 + i) :
    (T.inst n).val = i := by
  rw [T.inst_val]
  omega

theorem toString_of_packed (ht : t < 2 ^ 8) (hi : i < 2 ^ 48)
    (hn : n.val = s * 2 ^ 56 + t * 2 ^ 48 + i) : T.toString n = Text.utf8 (dotted [s, t, i]) := by
  rw [T.toString_dotted, T.space_of_packed ht hi hn, T.type_of_packed ht hi hn,
    T.inst_of_packed hi hn]

end ObjectIdType

/-! ## The two constructors -/

section
variable (T : ObjectIdType) (b : Bound Unit)

theorem build_extractUnsigned_run {C : Type} {w n : Nat} (h : n < 2 ^ w) (b : Bound C) :
    (build (PyObj.extractUnsigned w (.int n))).run b = .ok ⟨n, h⟩ b := by
  rw [PyObj.extractUnsigned_natCast h]
  rfl

theorem build_extractUnsigned_error {C : Type} {w n : Nat} (h : 2 ^ w ≤ n) (b : Bound C) :
    (build (PyObj.extractUnsigned w (.int n))).run b = .error .overflowError b := by
  rw [PyObj.extractUnsigned_of_le h]
  rfl

theorem init_numbers (s t i : Int) :
    ObjectId.init T [.int s, .int t, .int i] = (do
      let s ← build (PyObj.extractUnsigned 8 (.int s))
      let t ← build (PyObj.extractUnsigned 8 (.int t))
      let i ← build (PyObj.extractUnsigned 8 (.int i))
      build (.ofExcept (T.make s t (i.castLE (by decide))))) := by
  unfold ObjectId.init
  exact if_pos ⟨rfl, rfl, rfl⟩

theorem init_numbers_run {s t i : Nat} (hs : s < 2 ^ 8) (ht : t < 2 ^ 8) (hi : i < 2 ^ 8) :
    ∃ n, (ObjectId.init T [.int s, .int t, .int i]).run b = .ok n b ∧
      n.val = s * 2 ^ 56 + t * 2 ^ 48 + i := by
  obtain ⟨n, hmake, hn⟩ := T.make_packs ⟨s, hs⟩ ⟨t, ht⟩ ⟨i, by omega⟩ (by simp; omega)
  refine ⟨n, ?_, hn⟩
  rw [init_numbers, run_bind_ok (build_extractUnsigned_run hs b),
    run_bind_ok (build_extractUnsigned_run ht b), run_bind_ok (build_extractUnsigned_run hi b)]
  have hcast : (⟨i, hi⟩ : Fin (2 ^ 8)).castLE (by decide) = (⟨i, by omega⟩ : Fin (2 ^ 64)) := rfl
  rw [hcast, hmake, build_ofExcept_ok]

theorem init_numbers_error {s t i : Nat} (h : ¬ (s < 2 ^ 8 ∧ t < 2 ^ 8 ∧ i < 2 ^ 8)) :
    (ObjectId.init T [.int s, .int t, .int i]).run b = .error .overflowError b := by
  rw [init_numbers]
  by_cases hs : s < 2 ^ 8
  · rw [run_bind_ok (build_extractUnsigned_run hs b)]
    by_cases ht : t < 2 ^ 8
    · have hi : 2 ^ 8 ≤ i := by omega
      rw [run_bind_ok (build_extractUnsigned_run ht b),
        run_bind_error (build_extractUnsigned_error hi b)]
    · rw [run_bind_error (build_extractUnsigned_error (by omega) b)]
  · rw [run_bind_error (build_extractUnsigned_error (by omega) b)]

theorem init_text_run {s t i : Nat} (hs : s < 2 ^ 8) (ht : t < 2 ^ 8) (hi : i < 2 ^ 48) :
    ∃ n, (ObjectId.init T [dottedStr s t i]).run b = .ok n b ∧
      n.val = s * 2 ^ 56 + t * 2 ^ 48 + i := by
  obtain ⟨n, hmake, hn⟩ := T.make_packs ⟨s, hs⟩ ⟨t, ht⟩ ⟨i, by omega⟩ hi
  refine ⟨n, ?_, hn⟩
  have hparse := T.ofString_dotted ⟨s, hs⟩ ⟨t, ht⟩ ⟨i, by omega⟩ hi
  have htext : (build (PyObj.extractString (dottedStr s t i))).run b =
      .ok (Text.utf8 (dotted [s, t, i])) b := by
    rw [dottedStr, PyObj.extractString_of_encode (Text.encode_ofChar _)]
    rfl
  unfold ObjectId.init
  rw [run_bind_ok htext, hparse, hmake, build_ofExcept_ok]

end

/-- Three numbers in range build the id they denote exactly when the instance
fits in 8 bits. -/
theorem three_numbers_agree_iff (T : ObjectIdType) (s t i : Nat) (hs : s < 2 ^ 8) (ht : t < 2 ^ 8)
    (hi : i < 2 ^ 48) (b : Bound Unit) : ThreeNumbersAgree T s t i b ↔ i < 2 ^ 8 := by
  refine ⟨?_, ?_⟩
  · intro h
    obtain ⟨n, hrun, -⟩ := h
    by_contra hlarge
    rw [init_numbers_error T b (by omega)] at hrun
    cases hrun
  · intro hsmall
    obtain ⟨n, hrun, hn⟩ := init_numbers_run T b hs ht hsmall
    obtain ⟨m, htext, hm⟩ := init_text_run T b hs ht hi
    have hmn : m = n := Fin.ext (hm.trans hn.symm)
    rw [hmn] at htext
    refine ⟨n, hrun, ?_, ?_, ?_, ?_, ?_, htext, ?_⟩
    · rw [ObjectId.getSpace, T.space_of_packed ht hi hn]
    · rw [ObjectId.getType, T.type_of_packed ht hi hn]
    · rw [ObjectId.getInstance, T.inst_of_packed hi hn]
    · rw [ObjectId.str, T.toString_of_packed ht hi hn,
        PyObj.ofString_of_encode (Text.encode_ofChar _), dottedStr]
    · rw [ObjectId.hash, hn]
    · intro s' t' i' n' hrun' heq
      by_cases h' : s' < 2 ^ 8 ∧ t' < 2 ^ 8 ∧ i' < 2 ^ 8
      · obtain ⟨hs', ht', hi'⟩ := h'
        obtain ⟨m', hm', hval⟩ := init_numbers_run T b hs' ht' hi'
        rw [hm'] at hrun'
        cases hrun'
        subst heq
        exact pack_inj ht' (by omega) ht hi (hval.symm.trans hn)
      · rw [init_numbers_error T b h'] at hrun'
        cases hrun'

/-! ## A packed object id type -/

def textNumbers? (bs : List UInt8) : Option (List Nat) := do
  let s ← Text.decode bs
  let cs ← s.mapM Text.char?
  numbers? cs

theorem textNumbers?_dotted {ns : List Nat} (h : ns ≠ []) :
    textNumbers? (Text.utf8 (dotted ns)) = some ns := by
  have hchars := Text.mapM_char?_ofChar (dotted ns)
  unfold textNumbers?
  rw [Text.decode_utf8, Option.bind_eq_bind, Option.bind_some, hchars, Option.bind_eq_bind,
    Option.bind_some, numbers?_dotted h]

def pack (s t : Fin (2 ^ 8)) (i : Fin (2 ^ 64)) : Except PyErr IdNumber :=
  if h : i.val < 2 ^ 48 then .ok ⟨s.val * 2 ^ 56 + t.val * 2 ^ 48 + i.val, by omega⟩
  else .error .runtimeError

theorem space_lt (n : IdNumber) : n.val / 2 ^ 56 < 2 ^ 8 := by omega

theorem type_lt (n : IdNumber) : n.val / 2 ^ 48 % 2 ^ 8 < 2 ^ 8 := by omega

theorem inst_lt (n : IdNumber) : n.val % 2 ^ 48 < 2 ^ 64 := by omega

def packedObjectIdType : ObjectIdType where
  make := pack
  space n := ⟨n.val / 2 ^ 56, space_lt n⟩
  type n := ⟨n.val / 2 ^ 48 % 2 ^ 8, type_lt n⟩
  inst n := ⟨n.val % 2 ^ 48, inst_lt n⟩
  toString n := Text.utf8 (dotted [n.val / 2 ^ 56, n.val / 2 ^ 48 % 2 ^ 8, n.val % 2 ^ 48])
  ofString bs :=
    match textNumbers? bs with
    | some [s, t, i] =>
      if h : s < 2 ^ 8 ∧ t < 2 ^ 8 ∧ i < 2 ^ 64 then pack ⟨s, h.1⟩ ⟨t, h.2.1⟩ ⟨i, h.2.2⟩
      else .error .runtimeError
    | _ => .error .runtimeError
  make_packs s t i hi := ⟨_, dif_pos hi, rfl⟩
  space_val _ := rfl
  type_val _ := rfl
  inst_val _ := rfl
  toString_dotted _ := rfl
  ofString_dotted s t i hi := by
    rw [textNumbers?_dotted (by simp)]
    exact dif_pos ⟨s.isLt, t.isLt, i.isLt⟩

theorem three_numbers_agree_iff_account :
    ThreeNumbersAgree packedObjectIdType 1 2 19 ⟨{}, ()⟩ ∧
      ¬ ThreeNumbersAgree packedObjectIdType 1 2 300 ⟨{}, ()⟩ :=
  ⟨(three_numbers_agree_iff packedObjectIdType 1 2 19 (by decide) (by decide) (by decide) _).mpr
      (by decide),
    fun h => absurd ((three_numbers_agree_iff packedObjectIdType 1 2 300 (by decide) (by decide)
      (by decide) _).mp h) (by decide)⟩

theorem instance_of_nine_bits_refused :
    (ObjectId.init packedObjectIdType [.int 1, .int 2, .int 300]).run ⟨{}, ()⟩ =
        .error .overflowError ⟨{}, ()⟩ ∧
      (∃ n, (ObjectId.init packedObjectIdType [dottedStr 1 2 300]).run ⟨{}, ()⟩ = .ok n ⟨{}, ()⟩) ∧
      ¬ ThreeNumbersAgree packedObjectIdType 1 2 300 ⟨{}, ()⟩ := by
  have herror := init_numbers_error packedObjectIdType ⟨{}, ()⟩ (s := 1) (t := 2) (i := 300)
    (by decide)
  obtain ⟨n, htext, -⟩ := init_text_run packedObjectIdType ⟨{}, ()⟩ (s := 1) (t := 2) (i := 300)
    (by decide) (by decide) (by decide)
  refine ⟨herror, ⟨n, htext⟩, ?_⟩
  intro h
  obtain ⟨m, hrun, -⟩ := h
  rw [herror] at hrun
  cases hrun

end DCore
