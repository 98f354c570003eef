import DCorePython.TokenData

/-!
# Reading token data

`variant_converter` shows a variant of any kind to Python, but it can rebuild
only some of them: every kind that is not a bool, an int or a string is shown
as `None`, and a string is shown up to its first zero byte. Values that are
rebuilt as they were are never shown as one, and survive being copied into a
new operation.
-/

namespace DCore

namespace Variant

def intValue? : Variant → Option Int
  | int64 v => some v.toInt
  | uint64 v => some v.toNat
  | _ => none

/-- Equality, with the two kinds of ints compared by value. -/
def SameValue (v w : Variant) : Prop :=
  v = w ∨ ∃ n, v.intValue? = some n ∧ w.intValue? = some n

namespace SameValue

theorem refl (v : Variant) : SameValue v v := .inl rfl

theorem symm {v w : Variant} (h : SameValue v w) : SameValue w v := by
  rcases h with rfl | ⟨n, hv, hw⟩
  · exact refl _
  · exact .inr ⟨n, hw, hv⟩

theorem trans {u v w : Variant} (h : SameValue u v) (h' : SameValue v w) : SameValue u w := by
  rcases h with rfl | ⟨m, hu, hv⟩
  · exact h'
  rcases h' with rfl | ⟨n, hv', hw⟩
  · exact .inr ⟨m, hu, hv⟩
  · rw [hv] at hv'
    cases hv'
    exact .inr ⟨m, hu, hw⟩

end SameValue

/-- The variants that reading keeps, or refuses to show. -/
def Kept : Variant → Prop
  | null | bool _ | int64 _ | uint64 _ => True
  | string bs => 0 ∈ bs → Text.decode (Text.cString bs) = none
  | _ => False

def ReadsBack (v : Variant) : Prop :=
  ∀ x, VariantConverter.convert v = .ok x →
    ∃ w, VariantConverter.construct x = .built w none ∧ SameValue v w

/-! ## One value -/

theorem readsBack_int64 (v : Int64) : ReadsBack (int64 v) := by
  intro x hx
  cases hx
  have hrange := extract_int_of_lt v.le_toInt v.toInt_lt
  rw [Int64.ofInt_toInt] at hrange
  exact ⟨int64 v, hrange, .refl _⟩

theorem readsBack_uint64 (v : UInt64) : ReadsBack (uint64 v) := by
  intro x hx
  cases hx
  have hlt : v.toNat < 2 ^ 64 := v.toNat_lt
  by_cases h : v.toNat < 2 ^ 63
  · have hrange := extract_int_of_lt (n := v.toNat) (by omega) (by omega)
    have hvalue : (int64 (.ofInt v.toNat)).intValue? = some (v.toNat : Int) := by
      rw [intValue?, Int64.toInt_ofInt_of_le (by omega) (by omega)]
    exact ⟨int64 (.ofInt v.toNat), hrange, .inr ⟨v.toNat, rfl, hvalue⟩⟩
  · have hrange := extract_int_of_le (n := v.toNat) (by omega) (by omega)
    rw [Int.toNat_natCast, UInt64.ofNat_toNat] at hrange
    exact ⟨uint64 v, hrange, .refl _⟩

theorem convert_string (bs : List UInt8) :
    VariantConverter.convert (string bs) = match Text.decode (Text.cString bs) with
      | some s => .ok (.str s)
      | none => .error .unicodeDecodeError := rfl

/-- What is shown of a string is built again as its part before the first zero
byte. -/
theorem construct_str_of_decode {bs : List UInt8} {s : List CodePoint}
    (h : Text.decode (Text.cString bs) = some s) :
    VariantConverter.construct (.str s) = .built (string (Text.cString bs)) none := by
  have hb : VariantConverter.construct (.str s) = VariantConverter.extract (.str s) := rfl
  rw [hb, extract_str, Text.encode_decode h]
  simp only [Text.cString_cString]

theorem readsBack_string_iff (bs : List UInt8) : ReadsBack (string bs) ↔ Kept (string bs) := by
  unfold ReadsBack Kept
  rw [convert_string]
  cases hs : Text.decode (Text.cString bs) with
  | none => simp [hs]
  | some s =>
    have hb := construct_str_of_decode hs
    simp only [hs, reduceCtorEq, imp_false]
    rw [← Text.cString_eq_self_iff]
    refine ⟨?_, ?_⟩
    · intro h
      obtain ⟨w, hw, hsame⟩ := h (.str s) rfl
      rw [hb] at hw
      cases hw
      rcases hsame with heq | ⟨n, hn, -⟩
      · exact (string.inj heq).symm
      · cases hn
    · intro h x hx
      cases hx
      exact ⟨_, hb, by rw [h]; exact .refl _⟩

/-- A kind that the reader has no case for is shown as `None`. -/
theorem not_readsBack_of_none {v : Variant} (h : VariantConverter.convert v = .ok .none)
    (hne : v ≠ null) : ¬ ReadsBack v := by
  intro hv
  obtain ⟨w, hw, hsame⟩ := hv .none h
  cases hw
  rcases hsame with rfl | ⟨n, -, hn⟩
  · exact hne rfl
  · cases hn

theorem readsBack_iff (v : Variant) : ReadsBack v ↔ Kept v := by
  cases v with
  | null =>
    refine iff_of_true ?_ trivial
    intro x hx
    cases hx
    exact ⟨null, rfl, .refl _⟩
  | bool b =>
    refine iff_of_true ?_ trivial
    intro x hx
    cases hx
    exact ⟨bool b, rfl, .refl _⟩
  | int64 v => exact iff_of_true (readsBack_int64 v) trivial
  | uint64 v => exact iff_of_true (readsBack_uint64 v) trivial
  | string bs => exact readsBack_string_iff bs
  | double bits => exact iff_of_false (not_readsBack_of_none rfl nofun) id
  | array vs => exact iff_of_false (not_readsBack_of_none rfl nofun) id
  | object entries => exact iff_of_false (not_readsBack_of_none rfl nofun) id
  | blob data => exact iff_of_false (not_readsBack_of_none rfl nofun) id

theorem sameValue_of_shown {v w : Variant} {x : PyObj} (hv : Kept v) (hw : Kept w)
    (hvx : VariantConverter.convert v = .ok x) (hwx : VariantConverter.convert w = .ok x) :
    SameValue v w := by
  obtain ⟨u, hu, hvu⟩ := (readsBack_iff v).mpr hv x hvx
  obtain ⟨u', hu', hwu⟩ := (readsBack_iff w).mpr hw x hwx
  rw [hu] at hu'
  cases hu'
  exact hvu.trans hwu.symm

end Variant

/-! ## `NonFungibleTokenData.data` -/

structure NonFungibleTokenDataObject where
  nftId : IdNumber
  owner : IdNumber
  data : List Variant

namespace NonFungibleTokenDataObject

def dataMember : Member NonFungibleTokenDataObject (List Variant) where
  get := data
  set t c := { t with data := c }
  get_set _ _ := rfl
  set_get _ := rfl
  set_set _ _ _ := rfl

def getData (t : NonFungibleTokenDataObject) : Except PyErr (List PyObj) :=
  encodeList VariantConverter.convert dataMember t

end NonFungibleTokenDataObject

/-- Nothing is lost when the variants of `S` are read: each is rebuilt from what
is shown of it, no two of different value are shown as one, and a list of them
can be copied into an operation. -/
structure ReadsWithoutLoss (S : Set Variant) : Prop where
  readsBack : ∀ v ∈ S, v.ReadsBack
  apart : ∀ v ∈ S, ∀ w ∈ S, ∀ x, VariantConverter.convert v = .ok x →
    VariantConverter.convert w = .ok x → v.SameValue w
  copied : ∀ t : NonFungibleTokenDataObject, (∀ v ∈ t.data, v ∈ S) → ∀ l, t.getData = .ok l →
    ∀ b : Bound NonFungibleTokenIssueOperation,
      ∃ b', (NonFungibleTokenIssueOperation.setData l).run b = .ok () b' ∧
        List.Forall₂ Variant.SameValue t.data b'.obj.data

theorem extract_of_convert {v : Variant} {x : PyObj} (h : VariantConverter.convert v = .ok x) :
    VariantConverter.extract x = VariantConverter.construct x := by
  have hx : VariantConverter.convertible x = true := by
    cases v with
    | string bs =>
      rw [Variant.convert_string] at h
      cases hs : Text.decode (Text.cString bs) with
      | none => rw [hs] at h; cases h
      | some s => rw [hs] at h; cases h; rfl
    | _ => cases h; rfl
  exact if_pos hx

theorem values_of_shown {c : List Variant} {l : List PyObj}
    (h : List.Forall₂ (fun v o => VariantConverter.convert v = .ok o) c l)
    (hc : ∀ v ∈ c, v.Kept) :
    (∀ o ∈ l, convertible VariantConverter.extract o = true) ∧
      List.Forall₂ Variant.SameValue c (values VariantConverter.extract l) := by
  induction h with
  | nil => exact ⟨by simp, .nil⟩
  | @cons v o c l hvo _ ih =>
    obtain ⟨hv, hrest⟩ := List.forall_mem_cons.mp hc
    obtain ⟨hl, hsame⟩ := ih hrest
    obtain ⟨w, hw, hvw⟩ := (Variant.readsBack_iff v).mpr hv o hvo
    have hvalue : (VariantConverter.extract o).value? = some w := by
      rw [extract_of_convert hvo, hw]
      rfl
    refine ⟨List.forall_mem_cons.mpr ⟨?_, hl⟩, ?_⟩
    · unfold convertible
      rw [hvalue]
      rfl
    · rw [values_cons hvalue]
      exact .cons hvw hsame

/-- Reading a set of variants loses nothing exactly when all of them are
kept. -/
theorem reads_without_loss_iff (S : Set Variant) : ReadsWithoutLoss S ↔ ∀ v ∈ S, v.Kept := by
  refine ⟨?_, ?_⟩
  · intro h v hv
    exact (Variant.readsBack_iff v).mp (h.readsBack v hv)
  · intro h
    refine ⟨?_, ?_, ?_⟩
    · intro v hv
      exact (Variant.readsBack_iff v).mpr (h v hv)
    · intro v hv w hw x hvx hwx
      exact Variant.sameValue_of_shown (h v hv) (h w hw) hvx hwx
    · intro t ht l hl b
      unfold NonFungibleTokenDataObject.getData at hl
      rw [encodeList_eq, mapM_ok_iff] at hl
      obtain ⟨hconv, hsame⟩ := values_of_shown hl fun v hv => h v (ht v hv)
      refine ⟨_, decodeList_run VariantConverter.extract
        NonFungibleTokenIssueOperation.dataMember hconv b, ?_⟩
      rw [NonFungibleTokenIssueOperation.dataMember]
      exact hsame

/-- A double is shown as `None`, which builds a null; a string is shown without
what follows its first zero byte. -/
theorem token_data_shown_as_other :
    VariantConverter.convert (.double 0) = VariantConverter.convert .null ∧
      ¬ (Variant.double 0).ReadsBack ∧
      VariantConverter.convert (.string [97, 0, 98]) =
        VariantConverter.convert (.string [97]) ∧
      ¬ (Variant.string [97, 0, 98]).ReadsBack ∧
      ¬ ReadsWithoutLoss Set.univ := by
  have hdouble : ¬ (Variant.double 0).ReadsBack := (Variant.readsBack_iff _).mp
  have hstring : ¬ (Variant.string [97, 0, 98]).ReadsBack := by
    rw [Variant.readsBack_iff]
    intro h
    have hd : Text.decode (Text.cString [97, 0, 98]) = some [97] := Text.decode_encode rfl
    rw [h (by decide)] at hd
    cases hd
  exact ⟨rfl, hdouble, rfl, hstring, fun h => hdouble (h.readsBack _ trivial)⟩

end DCore
