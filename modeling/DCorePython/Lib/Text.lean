import Mathlib.Data.List.TakeWhile
import Mathlib.Tactic.SplitIfs

/-!
# Strings as code points and as bytes

A string of code points may hold surrogates, which UTF-8 cannot encode. The
encoder is partial for that reason, the decoder because not all bytes are
UTF-8; each undoes the other where it is defined. A C string ends at its first
zero byte, and encoding makes a zero byte of the code point zero only.
-/

abbrev CodePoint := Fin 0x110000

namespace Text

def char? (c : CodePoint) : Option Char :=
  if h : c.val.isValidChar then some (Char.ofNatAux c.val h) else none

theorem toNat_lt (c : Char) : c.toNat < 0x110000 := by
  have h := c.valid
  simp only [UInt32.isValidChar, Nat.isValidChar] at h
  show c.val.toNat < 0x110000
  omega

def ofChar (c : Char) : CodePoint := ⟨c.toNat, toNat_lt c⟩

def encode (s : List CodePoint) : Option (List UInt8) :=
  (s.mapM char?).map fun cs => cs.flatMap String.utf8EncodeChar

def decode (bs : List UInt8) : Option (List CodePoint) :=
  bs.toByteArray.utf8Decode?.map fun cs => cs.toList.map ofChar

def cString (bs : List UInt8) : List UInt8 := bs.takeWhile fun b => b != 0

theorem char?_ofChar (c : Char) : char? (ofChar c) = some c := by
  have h : (ofChar c).val.isValidChar := c.valid
  unfold char?
  rw [dif_pos h]
  congr 1

theorem ofChar_of_char? {p : CodePoint} {c : Char} (h : char? p = some c) : ofChar c = p := by
  unfold char? at h
  by_cases hv : p.val.isValidChar
  · rw [dif_pos hv] at h
    cases h
    exact Fin.ext rfl
  · rw [dif_neg hv] at h
    cases h

theorem mapM_char?_ofChar (cs : List Char) : (cs.map ofChar).mapM char? = some cs := by
  induction cs with
  | nil => rfl
  | cons c cs ih => simp [List.mapM_cons, char?_ofChar, ih]

theorem map_ofChar_of_mapM {s : List CodePoint} {cs : List Char} (h : s.mapM char? = some cs) :
    cs.map ofChar = s := by
  induction s generalizing cs with
  | nil => cases h; rfl
  | cons p s ih =>
    simp only [List.mapM_cons, Option.bind_eq_bind, Option.bind_eq_some_iff, Option.pure_def,
      Option.some.injEq] at h
    obtain ⟨c, hc, cs', hcs, rfl⟩ := h
    rw [List.map_cons, ofChar_of_char? hc, ih hcs]

theorem decode_encode {s : List CodePoint} {bs : List UInt8} (h : encode s = some bs) :
    decode bs = some s := by
  obtain ⟨cs, hcs, rfl⟩ := Option.map_eq_some_iff.mp h
  have hu : (cs.flatMap String.utf8EncodeChar).toByteArray = cs.utf8Encode := rfl
  unfold decode
  rw [hu, List.utf8Decode?_utf8Encode, Option.map_some, map_ofChar_of_mapM hcs]

theorem encode_decode {s : List CodePoint} {bs : List UInt8} (h : decode bs = some s) :
    encode s = some bs := by
  obtain ⟨cs, hcs, rfl⟩ := Option.map_eq_some_iff.mp h
  have hb : cs.toList.utf8Encode = bs.toByteArray := by
    have := ByteArray.utf8Encode_get_utf8Decode? (b := bs.toByteArray) (h := by rw [hcs]; rfl)
    simpa [hcs] using this
  unfold encode
  rw [mapM_char?_ofChar, Option.map_some, List.toByteArray_inj.mp hb]

def utf8 (cs : List Char) : List UInt8 := cs.flatMap String.utf8EncodeChar

theorem encode_ofChar (cs : List Char) : encode (cs.map ofChar) = some (utf8 cs) := by
  unfold encode
  rw [mapM_char?_ofChar]
  rfl

theorem decode_utf8 (cs : List Char) : decode (utf8 cs) = some (cs.map ofChar) :=
  decode_encode (encode_ofChar cs)

/-! ## Zero bytes -/

theorem zero_mem_utf8EncodeChar (c : Char) : 0 ∈ String.utf8EncodeChar c ↔ c.toNat = 0 := by
  have hz : ∀ n, n < 256 → ((0 : UInt8) = UInt8.ofNat n ↔ n = 0) := by
    intro n hn
    rw [← UInt8.toNat_inj, UInt8.toNat_ofNat_of_lt' hn]
    exact eq_comm
  show _ ↔ c.val.toNat = 0
  have hlt := toNat_lt c
  change c.val.toNat < _ at hlt
  simp only [String.utf8EncodeChar]
  split_ifs
  · rw [List.mem_singleton, hz _ (by omega)]
  all_goals
    simp only [List.mem_cons, List.not_mem_nil, or_false]
    repeat rw [hz _ (by omega)]
    omega

theorem zero_mem_encode {s : List CodePoint} {bs : List UInt8} (h : encode s = some bs) :
    0 ∈ bs ↔ 0 ∈ s := by
  obtain ⟨cs, hcs, rfl⟩ := Option.map_eq_some_iff.mp h
  rw [← map_ofChar_of_mapM hcs]
  simp only [List.mem_flatMap, zero_mem_utf8EncodeChar, List.mem_map, ofChar, Fin.ext_iff]
  rfl

theorem cString_eq_self_iff (bs : List UInt8) : cString bs = bs ↔ 0 ∉ bs := by
  unfold cString
  rw [List.takeWhile_eq_self_iff]
  refine ⟨?_, ?_⟩
  · intro h hz
    simpa using h 0 hz
  · intro h b hb
    simpa using fun e : b = 0 => h (e ▸ hb)

theorem zero_not_mem_cString (bs : List UInt8) : 0 ∉ cString bs := by
  intro h
  simpa using List.mem_takeWhile_imp h

@[simp] theorem cString_cString (bs : List UInt8) : cString (cString bs) = cString bs :=
  (cString_eq_self_iff _).mpr (zero_not_mem_cString bs)

end Text
