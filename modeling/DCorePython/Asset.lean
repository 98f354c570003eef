import DCorePython.Assignment

/-!
# Asset extensions

`asset_options` keeps its extensions in a set of variants that is ordered by
their tags alone. An attribute of an extension is read and written inside that
set: the setter looks for a default extension, inserts it when it is missing,
and writes the element in place.
-/

namespace DCore

open Loop Call

/-- A variant type `E` that has `T` as an alternative, with `T()`. -/
structure Alternative (E T : Type) where
  which : E → Nat
  tag : Nat
  init : T
  inject : T → E
  get : E → Option T
  which_inject : ∀ t, which (inject t) = tag
  get_inject : ∀ t, get (inject t) = some t
  isSome_get : ∀ e, (get e).isSome ↔ which e = tag

namespace Alternative

variable {E T V : Type} (A : Alternative E T) (member : Member T V)

def probe : E := A.inject A.init

/-- Assign through `get<T>()`. -/
def write (v : V) (e : E) : E :=
  match A.get e with
  | some t => A.inject (member.set t v)
  | none => e

variable {A}

@[simp] theorem which_probe : A.which A.probe = A.tag := A.which_inject A.init

theorem exists_get {e : E} (h : A.which e = A.tag) : ∃ t, A.get e = some t :=
  Option.isSome_iff_exists.mp ((A.isSome_get e).mpr h)

theorem which_write (v : V) (e : E) : A.which (A.write member v e) = A.which e := by
  unfold write
  cases h : A.get e with
  | none => rfl
  | some t =>
    have htag : A.which e = A.tag := (A.isSome_get e).mp (by rw [h]; rfl)
    rw [htag, A.which_inject]

theorem get_write {e : E} (h : A.which e = A.tag) (v : V) :
    (A.get (A.write member v e)).map member.get = some v := by
  obtain ⟨t, ht⟩ := exists_get h
  unfold write
  rw [ht]
  simp [A.get_inject]

end Alternative

/-! ## `decode_extension_type` and `encode_extension_type` -/

structure Price where
  base : Asset
  quote : Asset
  deriving DecidableEq

structure AssetOptions {E : Type} (which : E → Nat) where
  maxSupply : Int64
  coreExchangeRate : Price
  isExchangeable : Bool
  extensions : OrderedSet which

section
variable {Obj E T V : Type} (A : Alternative E T) (member : Member T V)

def decodeExtensionType [PyNone Obj] (toPython : V → Obj) (obj : AssetOptions A.which) :
    Except PyErr Obj :=
  match obj.extensions.find? (A.which A.probe) with
  | none => .ok PyNone.none
  | some e =>
    match A.get e with
    | some t => .ok (toPython (member.get t))
    | none => .error .runtimeError

/-- `find(T())`, and `insert(T())` when that finds nothing. -/
def ensure (s : OrderedSet A.which) : OrderedSet A.which :=
  if (s.find? (A.which A.probe)).isSome then s else s.insert A.probe

def writeInPlace (v : V) (s : OrderedSet A.which) : OrderedSet A.which :=
  s.modify (A.which A.probe) (A.write member v) (A.which_write member v)

def encodeExtensionType (extract : Obj → Conversion V) (v : Obj) :
    Call (AssetOptions A.which) Unit := do
  let v ← build (extract v)
  onObj fun obj => { obj with extensions := ensure A obj.extensions }
  let obj ← current
  match (obj.extensions.find? (A.which A.probe)).bind A.get with
  | some _ => onObj fun obj => { obj with extensions := writeInPlace A member v obj.extensions }
  | none => throw .runtimeError

/-! ## One assignment -/

def written (s : OrderedSet A.which) (v : V) : OrderedSet A.which :=
  writeInPlace A member v (ensure A s)

variable {A}

theorem find?_ensure (s : OrderedSet A.which) (k : Nat) :
    (ensure A s).find? k = if k = A.tag then some ((s.find? A.tag).getD A.probe) else s.find? k := by
  unfold ensure
  rw [Alternative.which_probe]
  cases h : s.find? A.tag with
  | none =>
    rw [if_neg (by simp), OrderedSet.find?_insert, Alternative.which_probe]
    by_cases hk : k = A.tag
    · subst hk
      simp [h]
    · simp [hk, Ne.symm hk]
  | some e =>
    rw [Option.isSome_some, if_pos rfl]
    by_cases hk : k = A.tag
    · subst hk
      simp [h]
    · simp [hk]

theorem find?_written (s : OrderedSet A.which) (v : V) (k : Nat) :
    (written A member s v).find? k =
      if k = A.tag then some (A.write member v ((s.find? A.tag).getD A.probe)) else s.find? k := by
  unfold written writeInPlace
  rw [OrderedSet.find?_modify, find?_ensure, find?_ensure, Alternative.which_probe, if_pos rfl]
  by_cases hk : k = A.tag <;> simp [hk]

theorem length_written (s : OrderedSet A.which) (v : V) :
    (written A member s v).toList.length =
      s.toList.length + if (s.find? A.tag).isSome then 0 else 1 := by
  unfold written writeInPlace ensure
  rw [OrderedSet.length_modify, Alternative.which_probe]
  by_cases h : (s.find? A.tag).isSome
  · rw [if_pos h, if_pos h]
    rfl
  · have hnone : s.find? (A.which A.probe) = none := by simpa using h
    rw [if_neg h, if_neg h, OrderedSet.length_insert hnone]

theorem which_getD_find? (s : OrderedSet A.which) :
    A.which ((s.find? A.tag).getD A.probe) = A.tag := by
  cases h : s.find? A.tag with
  | none => exact Alternative.which_probe
  | some e => exact OrderedSet.key_of_find? h

theorem encodeExtensionType_run {extract : Obj → Conversion V} {o : Obj} {v : V}
    (h : (extract o).value? = some v) (b : Bound (AssetOptions A.which)) :
    (encodeExtensionType A member extract o).run b = .ok ()
      ⟨b.interp.leave (extract o).leaves,
        { b.obj with extensions := written A member b.obj.extensions v }⟩ := by
  obtain ⟨t, ht⟩ := Alternative.exists_get (which_getD_find? b.obj.extensions)
  have hfind : ((ensure A b.obj.extensions).find? (A.which A.probe)).bind A.get = some t := by
    rw [Alternative.which_probe, find?_ensure, if_pos rfl, Option.bind_some, ht]
  unfold encodeExtensionType
  rw [Conversion.eq_built_of_value? h, run_bind_ok (build_built v _ b),
    run_bind_ok (onObj_run _ _), run_bind_ok (current_run _)]
  simp only [hfind]
  rfl

theorem decodeExtensionType_eq [PyNone Obj] (toPython : V → Obj) (obj : AssetOptions A.which) :
    decodeExtensionType A member toPython obj = .ok
      (match (obj.extensions.find? A.tag).bind A.get with
        | some t => toPython (member.get t)
        | none => PyNone.none) := by
  unfold decodeExtensionType
  rw [Alternative.which_probe]
  cases h : obj.extensions.find? A.tag with
  | none => rfl
  | some e =>
    obtain ⟨t, ht⟩ := Alternative.exists_get (OrderedSet.key_of_find? h)
    simp [ht]

/-! ## Runs of assignments -/

/-- What a run of assignments does to the set, when `v` was the last. -/
structure LastWritten (s s' : OrderedSet A.which) (v : V) : Prop where
  value : ∃ t, (s'.find? A.tag).bind A.get = some t ∧ member.get t = v
  others : ∀ k, k ≠ A.tag → s'.find? k = s.find? k
  length : s'.toList.length = s.toList.length + if (s.find? A.tag).isSome then 0 else 1

theorem lastWritten_written (s : OrderedSet A.which) (v : V) :
    LastWritten member s (written A member s v) v := by
  refine ⟨?_, ?_, length_written member s v⟩
  · rw [find?_written, if_pos rfl, Option.bind_some]
    exact Option.map_eq_some_iff.mp (Alternative.get_write member (which_getD_find? s) v)
  · intro k hk
    rw [find?_written, if_neg hk]

theorem LastWritten.trans {s s' s'' : OrderedSet A.which} {v w : V} (h : LastWritten member s s' v)
    (h' : LastWritten member s' s'' w) : LastWritten member s s'' w := by
  obtain ⟨t, ht, -⟩ := h.value
  have hsome : (s'.find? A.tag).isSome := by
    cases hs : s'.find? A.tag with
    | none => rw [hs] at ht; cases ht
    | some e => rfl
  refine ⟨h'.value, ?_, ?_⟩
  · intro k hk
    rw [h'.others k hk, h.others k hk]
  · rw [h'.length, if_pos hsome, h.length]
    rfl

theorem assignAll_encodeExtensionType_run {extract : Obj → Conversion V} :
    ∀ {os : List Obj}, (∀ o ∈ os, convertible extract o = true) →
      ∀ b : Bound (AssetOptions A.which), ∃ i s,
        (assignAll (encodeExtensionType A member extract) os).run b = .ok ()
          ⟨i, { b.obj with extensions := s }⟩ ∧
        ((values extract os).getLast? = none → s = b.obj.extensions) ∧
        ∀ v, (values extract os).getLast? = some v → LastWritten member b.obj.extensions s v
  | [], _, b => by
    refine ⟨b.interp, b.obj.extensions, rfl, fun _ => rfl, ?_⟩
    intro v hv
    cases hv
  | o :: os, h, b => by
    obtain ⟨ho, hos⟩ := List.forall_mem_cons.mp h
    obtain ⟨v, hv⟩ := exists_value ho
    have hfirst := lastWritten_written member b.obj.extensions v
    obtain ⟨i, s, hrun, hnone, hlast⟩ := assignAll_encodeExtensionType_run hos
      ⟨b.interp.leave (extract o).leaves,
        { b.obj with extensions := written A member b.obj.extensions v }⟩
    refine ⟨i, s, ?_, ?_, ?_⟩
    · unfold assignAll
      rw [run_bind_ok (encodeExtensionType_run member hv b), hrun]
    · intro hw
      rw [values_cons hv, List.getLast?_cons] at hw
      cases hw
    · intro w hw
      rw [values_cons hv, List.getLast?_cons] at hw
      cases hl : (values extract os).getLast? with
      | none =>
        rw [hl] at hw
        cases hw
        rw [hnone hl]
        exact hfirst
      | some u =>
        rw [hl] at hw
        cases hw
        exact hfirst.trans member (hlast _ hl)

section
variable {extract : Obj → Conversion V} {os : List Obj} {s s' : OrderedSet A.which}

theorem find?_of_run (hnone : (values extract os).getLast? = none → s' = s)
    (hlast : ∀ v, (values extract os).getLast? = some v → LastWritten member s s' v) {k : Nat}
    (hk : k ≠ A.tag) : s'.find? k = s.find? k := by
  cases hl : (values extract os).getLast? with
  | none => rw [hnone hl]
  | some v => exact (hlast v hl).others k hk

theorem length_of_run (h : ∀ o ∈ os, convertible extract o = true)
    (hnone : (values extract os).getLast? = none → s' = s)
    (hlast : ∀ v, (values extract os).getLast? = some v → LastWritten member s s' v) :
    s'.toList.length =
      s.toList.length + if os ≠ [] ∧ ¬ (s.find? A.tag).isSome then 1 else 0 := by
  have hlen := length_values h
  cases hl : (values extract os).getLast? with
  | none =>
    rw [List.getLast?_eq_none_iff.mp hl] at hlen
    rw [hnone hl, if_neg fun hos => hos.1 (List.eq_nil_of_length_eq_zero hlen.symm)]
    rfl
  | some v =>
    have hos : os ≠ [] := by
      intro hnil
      subst hnil
      cases hl
    rw [(hlast v hl).length]
    by_cases hs : (s.find? A.tag).isSome
    · rw [if_pos hs, if_neg fun hos => hos.2 hs]
    · rw [if_neg hs, if_pos ⟨hos, hs⟩]

end

end

/-! ## `AssetOptions.fixed_max_supply` -/

structure FixedMaxSupplyStruct where
  isFixedMaxSupply : Bool
  deriving DecidableEq

namespace FixedMaxSupplyStruct

def isFixedMaxSupplyMember : Member FixedMaxSupplyStruct Bool where
  get := isFixedMaxSupply
  set _ c := ⟨c⟩
  get_set _ _ := rfl
  set_get _ := rfl
  set_set _ _ _ := rfl

end FixedMaxSupplyStruct

namespace AssetOptions

variable {E : Type} (A : Alternative E FixedMaxSupplyStruct)

def getFixedMaxSupply (obj : AssetOptions A.which) : Except PyErr PyObj :=
  decodeExtensionType A FixedMaxSupplyStruct.isFixedMaxSupplyMember PyObj.bool obj

def setFixedMaxSupply (o : PyObj) : Call (AssetOptions A.which) Unit :=
  encodeExtensionType A FixedMaxSupplyStruct.isFixedMaxSupplyMember PyObj.extractBool o

end AssetOptions

open AssetOptions

theorem isSome_find?_tag_iff {E : Type} {A : Alternative E FixedMaxSupplyStruct}
    (s : OrderedSet A.which) :
    (s.find? A.tag).isSome ↔ ¬ ∀ e ∈ s.toList, A.which e ≠ A.tag := by
  rw [OrderedSet.find?_isSome_iff]
  push Not
  rfl

theorem getFixedMaxSupply_eq_none_iff {E : Type} (A : Alternative E FixedMaxSupplyStruct)
    (obj : AssetOptions A.which) :
    getFixedMaxSupply A obj = .ok .none ↔ ∀ e ∈ obj.extensions.toList, A.which e ≠ A.tag := by
  have hsome := isSome_find?_tag_iff obj.extensions
  unfold getFixedMaxSupply
  rw [decodeExtensionType_eq]
  cases h : obj.extensions.find? A.tag with
  | none =>
    rw [h, Option.isSome_none] at hsome
    exact iff_of_true rfl (by simpa using hsome)
  | some e =>
    obtain ⟨t, ht⟩ := Alternative.exists_get (OrderedSet.key_of_find? h)
    rw [h, Option.isSome_some] at hsome
    rw [Option.bind_some, ht]
    exact iff_of_false nofun (hsome.mp rfl)

theorem values_extractBool {os : List PyObj} (h : ∀ o ∈ os, o = .none ∨ o.asInt?.isSome) :
    values PyObj.extractBool os = os.map PyObj.truth := by
  induction os with
  | nil => rfl
  | cons o os ih =>
    obtain ⟨ho, hos⟩ := List.forall_mem_cons.mp h
    have hv : (PyObj.extractBool o).value? = some o.truth := by
      rw [PyObj.extractBool_of_none_or_int ho]
      rfl
    rw [values_cons hv, ih hos, List.map_cons]

/-- The attribute is a lens on the set of extensions, over any run of
assignments of `None`, bools and ints, except that it shows a bool: what was
assigned when that was `True` or `False`, and the truth of `None` or an int. -/
theorem fixed_max_supply_run {E : Type} (A : Alternative E FixedMaxSupplyStruct)
    (os : List PyObj) (h : ∀ o ∈ os, o = .none ∨ o.asInt?.isSome)
    (b : Bound (AssetOptions A.which)) :
    (getFixedMaxSupply A b.obj = .ok .none ↔
      ∀ e ∈ b.obj.extensions.toList, A.which e ≠ A.tag) ∧
    ∃ i s, (assignAll (setFixedMaxSupply A) os).run b = .ok ()
        ⟨i, { b.obj with extensions := s }⟩ ∧
      (∀ v, os.getLast? = some (.bool v) →
        getFixedMaxSupply A { b.obj with extensions := s } = .ok (.bool v)) ∧
      (∀ o, os.getLast? = some o →
        getFixedMaxSupply A { b.obj with extensions := s } = .ok (.bool o.truth)) ∧
      s.toList.Pairwise (fun e e' => A.which e < A.which e') ∧
      (∀ e, A.which e ≠ A.tag → (e ∈ s.toList ↔ e ∈ b.obj.extensions.toList)) ∧
      s.toList.length = b.obj.extensions.toList.length +
        if os ≠ [] ∧ ∀ e ∈ b.obj.extensions.toList, A.which e ≠ A.tag then 1 else 0 := by
  refine ⟨getFixedMaxSupply_eq_none_iff A b.obj, ?_⟩
  have hconv : ∀ o ∈ os, convertible PyObj.extractBool o = true := by
    intro o ho
    unfold convertible
    rw [PyObj.extractBool_of_none_or_int (h o ho)]
    rfl
  obtain ⟨i, s, hrun, hnone, hlast⟩ := assignAll_encodeExtensionType_run
    FixedMaxSupplyStruct.isFixedMaxSupplyMember hconv b
  have hshown : ∀ o, os.getLast? = some o →
      getFixedMaxSupply A { b.obj with extensions := s } = .ok (.bool o.truth) := by
    intro o ho
    have hv : (values PyObj.extractBool os).getLast? = some o.truth := by
      rw [values_extractBool h, List.getLast?_map, ho]
      rfl
    obtain ⟨t, ht, htv⟩ := (hlast _ hv).value
    unfold getFixedMaxSupply
    rw [decodeExtensionType_eq, ht, ← htv]
  refine ⟨i, s, hrun, fun v hv => hshown _ hv, hshown, s.ascending, ?_, ?_⟩
  · intro e he
    rw [OrderedSet.mem_iff_find?, OrderedSet.mem_iff_find?,
      find?_of_run FixedMaxSupplyStruct.isFixedMaxSupplyMember hnone hlast he]
  · rw [length_of_run FixedMaxSupplyStruct.isFixedMaxSupplyMember hconv hnone hlast]
    simp only [isSome_find?_tag_iff, not_not]

/-- The variant of `void_t` and `fixed_max_supply_struct`. -/
def voidOrFixed : Alternative (Option FixedMaxSupplyStruct) FixedMaxSupplyStruct where
  which e := if e.isSome then 1 else 0
  tag := 1
  init := ⟨false⟩
  inject := some
  get := id
  which_inject _ := rfl
  get_inject _ := rfl
  isSome_get e := by cases e <;> simp

def optionsWithVoid : AssetOptions voidOrFixed.which where
  maxSupply := 0
  coreExchangeRate := ⟨⟨1, 0⟩, ⟨1, 0⟩⟩
  isExchangeable := true
  extensions := ⟨[none], by simp⟩

theorem fixed_max_supply_run_twice :
    ∃ i s, (assignAll (setFixedMaxSupply voidOrFixed) [.none, .int 5, .bool false]).run
        ⟨{}, optionsWithVoid⟩ = .ok () ⟨i, { optionsWithVoid with extensions := s }⟩ ∧
      getFixedMaxSupply voidOrFixed { optionsWithVoid with extensions := s } = .ok (.bool false) ∧
      s.toList.length = 2 := by
  obtain ⟨-, i, s, hrun, hget, -, -, -, hlen⟩ := fixed_max_supply_run voidOrFixed
    [.none, .int 5, .bool false] (by decide) ⟨{}, optionsWithVoid⟩
  exact ⟨i, s, hrun, hget false rfl, by rw [hlen]; rfl⟩

/-- `None` can be assigned: the extension is added and shown as `False`. -/
theorem fixed_max_supply_none_shown :
    ∃ b, (assignAll (setFixedMaxSupply voidOrFixed) [.none]).run ⟨{}, optionsWithVoid⟩ =
        .ok () b ∧
      getFixedMaxSupply voidOrFixed b.obj = .ok (.bool false) ∧
      getFixedMaxSupply voidOrFixed b.obj ≠ .ok .none ∧
      b.obj.extensions.toList.length = optionsWithVoid.extensions.toList.length + 1 :=
  ⟨_, rfl, rfl, nofun, rfl⟩

end DCore
