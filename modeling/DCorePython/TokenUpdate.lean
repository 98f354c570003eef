import DCorePython.TokenData

/-!
# Token data updates

`UpadateNonFungibleTokenData.data` is a list of pairs of a name and a variant.
Whether an attribute of a pair can be read depends on its getter: one that
returns by value uses any converter to Python that is registered for the type,
one that refers into the object needs a `bp::class_` for it.
-/

namespace DCore

open Loop Call

/-! ## Converters to Python -/

/-- What Boost.Python knows of the C++ types `Ty`: those it converts itself,
those registered with `bp::class_`, and those with a `to_python_converter`. -/
structure Registrations (Ty : Type) where
  builtin : List Ty
  classes : List Ty
  converters : List Ty

inductive Getter
  | byValue
  | internalReference
  deriving DecidableEq, Repr

namespace Registrations

variable {Ty Obj : Type} [DecidableEq Ty] (R : Registrations Ty)

/-- The getter that `def_readwrite` makes for a member of class type `t`. -/
def defReadwrite (t : Ty) : Getter := if t ∈ R.builtin then .byValue else .internalReference

def reads (t : Ty) : Getter → Bool
  | .byValue => t ∈ R.builtin || t ∈ R.classes || t ∈ R.converters
  | .internalReference => t ∈ R.classes

def read (g : Getter) (t : Ty) (o : Except PyErr Obj) : Except PyErr Obj :=
  if R.reads t g then o else .error .typeError

theorem reads_defReadwrite_iff (t : Ty) :
    R.reads t (R.defReadwrite t) = true ↔ t ∈ R.builtin ∨ t ∈ R.classes := by
  unfold defReadwrite
  by_cases h : t ∈ R.builtin <;> simp [reads, h]

end Registrations

/-- The C++ types that the attributes below read. -/
inductive CppType
  | string
  | variant
  | nftDataValue
  deriving DecidableEq, Repr

def registrations : Registrations CppType where
  builtin := [.string]
  classes := [.nftDataValue]
  converters := [.variant]

/-! ## `NonFungibleTokenDataValue` -/

structure NftDataValue where
  first : List UInt8
  second : Variant

instance : Inhabited NftDataValue := ⟨⟨[], .null⟩⟩

/-- Elements of the list that an update takes. -/
inductive NftObj
  | plain (o : PyObj)
  | dataValue (v : NftDataValue)

namespace NftDataValue

def init {T : Type} (args : List PyObj) : Call T NftDataValue :=
  match args with
  | [] => pure default
  | [.str name, value] =>
    if VariantConverter.convertible value then do
      let first ← build (PyObj.extractString (.str name))
      let second ← build (VariantConverter.extract value)
      return ⟨first, second⟩
    else throw .typeError
  | _ => throw .typeError

def getName (v : NftDataValue) : Except PyErr PyObj :=
  registrations.read (registrations.defReadwrite .string) .string (PyObj.ofString v.first)

def getValue (v : NftDataValue) : Except PyErr PyObj :=
  registrations.read (registrations.defReadwrite .variant) .variant
    (VariantConverter.convert v.second)

def toPython (v : NftDataValue) : Except PyErr NftObj :=
  registrations.read .byValue .nftDataValue (.ok (.dataValue v))

def extract : NftObj → Conversion NftDataValue
  | .dataValue v => .built v none
  | .plain _ => .raised .typeError

end NftDataValue

namespace NftObj

def getName : NftObj → Except PyErr PyObj
  | dataValue v => v.getName
  | plain _ => .error .attributeError

def getValue : NftObj → Except PyErr PyObj
  | dataValue v => v.getValue
  | plain _ => .error .attributeError

end NftObj

/-! ## `UpadateNonFungibleTokenData` -/

structure NonFungibleTokenUpdateDataOperation where
  fee : Asset
  modifier : IdNumber
  nftDataId : IdNumber
  data : List NftDataValue

namespace NonFungibleTokenUpdateDataOperation

def dataMember : Member NonFungibleTokenUpdateDataOperation (List NftDataValue) where
  get := data
  set t c := { t with data := c }
  get_set _ _ := rfl
  set_get _ := rfl
  set_set _ _ _ := rfl

def getData (op : NonFungibleTokenUpdateDataOperation) : Except PyErr (List NftObj) :=
  encodeList NftDataValue.toPython dataMember op

def setData (l : List NftObj) : Call NonFungibleTokenUpdateDataOperation Unit :=
  decodeList NftDataValue.extract dataMember l

/-- Build an entry of each pair and assign the list of them. -/
def assignPairs (ps : List (List CodePoint × PyObj)) :
    Call NonFungibleTokenUpdateDataOperation Unit := do
  let vs ← ps.mapM fun p => NftDataValue.init [.str p.1, p.2]
  setData (vs.map .dataValue)

end NonFungibleTokenUpdateDataOperation

open NonFungibleTokenUpdateDataOperation

/-- The pairs are assigned and read back, entry by entry. -/
def PairsReadBack (ps : List (List CodePoint × PyObj))
    (b : Bound NonFungibleTokenUpdateDataOperation) : Prop :=
  ∃ b' es, (assignPairs ps).run b = .ok () b' ∧ getData b'.obj = .ok es ∧
    List.Forall₂ (fun p e => NftObj.getName e = .ok (.str p.1) ∧ e.getValue = .ok p.2) ps es

/-- What an entry of `ps` is stored as. -/
def Stores (p : List CodePoint × PyObj) (v : NftDataValue) : Prop :=
  PyObj.ofString v.first = .ok (.str p.1) ∧ VariantConverter.convert v.second = .ok p.2

theorem init_run {T : Type} {name : List CodePoint} {value : PyObj}
    (hname : (Text.encode name).isSome) (hvalue : Faithful value) (b : Bound T) :
    ∃ v, (NftDataValue.init [.str name, value]).run b = .ok v b ∧ Stores (name, value) v := by
  obtain ⟨bs, hbs⟩ := Option.isSome_iff_exists.mp hname
  obtain ⟨w, hw, hback⟩ := extract_faithful hvalue
  have hconv : VariantConverter.convertible value = true := by
    by_contra h
    unfold VariantConverter.extract at hw
    rw [if_neg h] at hw
    cases hw
  refine ⟨⟨bs, w⟩, ?_, PyObj.ofString_of_encode hbs, hback⟩
  rw [NftDataValue.init, if_pos hconv, PyObj.extractString_of_encode hbs, hw]
  rfl

theorem mapM_init_run {T : Type} (b : Bound T) :
    ∀ {ps : List (List CodePoint × PyObj)}, (∀ p ∈ ps, (Text.encode p.1).isSome) →
      (∀ p ∈ ps, Faithful p.2) →
      ∃ vs, (ps.mapM fun p => NftDataValue.init [.str p.1, p.2]).run b = .ok vs b ∧
        List.Forall₂ Stores ps vs
  | [], _, _ => ⟨[], rfl, .nil⟩
  | p :: ps, hnames, hvalues => by
    obtain ⟨hname, hnames⟩ := List.forall_mem_cons.mp hnames
    obtain ⟨hvalue, hvalues⟩ := List.forall_mem_cons.mp hvalues
    obtain ⟨v, hv, hstores⟩ := init_run hname hvalue b
    obtain ⟨vs, hvs, hall⟩ := mapM_init_run b hnames hvalues
    refine ⟨v :: vs, ?_, .cons hstores hall⟩
    rw [List.mapM_cons, run_bind_ok hv, run_bind_ok hvs]
    rfl

theorem toPython_eq (v : NftDataValue) : v.toPython = .ok (.dataValue v) := rfl

theorem setData_run (vs : List NftDataValue) (b : Bound NonFungibleTokenUpdateDataOperation) :
    (setData (vs.map .dataValue)).run b = .ok () ⟨b.interp, dataMember.set b.obj vs⟩ := by
  have hconv : ∀ o ∈ vs.map NftObj.dataValue, convertible NftDataValue.extract o = true := by
    intro o ho
    obtain ⟨v, -, rfl⟩ := List.mem_map.mp ho
    rfl
  have hleave : leaveAll NftDataValue.extract (vs.map .dataValue) b.interp = b.interp := by
    induction vs with
    | nil => rfl
    | cons v vs ih => exact ih fun o ho => hconv o (List.mem_cons_of_mem _ ho)
  unfold setData
  rw [decodeList_run NftDataValue.extract dataMember hconv b, hleave,
    values_map_toPython (fun _ => rfl)]

theorem assignPairs_run {ps : List (List CodePoint × PyObj)}
    (hnames : ∀ p ∈ ps, (Text.encode p.1).isSome) (hvalues : ∀ p ∈ ps, Faithful p.2)
    (b : Bound NonFungibleTokenUpdateDataOperation) :
    ∃ vs, (assignPairs ps).run b = .ok () ⟨b.interp, dataMember.set b.obj vs⟩ ∧
      getData (dataMember.set b.obj vs) = .ok (vs.map .dataValue) ∧
      List.Forall₂ Stores ps vs := by
  obtain ⟨vs, hrun, hall⟩ := mapM_init_run b hnames hvalues
  refine ⟨vs, ?_, ?_, hall⟩
  · unfold assignPairs
    rw [run_bind_ok hrun, setData_run]
  · unfold getData
    rw [encodeList_eq, Member.get_set, mapM_ok_iff, List.forall₂_map_right_iff,
      List.forall₂_same]
    intro v _
    exact toPython_eq v

/-- No class is registered for `fc::variant`, and `value` is not read by value. -/
theorem getValue_eq (v : NftDataValue) : v.getValue = .error .typeError := by
  have h : ¬ registrations.reads .variant (registrations.defReadwrite .variant) = true := by
    rw [Registrations.reads_defReadwrite_iff]
    decide
  unfold NftDataValue.getValue Registrations.read
  rw [if_neg h]

theorem eq_nil_of_pairsReadBack {ps : List (List CodePoint × PyObj)}
    {b : Bound NonFungibleTokenUpdateDataOperation} (h : PairsReadBack ps b) : ps = [] := by
  obtain ⟨b', es, -, -, hes⟩ := h
  cases hes with
  | nil => rfl
  | @cons p e _ _ hp _ =>
    cases e with
    | plain o => cases hp.2
    | dataValue v => cases (getValue_eq v).symm.trans hp.2

/-- Only the empty list of pairs is read back. Of any other whose names can be
encoded, the names are read back and the values stored, but not shown. -/
theorem pairs_read_back_iff (ps : List (List CodePoint × PyObj)) (h : ∀ p ∈ ps, Faithful p.2)
    (b : Bound NonFungibleTokenUpdateDataOperation) :
    (PairsReadBack ps b ↔ ps = []) ∧
      ((∀ p ∈ ps, (Text.encode p.1).isSome) →
        ∃ b' vs, (assignPairs ps).run b = .ok () b' ∧
          getData b'.obj = .ok (vs.map .dataValue) ∧
          List.Forall₂ (fun p v => v.getName = .ok (.str p.1) ∧
            VariantConverter.convert v.second = .ok p.2 ∧ v.getValue = .error .typeError) ps vs) := by
  refine ⟨⟨eq_nil_of_pairsReadBack, ?_⟩, ?_⟩
  · intro hnil
    subst hnil
    have hnames : ∀ p ∈ ([] : List (List CodePoint × PyObj)), (Text.encode p.1).isSome := nofun
    obtain ⟨vs, hrun, hget, hall⟩ := assignPairs_run hnames nofun b
    cases hall
    exact ⟨_, _, hrun, hget, .nil⟩
  · intro hnames
    obtain ⟨vs, hrun, hget, hall⟩ := assignPairs_run hnames h b
    refine ⟨_, vs, hrun, hget, hall.imp ?_⟩
    intro p v hstores
    exact ⟨hstores.1, hstores.2, getValue_eq v⟩

def emptyUpdate : NonFungibleTokenUpdateDataOperation := ⟨⟨0, 0⟩, 0, 0, []⟩

theorem pairs_read_back_iff_one : ¬ PairsReadBack [([97], .int 1)] ⟨{}, emptyUpdate⟩ :=
  fun h => List.cons_ne_nil _ _
    ((pairs_read_back_iff [([97], .int 1)] (by simp [Faithful]) ⟨{}, emptyUpdate⟩).1.mp h)

theorem value_of_pair_not_shown :
    ∃ b' v, (assignPairs [([97], .int 1)]).run ⟨{}, emptyUpdate⟩ = .ok () b' ∧
      getData b'.obj = .ok [.dataValue v] ∧ v.getName = .ok (.str [97]) ∧
      VariantConverter.convert v.second = .ok (.int 1) ∧ v.getValue = .error .typeError ∧
      ¬ PairsReadBack [([97], .int 1)] ⟨{}, emptyUpdate⟩ := by
  have hnames : ∀ p ∈ [([97], PyObj.int 1)], (Text.encode p.1).isSome :=
    List.forall_mem_singleton.mpr rfl
  obtain ⟨vs, hrun, hget, hall⟩ := assignPairs_run hnames (by simp [Faithful]) ⟨{}, emptyUpdate⟩
  cases hall with
  | @cons p v _ _ hstores hrest =>
    cases hrest
    exact ⟨_, v, hrun, hget, hstores.1, hstores.2, getValue_eq v,
      fun h => by cases eq_nil_of_pairsReadBack h⟩

end DCore
