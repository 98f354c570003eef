import Mathlib.Data.List.Pairwise
import DCorePython.Assignment

/-!
# Optional attributes

The getter of an optional attribute gives `None` when nothing is set. The
setter's parameter is the value type, which `None` does not convert to, so what
was read as `None` cannot be written, and a value once set stays set.
-/

namespace DCore

open Loop Call

/-- An attribute with `decode_optional_type` and `encode_optional_type`. The
converters of its value type are inverse to each other, and `None` is refused. -/
structure OptionalAttribute (Obj T : Type) [PyNone Obj] where
  Value : Type
  member : Member T (Option Value)
  toPython : Value → Except PyErr Obj
  extract : Obj → Conversion Value
  extract_toPython : ∀ {v o}, toPython v = .ok o → (extract o).value? = some v
  extract_none : (extract PyNone.none).value? = none

section
variable {Obj T : Type} [PyNone Obj]

namespace OptionalAttribute

variable (a : OptionalAttribute Obj T)

def get (t : T) : Except PyErr Obj := decodeOptionalType a.toPython a.member t

def set (v : Obj) : Call T Unit := encodeOptionalType a.extract a.member v

def Holds (t : T) : Prop := ∃ v o, a.member.get t = some v ∧ a.toPython v = .ok o

def Apart (a a' : OptionalAttribute Obj T) : Prop := a.member.Apart a'.member

variable {a}

theorem set_run {o : Obj} {v : a.Value} (h : (a.extract o).value? = some v) (b : Bound T) :
    (a.set o).run b = .ok ()
      ⟨b.interp.leave (a.extract o).leaves, a.member.set b.obj (some v)⟩ := by
  have hb := Conversion.eq_built_of_value? h
  unfold set encodeOptionalType
  rw [hb, run_bind_ok (build_built v _ b)]
  rfl

theorem set_run_error {o : Obj} (h : (a.extract o).value? = none) (b : Bound T) :
    ∃ e, (a.set o).run b = .error e b := by
  obtain ⟨e, he⟩ := Conversion.eq_raised_of_value? h
  exact ⟨e, by rw [set, encodeOptionalType, he, run_bind_error (build_raised e b)]⟩

theorem set_get_run {x : T} (h : a.Holds x) (b : Bound T) :
    ∃ o i, a.get x = .ok o ∧
      (a.set o).run b = .ok () ⟨i, a.member.set b.obj (a.member.get x)⟩ := by
  obtain ⟨v, o, hv, ho⟩ := h
  refine ⟨o, _, ?_, by rw [hv]; exact set_run (a.extract_toPython ho) b⟩
  unfold get decodeOptionalType
  rw [hv]
  exact ho

theorem holds_of_set_get {x : T} {o : Obj} {b b' : Bound T} (hget : a.get x = .ok o)
    (hset : (a.set o).run b = .ok () b') : a.Holds x := by
  unfold get decodeOptionalType at hget
  cases hv : a.member.get x with
  | some v =>
    rw [hv] at hget
    exact ⟨v, o, hv, hget⟩
  | none =>
    rw [hv] at hget
    cases hget
    obtain ⟨e, he⟩ := set_run_error a.extract_none b
    rw [he] at hset
    cases hset

instance : Std.Symm (@OptionalAttribute.Apart Obj T _) := ⟨fun _ _ h => h.symm⟩

/-- The sibling `decode_optional_value` takes back whatever the getter gives. -/
theorem decodeOptionalValue_get_run {x : T} {o : Obj} (h : a.get x = .ok o) {C : Type}
    (b : Bound C) :
    ∃ i, (decodeOptionalValue a.extract o).run b = .ok (a.member.get x) ⟨i, b.obj⟩ := by
  unfold get decodeOptionalType at h
  cases hv : a.member.get x with
  | none =>
    rw [hv] at h
    cases h
    unfold decodeOptionalValue
    rw [if_pos ((PyNone.isNone_iff _).mpr rfl)]
    exact ⟨b.interp, rfl⟩
  | some v =>
    rw [hv] at h
    have ho : (a.extract o).value? = some v := a.extract_toPython h
    have hne : ¬ PyNone.isNone o = true := by
      rw [PyNone.isNone_iff]
      intro h
      subst h
      rw [a.extract_none] at ho
      cases ho
    unfold decodeOptionalValue
    rw [if_neg hne, Conversion.eq_built_of_value? ho,
      run_bind_ok (build_built v _ b)]
    exact ⟨_, rfl⟩

end OptionalAttribute

structure OptionalClass (Obj T : Type) [PyNone Obj] where
  attributes : List (OptionalAttribute Obj T)
  apart : attributes.Pairwise OptionalAttribute.Apart

/-- `y.a = x.a` for every attribute `a` of the list, run on `y`. -/
def copyOptionals : List (OptionalAttribute Obj T) → T → Call T Unit
  | [], _ => pure ()
  | a :: as, x => do
    let o ← build (.ofExcept (a.get x))
    a.set o
    copyOptionals as x

/-- Make the assignments of a list, the head first, and go on when one
raises. -/
def runSetters : List (OptionalAttribute Obj T × Obj) → Bound T → Bound T
  | [], b => b
  | (a, o) :: calls, b =>
    match (a.set o).run b with
    | .ok _ b' => runSetters calls b'
    | .error _ b' => runSetters calls b'

/-! ## Copying -/

theorem copyOptionals_run {x : T} :
    ∀ {as : List (OptionalAttribute Obj T)}, as.Pairwise OptionalAttribute.Apart →
      (∀ a ∈ as, a.Holds x) → ∀ b : Bound T, ∃ b', (copyOptionals as x).run b = .ok () b' ∧
        (∀ a ∈ as, a.member.get b'.obj = a.member.get x) ∧
        ∀ a', (∀ a ∈ as, a.Apart a') → a'.member.get b'.obj = a'.member.get b.obj
  | [], _, _, b => ⟨b, rfl, by simp, by simp⟩
  | a :: as, hap, hx, b => by
    obtain ⟨ha, has⟩ := List.pairwise_cons.mp hap
    obtain ⟨hxa, hxas⟩ := List.forall_mem_cons.mp hx
    obtain ⟨o, i, hget, hset⟩ := OptionalAttribute.set_get_run hxa b
    obtain ⟨b', hrun, hcopied, hframe⟩ :=
      copyOptionals_run has hxas ⟨i, a.member.set b.obj (a.member.get x)⟩
    refine ⟨b', ?_, List.forall_mem_cons.mpr ⟨?_, hcopied⟩, fun a' h' => ?_⟩
    · unfold copyOptionals
      rw [hget, Conversion.ofExcept, run_bind_ok (build_built o none b),
        Interp.leave_none, run_bind_ok hset, hrun]
    · rw [hframe a fun c hc => (ha c hc).symm, Member.get_set]
    · obtain ⟨haa', has'⟩ := List.forall_mem_cons.mp h'
      rw [hframe a' has', haa'.1]

theorem holds_of_copyOptionals {x : T} :
    ∀ {as : List (OptionalAttribute Obj T)} {b b' : Bound T},
      (copyOptionals as x).run b = .ok () b' → ∀ a ∈ as, a.Holds x
  | [], _, _, _ => by simp
  | a :: as, b, b', h => by
    unfold copyOptionals at h
    cases hget : a.get x with
    | error e =>
      rw [hget, Conversion.ofExcept, run_bind_error (build_raised e b)] at h
      cases h
    | ok o =>
      rw [hget, Conversion.ofExcept, run_bind_ok (build_built o none b), Interp.leave_none] at h
      cases hset : (a.set o).run b with
      | error e b₁ => rw [run_bind_error hset] at h; cases h
      | ok u b₁ =>
        rw [run_bind_ok hset] at h
        exact List.forall_mem_cons.mpr
          ⟨OptionalAttribute.holds_of_set_get hget hset, holds_of_copyOptionals h⟩

/-! ## Runs of assignments -/

theorem isSome_set {K : OptionalClass Obj T} {a : OptionalAttribute Obj T}
    (ha : a ∈ K.attributes) {c : OptionalAttribute Obj T × Obj} (hc : c.1 ∈ K.attributes)
    {b : Bound T} (h : (a.member.get b.obj).isSome) :
    (a.member.get (runSetters [c] b).obj).isSome := by
  obtain ⟨c, o⟩ := c
  cases hv : (c.extract o).value? with
  | none =>
    obtain ⟨e, he⟩ := OptionalAttribute.set_run_error hv b
    simpa only [runSetters, he] using h
  | some v =>
    simp only [runSetters, OptionalAttribute.set_run hv b]
    by_cases hac : a = c
    · subst hac
      simp
    · have hapart : a.Apart c := K.apart.forall ha hc hac
      rw [hapart.2]
      exact h

theorem runSetters_cons (c : OptionalAttribute Obj T × Obj)
    (calls : List (OptionalAttribute Obj T × Obj)) (b : Bound T) :
    runSetters (c :: calls) b = runSetters calls (runSetters [c] b) := by
  simp only [runSetters]
  cases (c.1.set c.2).run b <;> rfl

theorem isSome_runSetters {K : OptionalClass Obj T} {a : OptionalAttribute Obj T}
    (ha : a ∈ K.attributes) :
    ∀ {calls : List (OptionalAttribute Obj T × Obj)}, (∀ c ∈ calls, c.1 ∈ K.attributes) →
      ∀ {b : Bound T}, (a.member.get b.obj).isSome →
        (a.member.get (runSetters calls b).obj).isSome
  | [], _, _, h => h
  | c :: calls, hcalls, b, h => by
    obtain ⟨hc, hcs⟩ := List.forall_mem_cons.mp hcalls
    rw [runSetters_cons]
    exact isSome_runSetters ha hcs (isSome_set ha hc h)

/-- Copying the optional attributes of `x` succeeds and makes them equal to
those of `x` exactly when all of these hold values; and no run of assignments
unsets an attribute. -/
theorem copyOptionals_iff (K : OptionalClass Obj T) (x : T) (b : Bound T) :
    ((∃ b', (copyOptionals K.attributes x).run b = .ok () b' ∧
        ∀ a ∈ K.attributes, a.member.get b'.obj = a.member.get x) ↔
      ∀ a ∈ K.attributes, a.Holds x) ∧
    ∀ calls : List (OptionalAttribute Obj T × Obj), (∀ c ∈ calls, c.1 ∈ K.attributes) →
      ∀ a ∈ K.attributes, (a.member.get b.obj).isSome →
        (a.member.get (runSetters calls b).obj).isSome := by
  refine ⟨⟨fun ⟨_, h, _⟩ => holds_of_copyOptionals h, fun h => ?_⟩,
    fun calls hcalls a ha hsome => isSome_runSetters ha hcalls hsome⟩
  obtain ⟨b', hrun, hcopied, -⟩ := copyOptionals_run K.apart h b
  exact ⟨b', hrun, hcopied⟩

end

/-! ## `UpdateAccount` -/

structure AccountOptions where
  memoKey : PublicKey
  votingAccount : IdNumber
  numMiner : Fin (2 ^ 16)
  allowSubscription : Bool
  pricePerSubscribe : Asset
  subscriptionPeriod : Fin (2 ^ 32)
  votes : ValueSet VoteId
  deriving DecidableEq

structure AccountUpdateOperation where
  fee : Asset
  account : IdNumber
  owner : Option Authority
  active : Option Authority
  newOptions : Option AccountOptions
  deriving DecidableEq

inductive AccountUpdateObj
  | none
  | authority (a : Authority)
  | accountOptions (o : AccountOptions)
  | other
  deriving DecidableEq

instance : PyNone AccountUpdateObj where
  none := .none
  isNone o := o == .none
  isNone_iff o := by simp

namespace AccountUpdateOperation

def authorityAttribute (member : Member AccountUpdateOperation (Option Authority)) :
    OptionalAttribute AccountUpdateObj AccountUpdateOperation where
  Value := Authority
  member := member
  toPython a := .ok (.authority a)
  extract
    | .authority a => .built a none
    | _ => .raised .typeError
  extract_toPython h := by cases h; rfl
  extract_none := rfl

def ownerAttribute : OptionalAttribute AccountUpdateObj AccountUpdateOperation :=
  authorityAttribute
    { get := owner
      set := fun t c => { t with owner := c }
      get_set := fun _ _ => rfl
      set_get := fun _ => rfl
      set_set := fun _ _ _ => rfl }

def activeAttribute : OptionalAttribute AccountUpdateObj AccountUpdateOperation :=
  authorityAttribute
    { get := active
      set := fun t c => { t with active := c }
      get_set := fun _ _ => rfl
      set_get := fun _ => rfl
      set_set := fun _ _ _ => rfl }

def optionsAttribute : OptionalAttribute AccountUpdateObj AccountUpdateOperation where
  Value := AccountOptions
  member :=
    { get := newOptions
      set := fun t c => { t with newOptions := c }
      get_set := fun _ _ => rfl
      set_get := fun _ => rfl
      set_set := fun _ _ _ => rfl }
  toPython o := .ok (.accountOptions o)
  extract
    | .accountOptions o => .built o none
    | _ => .raised .typeError
  extract_toPython h := by cases h; rfl
  extract_none := rfl

def updateAccount : OptionalClass AccountUpdateObj AccountUpdateOperation where
  attributes := [ownerAttribute, activeAttribute, optionsAttribute]
  apart :=
    .cons (List.forall_mem_cons.mpr ⟨⟨fun _ _ => rfl, fun _ _ => rfl⟩,
        List.forall_mem_singleton.mpr ⟨fun _ _ => rfl, fun _ _ => rfl⟩⟩)
      (.cons (List.forall_mem_singleton.mpr ⟨fun _ _ => rfl, fun _ _ => rfl⟩)
        (List.pairwise_singleton _ _))

def unset : AccountUpdateOperation := ⟨⟨0, 0⟩, 0, none, none, none⟩

theorem copy_unset_owner :
    ∃ b', (copyOptionals updateAccount.attributes unset).run
        ⟨{}, { unset with owner := some (accountAuthority 10 1) }⟩ = .error .typeError b' ∧
      ownerAttribute.member.get b'.obj ≠ ownerAttribute.member.get unset :=
  ⟨_, rfl, by simp [ownerAttribute, authorityAttribute, unset]⟩

end AccountUpdateOperation

/-! ## `UpdateMiner` -/

structure MinerUpdateOperation where
  fee : Asset
  miner : IdNumber
  minerAccount : IdNumber
  newUrl : Option (List UInt8)
  newSigningKey : Option PublicKey
  deriving DecidableEq

inductive MinerUpdateObj
  | none
  | str (s : List CodePoint)
  | publicKey (k : PublicKey)
  | other
  deriving DecidableEq

instance : PyNone MinerUpdateObj where
  none := .none
  isNone o := o == .none
  isNone_iff o := by simp

namespace MinerUpdateOperation

/-- The bytes of a `std::string` need not be UTF-8. -/
def stringToPython (v : List UInt8) : Except PyErr MinerUpdateObj :=
  match Text.decode v with
  | some s => .ok (.str s)
  | none => .error .unicodeDecodeError

def extractString : MinerUpdateObj → Conversion (List UInt8)
  | .str s =>
    match Text.encode s with
    | some v => .built v none
    | none => .raised .unicodeEncodeError
  | _ => .raised .typeError

theorem extractString_toPython {v : List UInt8} {o : MinerUpdateObj}
    (h : stringToPython v = .ok o) : (extractString o).value? = some v := by
  unfold stringToPython at h
  cases hs : Text.decode v with
  | none => rw [hs] at h; cases h
  | some s =>
    rw [hs] at h
    cases h
    rw [extractString, Text.encode_decode hs]
    rfl

def urlAttribute : OptionalAttribute MinerUpdateObj MinerUpdateOperation where
  Value := List UInt8
  member :=
    { get := newUrl
      set := fun t c => { t with newUrl := c }
      get_set := fun _ _ => rfl
      set_get := fun _ => rfl
      set_set := fun _ _ _ => rfl }
  toPython := stringToPython
  extract := extractString
  extract_toPython := extractString_toPython
  extract_none := rfl

def blockSigningKeyAttribute : OptionalAttribute MinerUpdateObj MinerUpdateOperation where
  Value := PublicKey
  member :=
    { get := newSigningKey
      set := fun t c => { t with newSigningKey := c }
      get_set := fun _ _ => rfl
      set_get := fun _ => rfl
      set_set := fun _ _ _ => rfl }
  toPython k := .ok (.publicKey k)
  extract
    | .publicKey k => .built k none
    | _ => .raised .typeError
  extract_toPython h := by cases h; rfl
  extract_none := rfl

def updateMiner : OptionalClass MinerUpdateObj MinerUpdateOperation where
  attributes := [urlAttribute, blockSigningKeyAttribute]
  apart := .cons (List.forall_mem_singleton.mpr ⟨fun _ _ => rfl, fun _ _ => rfl⟩)
    (List.pairwise_singleton _ _)

def renamed : MinerUpdateOperation := ⟨⟨0, 0⟩, 0, 0, some [97], some 7⟩

theorem copyOptionals_iff_renamed :
    (∃ b', (copyOptionals updateMiner.attributes renamed).run
        ⟨{}, { renamed with newUrl := some [98], newSigningKey := none }⟩ = .ok () b' ∧
      ∀ a ∈ updateMiner.attributes, a.member.get b'.obj = a.member.get renamed) ∧
    (urlAttribute.member.get
      (runSetters [(urlAttribute, .none), (urlAttribute, .str [99])] ⟨{}, renamed⟩).obj).isSome := by
  refine ⟨(copyOptionals_iff updateMiner renamed _).1.mpr ?_,
    (copyOptionals_iff updateMiner renamed ⟨{}, renamed⟩).2 _ ?_ urlAttribute ?_ rfl⟩
  · refine List.forall_mem_cons.mpr ⟨⟨[97], .str [97], rfl, ?_⟩,
      List.forall_mem_singleton.mpr ⟨(7 : PublicKey), .publicKey 7, rfl, rfl⟩⟩
    have h : Text.decode [97] = some [97] := Text.decode_encode (by decide)
    simp only [urlAttribute, stringToPython, h]
  · simp [updateMiner]
  · simp [updateMiner]

end MinerUpdateOperation

end DCore
