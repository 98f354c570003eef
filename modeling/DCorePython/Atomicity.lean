import DCorePython.Assignment
import DCorePython.Wrapping

/-!
# Failed assignments

A decoder writes while it walks, so an assignment that raises leaves the object
unchanged only when what it wrote was there before.
-/

namespace DCore

open Loop Call

/-- The call raises and leaves the object as it was. -/
def Atomic {T : Type} (c : Call T Unit) (b : Bound T) : Prop :=
  ∃ e b', c.run b = .error e b' ∧ b'.obj = b.obj

theorem atomic_iff {T : Type} {c : Call T Unit} {b : Bound T} {e : PyErr} {i : Interp} {t : T}
    (h : c.run b = .error e ⟨i, t⟩) : Atomic c b ↔ t = b.obj := by
  refine ⟨?_, ?_⟩
  · intro h
    obtain ⟨e', b', h', hobj⟩ := h
    rw [h] at h'
    cases h'
    exact hobj
  · intro ht
    exact ⟨e, _, h, ht⟩

theorem not_atomic_of_error {T : Type} {c : Call T Unit} {b b' : Bound T} {e : PyErr}
    (h : c.run b = .error e b') (hne : b'.obj ≠ b.obj) : ¬ Atomic c b :=
  fun hatomic => hne ((atomic_iff h).mp hatomic)

section
variable {Obj T α κ ν : Type}

/-! ## Lists -/

/-- The old list has the length of the new one, and ends with the values of the
elements behind the last one that cannot be converted. -/
def ListHolds (extract : Obj → Conversion α) (old : List α) (l : List Obj) : Prop :=
  old.length = l.length ∧ values extract (l.rtakeWhile (convertible extract)) <:+ old

theorem resize_length [Inhabited α] (c : List α) : resize c c.length = c := by
  simp [resize]

theorem overwritten_eq_iff [Inhabited α] (old r : List α) {n k : Nat} (h : n = k + r.length) :
    (resize old n).take k ++ r = old ↔ old.length = n ∧ r <:+ old := by
  refine ⟨?_, ?_⟩
  · intro he
    refine ⟨?_, _, he⟩
    rw [← he, List.length_append, List.length_take, length_resize]
    omega
  · intro h
    obtain ⟨rfl, x, rfl⟩ := h
    have hx : x.length = k := by rw [List.length_append] at h; omega
    rw [resize_length, List.take_left' hx]

theorem decodeList_atomic_iff [Inhabited α] (extract : Obj → Conversion α)
    (container : Member T (List α)) {l : List Obj} (hl : ∃ o ∈ l, convertible extract o = false)
    (b : Bound T) :
    (∃ e b', (decodeList extract container l).run b = .error e b') ∧
      (Atomic (decodeList extract container l) b ↔
        ListHolds extract (container.get b.obj) l) := by
  obtain ⟨l₁, o, e, -, hsplit, hrun⟩ := decodeList_failed extract container hl b
  refine ⟨⟨_, _, hrun⟩, ?_⟩
  rw [atomic_iff hrun, Member.set_eq_self_iff, ListHolds]
  apply overwritten_eq_iff _ _
  rw [length_values fun o => List.mem_rtakeWhile_imp]
  have := congrArg List.length hsplit
  rw [List.length_append, List.length_cons] at this
  omega

theorem decodeProposedOperations_atomic_iff {F : OpClass → Type} [Inhabited (Operation F)]
    {l : List (OpObj F)} (hl : ∃ o ∈ l, convertible extractOperation o = false)
    (b : Bound (ProposalCreateOperation F)) :
    (∃ e b', (decodeProposedOperations l).run b = .error e b') ∧
      (Atomic (decodeProposedOperations l) b ↔
        ListHolds extractOpWrapper b.obj.proposedOps l) := by
  have hc : ∀ o : OpObj F, convertible extractOpWrapper o = convertible extractOperation o := by
    intro o
    cases o <;> rfl
  rw [decodeProposedOperations_eq]
  exact decodeList_atomic_iff _ _ (by simpa only [hc] using hl) b

/-! ## Sets -/

def SetHolds [LinearOrder κ] {key : α → κ} (extract : Obj → Conversion α) (old : OrderedSet key)
    (l : List Obj) : Prop :=
  ∀ a ∈ values extract (l.rtakeWhile (convertible extract)), (old.find? (key a)).isSome

theorem decodeSet_atomic_iff [LinearOrder κ] {key : α → κ} (extract : Obj → Conversion α)
    (container : Member T (OrderedSet key)) {l : List Obj}
    (hl : ∃ o ∈ l, convertible extract o = false) (b : Bound T) :
    (∃ e b', (decodeSet extract container l).run b = .error e b') ∧
      (Atomic (decodeSet extract container l) b ↔
        SetHolds extract (container.get b.obj) l) := by
  obtain ⟨e, i, hrun⟩ := decodeSet_failed extract container hl b
  refine ⟨⟨_, _, hrun⟩, ?_⟩
  rw [atomic_iff hrun, Member.set_eq_self_iff, OrderedSet.insertBack_eq_self_iff]
  rfl

/-! ## Dicts -/

/-- The old map has the entries behind the last item that cannot be converted,
and the key of that item when `operator[]` is called before the conversion that
fails. -/
def MapHolds [LinearOrder κ] [PyObject Obj] (order : EvalOrder) (extractKey : Obj → Conversion κ)
    (extractMapped : Obj → Conversion ν) (old : OrderedMap κ ν) (d : PyDict Obj) : Prop :=
  old.contents.Extends (OrderedMap.firstEntry (entries extractKey extractMapped
    (d.items.rtakeWhile (convertibleItem extractKey extractMapped)))) ∧
  (order = .keySubscriptMapped →
    ∀ e, lastFailing (convertibleItem extractKey extractMapped) d.items = some e →
      ∀ k, (extractKey e.1).value? = some k → (old.find? k).isSome)

theorem subscript_putBack_eq_iff [LinearOrder κ] [Inhabited ν] (m : OrderedMap κ ν)
    (es : List (κ × ν)) (k : κ) :
    OrderedMap.subscript (OrderedMap.putBack m es) k = m ↔
      OrderedMap.putBack m es = m ∧ (m.find? k).isSome := by
  refine ⟨?_, ?_⟩
  · intro h
    have hk : (m.find? k).isSome := by
      rw [← h, OrderedMap.subscript, OrderedSet.find?_insert, if_pos rfl]
      cases (OrderedMap.putBack m es).find? k <;> rfl
    have hput : ((OrderedMap.putBack m es).find? k).isSome := by
      have := congrFun (OrderedMap.contents_putBack m es) k
      rw [OrderedSet.contents_apply] at this
      rw [this, PartialMap.overlay_apply, Option.isSome_or, OrderedSet.contents_apply, hk,
        Bool.or_true]
    rw [(OrderedMap.subscript_eq_self_iff _ k).mpr hput] at h
    exact ⟨h, hk⟩
  · intro h
    obtain ⟨h, hk⟩ := h
    rw [h, OrderedMap.subscript_eq_self_iff]
    exact hk

theorem halfAssigned_eq_iff [LinearOrder κ] [Inhabited ν] (order : EvalOrder) (m : OrderedMap κ ν)
    (es : List (κ × ν)) (key : Conversion κ) :
    halfAssigned order (OrderedMap.putBack m es) key = m ↔
      OrderedMap.putBack m es = m ∧
        (order = .keySubscriptMapped → ∀ k, key.value? = some k → (m.find? k).isSome) := by
  cases order with
  | keySubscriptMapped =>
    cases hk : key.value? with
    | none => simp [halfAssigned, hk]
    | some k => simp [halfAssigned, hk, subscript_putBack_eq_iff]
  | keyMappedSubscript => simp [halfAssigned]
  | mappedKeySubscript => simp [halfAssigned]

theorem decodeDict_atomic_iff [LinearOrder κ] [Inhabited ν] [PyObject Obj] (order : EvalOrder)
    (extractKey : Obj → Conversion κ) (extractMapped : Obj → Conversion ν)
    (container : Member T (OrderedMap κ ν)) {d : PyDict Obj}
    (hd : ∃ e ∈ d.items, convertibleItem extractKey extractMapped e = false) (b : Bound T) :
    (∃ e b', (decodeDict order extractKey extractMapped container d).run b = .error e b') ∧
      (Atomic (decodeDict order extractKey extractMapped container d) b ↔
        MapHolds order extractKey extractMapped (container.get b.obj) d) := by
  obtain ⟨e, err, i, hlast, hrun⟩ :=
    decodeDict_failed order extractKey extractMapped container hd b
  refine ⟨⟨_, _, hrun⟩, ?_⟩
  rw [atomic_iff hrun, Member.set_eq_self_iff, halfAssigned_eq_iff, OrderedMap.putBack_eq_self_iff,
    MapHolds, hlast]
  simp only [Option.some.injEq, forall_eq']

end

/-! ## Every collection attribute -/

namespace CollectionAttribute

variable {V T : Type}

def Keeps : CollectionAttribute V T → T → V → Prop
  | list extract container, t, l => ListHolds extract (container.get t) l
  | proposedOperations _, t, l => ListHolds extractOpWrapper t.proposedOps l
  | set _ extract container, t, l => SetHolds extract (container.get t) l
  | dict order extractKey extractMapped container, t, d =>
    MapHolds order extractKey extractMapped (container.get t) d

/-- Assigning a list or dict with an element that cannot be converted raises, and
it leaves the object as it was exactly when the writes before the failure repeat
what the object holds. -/
theorem failed_assignment_atomic_iff (a : CollectionAttribute V T) (v : V) (b : Bound T)
    (h : a.Unconvertible v) :
    (∃ e b', (a.assign v).run b = .error e b') ∧ (Atomic (a.assign v) b ↔ a.Keeps b.obj v) := by
  cases a with
  | list extract container => exact decodeList_atomic_iff extract container h b
  | proposedOperations F => exact decodeProposedOperations_atomic_iff h b
  | set key extract container => exact decodeSet_atomic_iff extract container h b
  | dict order extractKey extractMapped container =>
    exact decodeDict_atomic_iff order extractKey extractMapped container h b

end CollectionAttribute

def threeAccounts : Authority where
  weightThreshold := 1
  accountAuths := OrderedSet.ofBack Prod.fst [(10, 1), (11, 2), (12, 7)]
  keyAuths := OrderedSet.empty

/-- `{AccountId(12): None, AccountId(11): 2}` -/
def unweightedFirst : PyDict PyObj :=
  ⟨[(.id 0 .accountId 12, .none), (.id 1 .accountId 11, .int 2)], by decide⟩

/-- `{AccountId(13): 5, AccountId(12): None, AccountId(11): 2}` -/
def unweightedMiddle : PyDict PyObj :=
  ⟨[(.id 2 .accountId 13, .int 5), (.id 0 .accountId 12, .none), (.id 1 .accountId 11, .int 2)],
    by decide⟩

theorem failed_assignment_atomic_iff_repeated :
    Atomic (decodeList (PyObj.extractUnsigned 16) Member.self [.int 7, PyObj.none, .int 6])
        ⟨{}, [(5 : Fin (2 ^ 16)), 9, 6]⟩ ∧
      Atomic (decodeProposedOperations
        [VariantObj.variant default, VariantObj.none, VariantObj.variant default])
        (⟨{}, ⟨⟨⟨0, 0⟩, 1, 0, none⟩, [default, default, default]⟩⟩ :
          Bound (ProposalCreateOperation fun _ => Nat)) ∧
      Atomic (ProposalUpdateOperation.setActiveApprovalsToAdd
        [.id 0 .accountId 9, .none, .id 1 .accountId 1]) ⟨{}, approvalUpdate 1⟩ ∧
      Atomic (Authority.setAccountAuths .keySubscriptMapped unweightedMiddle)
        ⟨{}, threeAccounts⟩ := by
  refine ⟨(CollectionAttribute.failed_assignment_atomic_iff
      (.list (PyObj.extractUnsigned 16) Member.self) [.int 7, .none, .int 6] _
      ⟨.none, by decide, rfl⟩).2.mpr ?_,
    (CollectionAttribute.failed_assignment_atomic_iff (.proposedOperations fun _ => Nat)
      [.variant default, .none, .variant default] _ ⟨.none, by simp, rfl⟩).2.mpr ?_,
    (CollectionAttribute.failed_assignment_atomic_iff
      (.set id (PyObj.extractId .accountId) ProposalUpdateOperation.activeApprovalsToAddMember)
      [.id 0 .accountId 9, .none, .id 1 .accountId 1] _ ⟨.none, by decide, rfl⟩).2.mpr ?_,
    (CollectionAttribute.failed_assignment_atomic_iff
      (.dict .keySubscriptMapped (PyObj.extractId .accountId) (PyObj.extractUnsigned 16)
        Authority.accountAuthsMember)
      unweightedMiddle _ ⟨(.id 0 .accountId 12, .none), by decide, rfl⟩).2.mpr ?_⟩
  · exact ⟨rfl, [5, 9], rfl⟩
  · exact ⟨rfl, [default, default], rfl⟩
  · intro a ha
    cases List.mem_singleton.mp ha
    rfl
  · refine ⟨(OrderedMap.putBack_eq_self_iff _ _).mp (by decide), ?_⟩
    intro _ e he k hk
    cases he
    cases hk
    rfl

/-- Assigning `unweightedFirst` raises, but leaves other accounts. -/
def LeavesAccounts (order : EvalOrder) (accounts : List (IdNumber × Weight)) : Prop :=
  (∃ b', (Authority.setAccountAuths order unweightedFirst).run ⟨{}, accountAuthority 10 1⟩ =
      .error .typeError b' ∧ b'.obj.accountAuths.toList = accounts) ∧
    ¬ Atomic (Authority.setAccountAuths order unweightedFirst) ⟨{}, accountAuthority 10 1⟩

theorem failed_assignment_writes :
    LeavesAccounts .keySubscriptMapped [(10, 1), (11, 2), (12, 0)] ∧
      LeavesAccounts .keyMappedSubscript [(10, 1), (11, 2)] ∧
      LeavesAccounts .mappedKeySubscript [(10, 1), (11, 2)] :=
  ⟨⟨⟨_, rfl, rfl⟩, not_atomic_of_error rfl (by decide)⟩,
    ⟨⟨_, rfl, rfl⟩, not_atomic_of_error rfl (by decide)⟩,
    ⟨⟨_, rfl, rfl⟩, not_atomic_of_error rfl (by decide)⟩⟩

end DCore
