import DCorePython.Collections

/-!
# Runs of assignments

A set attribute ends as the initial content with its gaps filled by the
assigned values in turn, a dict attribute as the assigned values written over
the initial content. So an attribute holds the last value alone only when
nothing older is in its way.
-/

namespace DCore

open Loop

section
variable {Obj T V α κ ν : Type}

def assignAll (assign : V → Call T Unit) : List V → Call T Unit
  | [] => pure ()
  | v :: vs => do
    assign v
    assignAll assign vs

theorem assignAll_cons_ok {assign : V → Call T Unit} {v : V} {vs : List V} {b b' : Bound T}
    (h : (assignAll assign (v :: vs)).run b = .ok () b') :
    ∃ b₁, (assign v).run b = .ok () b₁ ∧ (assignAll assign vs).run b₁ = .ok () b' := by
  cases h₁ : (assign v).run b with
  | ok u b₁ => rw [assignAll, run_bind_ok h₁] at h; exact ⟨b₁, rfl, h⟩
  | error e b₁ => rw [assignAll, run_bind_error h₁] at h; cases h

theorem assignAll_concat_ok {assign : V → Call T Unit} :
    ∀ {vs : List V} {v : V} {b b' : Bound T},
      (assignAll assign (vs ++ [v])).run b = .ok () b' →
      ∃ b₁, (assign v).run b₁ = .ok () b'
  | [], v, b, b', h => by
    obtain ⟨b₁, h₁, h₂⟩ := assignAll_cons_ok h
    cases h₂
    exact ⟨b, h₁⟩
  | _ :: vs, v, b, b', h => by
    obtain ⟨b₁, -, h₂⟩ := assignAll_cons_ok h
    exact assignAll_concat_ok h₂

/-- Where the older sets have an entry, the first of them has the entry of
`last`. -/
def SetCovers [LinearOrder κ] {key : α → κ} (older : List (OrderedSet key))
    (last : OrderedSet key) : Prop :=
  ∀ k a, older.findSome? (fun s => s.find? k) = some a → last.find? k = some a

def MapCovers [LinearOrder κ] (older : List (OrderedMap κ ν)) (last : OrderedMap κ ν) : Prop :=
  ∀ m ∈ older, ∀ k, (m.find? k).isSome → (last.find? k).isSome

/-! ## List attributes -/

theorem decodeList_ok [Inhabited α] (extract : Obj → Conversion α) (container : Member T (List α))
    {l : List Obj} {b b' : Bound T} (h : (decodeList extract container l).run b = .ok () b') :
    container.get b'.obj = values extract l := by
  by_cases hl : ∀ o ∈ l, convertible extract o = true
  · rw [decodeList_run extract container hl b] at h
    cases h
    rw [Member.get_set]
  · push Not at hl
    obtain ⟨_, _, e, -, -, hrun⟩ := decodeList_failed extract container (by simpa using hl) b
    rw [hrun] at h; cases h

/-! ## Set attributes -/

section
variable [LinearOrder κ] (key : α → κ) (extract : Obj → Conversion α)
  (container : Member T (OrderedSet key))

def setValue (l : List Obj) : OrderedSet key := OrderedSet.ofBack key (values extract l)

theorem decodeSet_ok {l : List Obj} {b b' : Bound T}
    (h : (decodeSet extract container l).run b = .ok () b') :
    (container.get b'.obj).contents =
      (container.get b.obj).contents.overlay (setValue key extract l).contents := by
  by_cases hl : ∀ o ∈ l, convertible extract o = true
  · rw [decodeSet_run extract container hl b] at h
    cases h
    rw [Member.get_set, OrderedSet.contents_insertBack, setValue]
  · push Not at hl
    obtain ⟨e, i, hrun⟩ := decodeSet_failed extract container (by simpa using hl) b
    rw [hrun] at h; cases h

theorem assignAll_decodeSet_ok :
    ∀ {ls : List (List Obj)} {b b' : Bound T},
      (assignAll (decodeSet extract container) ls).run b = .ok () b' →
      (container.get b'.obj).contents =
        (container.get b.obj).contents.fillAll (ls.map fun l => (setValue key extract l).contents)
  | [], _, _, h => by cases h; rfl
  | l :: ls, b, b', h => by
    obtain ⟨b₁, h₁, h₂⟩ := assignAll_cons_ok h
    have hl := decodeSet_ok key extract container h₁
    rw [assignAll_decodeSet_ok h₂, hl]; rfl

theorem decodeSet_replaces_iff {earlier : List (List Obj)} {last : List Obj} {b b' : Bound T}
    (h : (assignAll (decodeSet extract container) (earlier ++ [last])).run b = .ok () b') :
    container.get b'.obj = setValue key extract last ↔
      SetCovers (container.get b.obj :: earlier.map (setValue key extract))
        (setValue key extract last) := by
  rw [← OrderedSet.contents_inj, assignAll_decodeSet_ok key extract container h, List.map_append,
    List.map_singleton, PartialMap.fillAll_concat, PartialMap.overlay_eq_right_iff]
  unfold PartialMap.Extends SetCovers
  simp only [PartialMap.fillAll_apply, OrderedSet.contents_apply, List.findSome?_cons,
    List.findSome?_map, Function.comp_def]

end

/-! ## Dict attributes -/

section
variable [LinearOrder κ] [Inhabited ν] [PyObject Obj] (order : EvalOrder)
  (extractKey : Obj → Conversion κ) (extractMapped : Obj → Conversion ν)
  (container : Member T (OrderedMap κ ν))

def dictValue (d : PyDict Obj) : OrderedMap κ ν :=
  OrderedMap.putBack OrderedSet.empty (entries extractKey extractMapped d.items)

theorem decodeDict_ok {d : PyDict Obj} {b b' : Bound T}
    (h : (decodeDict order extractKey extractMapped container d).run b = .ok () b') :
    (container.get b'.obj).contents =
      (dictValue extractKey extractMapped d).contents.overlay (container.get b.obj).contents := by
  by_cases hd : ∀ e ∈ d.items, convertibleItem extractKey extractMapped e = true
  · obtain ⟨i, hrun⟩ := decodeDict_run order extractKey extractMapped container hd b
    rw [hrun] at h
    cases h
    rw [Member.get_set, dictValue, OrderedMap.contents_putBack, OrderedMap.contents_putBack]
    simp
  · push Not at hd
    obtain ⟨_, e, i, -, hrun⟩ := decodeDict_failed order extractKey extractMapped container
      (by simpa using hd) b
    rw [hrun] at h; cases h

theorem assignAll_decodeDict_ok :
    ∀ {ds : List (PyDict Obj)} {b b' : Bound T},
      (assignAll (decodeDict order extractKey extractMapped container) ds).run b = .ok () b' →
      (container.get b'.obj).contents = (container.get b.obj).contents.writeAll
        (ds.map fun d => (dictValue extractKey extractMapped d).contents)
  | [], _, _, h => by cases h; rfl
  | d :: ds, b, b', h => by
    obtain ⟨b₁, h₁, h₂⟩ := assignAll_cons_ok h
    have hd := decodeDict_ok order extractKey extractMapped container h₁
    rw [assignAll_decodeDict_ok h₂, hd]; rfl

theorem decodeDict_replaces_iff {earlier : List (PyDict Obj)} {last : PyDict Obj} {b b' : Bound T}
    (h : (assignAll (decodeDict order extractKey extractMapped container)
      (earlier ++ [last])).run b = .ok () b') :
    container.get b'.obj = dictValue extractKey extractMapped last ↔
      MapCovers (container.get b.obj :: earlier.map (dictValue extractKey extractMapped))
        (dictValue extractKey extractMapped last) := by
  rw [← OrderedSet.contents_inj, assignAll_decodeDict_ok order extractKey extractMapped container h,
    List.map_append, List.map_singleton, PartialMap.writeAll_concat, PartialMap.overlay_eq_left_iff,
    PartialMap.writeAll_domLE_iff]
  simp only [MapCovers, List.forall_mem_cons, List.forall_mem_map]
  rfl

end

end

/-! ## Every collection attribute -/

namespace CollectionAttribute

variable {V T : Type}

def Holds : CollectionAttribute V T → T → V → Prop
  | list extract container, t, l => container.get t = values extract l
  | proposedOperations _, t, l => t.proposedOps = values extractOpWrapper l
  | set key extract container, t, l => container.get t = setValue key extract l
  | dict _ extractKey extractMapped container, t, d =>
    container.get t = dictValue extractKey extractMapped d

def Covers : CollectionAttribute V T → T → List V → V → Prop
  | list _ _, _, _, _ => True
  | proposedOperations _, _, _, _ => True
  | set key extract container, t, earlier, last =>
    SetCovers (container.get t :: earlier.map (setValue key extract)) (setValue key extract last)
  | dict _ extractKey extractMapped container, t, earlier, last =>
    MapCovers (container.get t :: earlier.map (dictValue extractKey extractMapped))
      (dictValue extractKey extractMapped last)

/-- After a run of successful assignments an attribute is exactly the last value
when that covers what was held or assigned before. -/
theorem assignments_replace_iff (a : CollectionAttribute V T) (earlier : List V) (last : V)
    (b b' : Bound T) (h : (assignAll a.assign (earlier ++ [last])).run b = .ok () b') :
    a.Holds b'.obj last ↔ a.Covers b.obj earlier last := by
  cases a with
  | list extract container =>
    obtain ⟨b₁, hlast⟩ := assignAll_concat_ok h
    exact iff_of_true (decodeList_ok extract container hlast) trivial
  | proposedOperations F =>
    obtain ⟨b₁, hlast⟩ := assignAll_concat_ok h
    rw [assign, decodeProposedOperations_eq] at hlast
    exact iff_of_true (decodeList_ok extractOpWrapper _ hlast) trivial
  | set key extract container => exact decodeSet_replaces_iff key extract container h
  | dict order extractKey extractMapped container =>
    exact decodeDict_replaces_iff order extractKey extractMapped container h

end CollectionAttribute

def PyDict.single (k v : PyObj) : PyDict PyObj := ⟨[(k, v)], by simp⟩

def accountAuthority (account : IdNumber) (weight : Weight) : Authority where
  weightThreshold := 1
  accountAuths := ⟨[(account, weight)], by simp⟩
  keyAuths := OrderedSet.empty

def approvalUpdate (account : IdNumber) : ProposalUpdateOperation where
  fee := ⟨0, 0⟩
  feePayingAccount := 0
  proposal := 0
  activeApprovalsToAdd := ⟨[account], by simp⟩
  activeApprovalsToRemove := OrderedSet.empty
  ownerApprovalsToAdd := OrderedSet.empty
  ownerApprovalsToRemove := OrderedSet.empty
  keyApprovalsToAdd := OrderedSet.empty
  keyApprovalsToRemove := OrderedSet.empty

theorem assignments_replace_iff_runs :
    SetCovers [(⟨[1], by simp⟩ : ValueSet IdNumber), ⟨[2], by simp⟩] ⟨[1, 2], by decide⟩ ∧
      MapCovers [(⟨[(10, 1)], by simp⟩ : OrderedMap IdNumber Weight)] ⟨[(10, 2)], by simp⟩ :=
  ⟨(CollectionAttribute.assignments_replace_iff (.set id (PyObj.extractId .accountId)
      ProposalUpdateOperation.activeApprovalsToAddMember) [[.id 0 .accountId 2]]
      [.id 0 .accountId 2, .id 1 .accountId 1] ⟨{}, approvalUpdate 1⟩ _ rfl).mp rfl,
    (CollectionAttribute.assignments_replace_iff (.dict .keySubscriptMapped
      (PyObj.extractId .accountId) (PyObj.extractUnsigned 16) Authority.accountAuthsMember) []
      (.single (.id 0 .accountId 10) (.int 2)) ⟨{}, accountAuthority 10 1⟩ _ rfl).mp rfl⟩

theorem assignment_keeps_account :
    ∃ b', (Authority.setAccountAuths .keySubscriptMapped
        (.single (.id 0 .accountId 11) (.int 1))).run ⟨{}, accountAuthority 10 1⟩ = .ok () b' ∧
      b'.obj.accountAuths.toList = [(10, 1), (11, 1)] ∧
      b'.obj.accountAuths ≠ dictValue (PyObj.extractId .accountId) (PyObj.extractUnsigned 16)
        (.single (.id 0 .accountId 11) (.int 1)) :=
  ⟨_, rfl, rfl, by decide⟩

end DCore
