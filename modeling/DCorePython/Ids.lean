import DCorePython.Assignment

/-!
# Ids as dict keys

Every id that is converted to Python becomes a new object, and ids compare by
identity. A dict read from a map therefore answers for its own key objects
alone, and a dict that is assigned may have two keys for one id, of which the
map keeps one.
-/

namespace DCore

open Loop

/-! ## Reading a map -/

/-- A new object for an id, at the next free address. -/
def idToPython (cls : IdClass) (n : IdNumber) : StateM Nat PyObj := do
  let a ← get
  set (a + 1)
  return .id a cls n

/-- `to_dict` of a map with ids as keys. -/
def toDict {ν : Type} (cls : IdClass) (mapped : ν → PyObj) (container : OrderedMap IdNumber ν) :
    StateM Nat (PyDict PyObj) :=
  encodeDict (idToPython cls) (fun v => pure (mapped v)) Member.self container

def Authority.getAccountAuths (t : Authority) : StateM Nat (PyDict PyObj) :=
  encodeDict (idToPython .accountId) (fun w => pure (.int w.val)) accountAuthsMember t

section
variable {ν : Type} (cls : IdClass) (mapped : ν → PyObj)

def idItem (e : (IdNumber × ν) × Nat) : PyObj × PyObj := (.id e.2 cls e.1.1, mapped e.1.2)

def setdefaultId (d : PyDict PyObj) (v : IdNumber × ν) : StateM Nat (PyDict PyObj) := do
  let key ← idToPython cls v.1
  let m ← pure (mapped v.2)
  return d.setdefault key m

theorem setdefaultId_run (d : PyDict PyObj) (v : IdNumber × ν) (a : Nat) :
    (setdefaultId cls mapped d v).run a = (d.setdefault (.id a cls v.1) (mapped v.2), a + 1) := rfl

theorem same_id_of_ne {a a' : Nat} (h : a ≠ a') (c c' : IdClass) (m n : IdNumber) :
    PyObject.same (PyObj.id a c m) (PyObj.id a' c' n) = false := by
  simp [PyObject.same, PyObj.sameKey, registerObjectId, h]

theorem foldlM_setdefaultId_run :
    ∀ (es : List (IdNumber × ν)) (d : PyDict PyObj) (a : Nat),
      (∀ e ∈ d.items, ∃ a' < a, ∃ c n, e.1 = .id a' c n) →
      ∃ d', (es.foldlM (setdefaultId cls mapped) d).run a = (d', a + es.length) ∧
        d'.items = d.items ++ (es.zipIdx a).map (idItem cls mapped)
  | [], d, a, _ => ⟨d, rfl, by simp⟩
  | v :: es, d, a, h => by
    have hitems : (d.setdefault (.id a cls v.1) (mapped v.2)).items =
        d.items ++ [(.id a cls v.1, mapped v.2)] := by
      apply PyDict.setdefault_items
      intro e he
      obtain ⟨a', ha', c, n, hid⟩ := h e he
      rw [hid, same_id_of_ne (by omega)]
    obtain ⟨d', hrun, hd'⟩ := foldlM_setdefaultId_run es
      (d.setdefault (.id a cls v.1) (mapped v.2)) (a + 1) (by
        intro e he
        rw [hitems, List.mem_append, List.mem_singleton] at he
        rcases he with he | rfl
        · obtain ⟨a', ha', hid⟩ := h e he
          exact ⟨a', by omega, hid⟩
        · exact ⟨a, by omega, cls, v.1, rfl⟩)
    refine ⟨d', ?_, ?_⟩
    · rw [List.foldlM_cons, StateT.run_bind, setdefaultId_run, List.length_cons,
        Nat.add_comm es.length 1, ← Nat.add_assoc]
      exact hrun
    · rw [hd', hitems, List.zipIdx_cons, List.map_cons, List.append_assoc]
      rfl

variable {T : Type} (container : Member T (OrderedMap IdNumber ν)) (t : T)

theorem encodeDict_ids (start : Nat) :
    ∃ d, (encodeDict (idToPython cls) (fun v => pure (mapped v)) container t).run start =
        (d, start + (container.get t).toList.length) ∧
      d.items = ((container.get t).toList.zipIdx start).map (idItem cls mapped) :=
  foldlM_setdefaultId_run cls mapped _ PyDict.empty start (by simp [PyDict.empty])

/-! ## Looking up an id -/

/-- No key of the dict is another object than `q` at the address of `q`. -/
def Consistent (d : PyDict PyObj) (q : PyObj) : Prop := ∀ k ∈ d.keys, k.addr? = q.addr? → k = q

def AnswersByValue (m : OrderedMap IdNumber ν) (d : PyDict PyObj) : Prop :=
  ∀ k v, m.find? k = some (k, v) → ∀ a, Consistent d (.id a cls k) →
    d.get? (.id a cls k) = some (mapped v)

section
variable {cls mapped} {m : OrderedMap IdNumber ν} {d : PyDict PyObj} {start : Nat}
  (hd : d.items = (m.toList.zipIdx start).map (idItem cls mapped))
include hd

theorem value_of_mem {k : IdNumber} {v : ν} (hk : m.find? k = some (k, v)) {a : Nat} {o : PyObj}
    (h : (.id a cls k, o) ∈ d.items) : o = mapped v := by
  rw [hd] at h
  obtain ⟨⟨e, a'⟩, he, heq⟩ := List.mem_map.mp h
  have hmem : e ∈ m.toList := List.fst_mem_of_mem_zipIdx he
  simp only [idItem, Prod.mk.injEq, PyObj.id.injEq, true_and] at heq
  obtain ⟨⟨-, hkey⟩, hval⟩ := heq
  have hfind := OrderedSet.find?_of_mem hmem
  rw [hkey, hk] at hfind
  rw [← hval, ← Option.some.inj hfind]

theorem get?_id_iff {k : IdNumber} {v : ν} (hk : m.find? k = some (k, v)) {a : Nat}
    (hc : Consistent d (.id a cls k)) :
    d.get? (.id a cls k) = some (mapped v) ↔ .id a cls k ∈ d.keys := by
  refine ⟨?_, ?_⟩
  · intro h
    obtain ⟨e, he, hsame⟩ := PyDict.same_of_get? h
    have hkey : e.1 ∈ d.keys := List.mem_map_of_mem he
    rw [hd] at he
    obtain ⟨p, -, rfl⟩ := List.mem_map.mp he
    have haddr : p.2 = a := by
      by_contra hne
      unfold idItem at hsame
      rw [same_id_of_ne hne] at hsame
      cases hsame
    rw [← hc _ hkey (congrArg some haddr)]
    exact hkey
  · intro h
    obtain ⟨⟨q, o⟩, he, rfl⟩ := List.mem_map.mp h
    rw [PyDict.get?_of_mem he, value_of_mem hd hk he]

theorem addr_of_mem_keys {q : PyObj} (h : q ∈ d.keys) :
    ∃ a, q.addr? = some a ∧ a < start + m.toList.length := by
  obtain ⟨e, he, rfl⟩ := List.mem_map.mp h
  rw [hd] at he
  obtain ⟨p, hp, rfl⟩ := List.mem_map.mp he
  exact ⟨p.2, rfl, List.snd_lt_add_of_mem_zipIdx hp⟩

theorem answersByValue_iff : AnswersByValue cls mapped m d ↔ m.toList = [] := by
  refine ⟨?_, ?_⟩
  · intro h
    by_contra hne
    obtain ⟨⟨k, v⟩, l, hm⟩ := List.exists_cons_of_ne_nil hne
    have hk : m.find? k = some (k, v) := OrderedSet.find?_of_mem (a := (k, v)) (by simp [hm])
    -- a newly built id, behind all key objects
    have hfresh : ∀ q ∈ d.keys, q.addr? ≠ some (start + m.toList.length) := by
      intro q hq hqa
      obtain ⟨a, ha, hlt⟩ := addr_of_mem_keys hd hq
      rw [ha] at hqa
      exact absurd (Option.some.inj hqa) (by omega)
    have hc : Consistent d (.id (start + m.toList.length) cls k) :=
      fun q hq hqa => absurd hqa (hfresh q hq)
    exact hfresh _ ((get?_id_iff hd hk hc).mp (h k v hk _ hc)) rfl
  · intro h k v hk
    have := OrderedSet.mem_of_find? hk
    rw [h] at this
    cases this

end

end

theorem toDict_answersByValue_iff {ν : Type} (cls : IdClass) (mapped : ν → PyObj)
    (m : OrderedMap IdNumber ν) (start : Nat) :
    ∃ d next, (toDict cls mapped m).run start = (d, next) ∧
      (AnswersByValue cls mapped m d ↔ m.toList = []) := by
  obtain ⟨d, hrun, hd⟩ := encodeDict_ids cls mapped Member.self m start
  exact ⟨d, _, hrun, answersByValue_iff hd⟩

/-! ## Assigning a dict -/

section
variable {κ ν : Type} {extractKey : PyObj → Conversion κ} {extractMapped : PyObj → Conversion ν}

theorem map_fst_entries {items : List (PyObj × PyObj)}
    (h : ∀ e ∈ items, convertibleItem extractKey extractMapped e = true) :
    (entries extractKey extractMapped items).map (fun e => some e.1) =
      items.map fun e => (extractKey e.1).value? := by
  induction items with
  | nil => rfl
  | cons e items ih =>
    obtain ⟨he, hitems⟩ := List.forall_mem_cons.mp h
    simp only [convertibleItem, Bool.and_eq_true] at he
    obtain ⟨k, hk⟩ := exists_value he.1
    obtain ⟨v, hv⟩ := exists_value he.2
    rw [entries_cons hk hv, List.map_cons, List.map_cons, ih hitems, hk]

variable [LinearOrder κ] [Inhabited ν]

theorem length_dictValue_iff {d : PyDict PyObj}
    (h : ∀ e ∈ d.items, convertibleItem extractKey extractMapped e = true) :
    (dictValue extractKey extractMapped d).toList.length = d.items.length ↔
      (d.keys.map fun k => (extractKey k).value?).Nodup := by
  have hmap := map_fst_entries h
  have hlen : (entries extractKey extractMapped d.items).length = d.items.length := by
    simpa using congrArg List.length hmap
  have hkeys : (d.keys.map fun k => (extractKey k).value?) =
      ((entries extractKey extractMapped d.items).map Prod.fst).map some := by
    unfold PyDict.keys
    rw [List.map_map, List.map_map]
    exact hmap.symm
  unfold dictValue
  rw [← hlen, OrderedMap.length_putBack_empty_iff, hkeys,
    List.nodup_map_iff (Option.some_injective κ)]

end

/-- A dict read from a map answers for every id that is in the map only when the
map is empty, and for one object exactly when it is a key of the dict; an
assigned dict loses no entry exactly when its keys have different ids. -/
theorem ids_by_value_iff {T ν : Type} [Inhabited ν] (cls : IdClass) (mapped : ν → PyObj)
    (container : Member T (OrderedMap IdNumber ν)) (t : T) (start : Nat) :
    (∃ d next, (encodeDict (idToPython cls) (fun v => pure (mapped v)) container t).run start =
        (d, next) ∧
      (AnswersByValue cls mapped (container.get t) d ↔ (container.get t).toList = []) ∧
      ∀ k v a, (container.get t).find? k = some (k, v) → Consistent d (.id a cls k) →
        (d.get? (.id a cls k) = some (mapped v) ↔ .id a cls k ∈ d.keys)) ∧
    ∀ (order : EvalOrder) (extractMapped : PyObj → Conversion ν) (d : PyDict PyObj) (b : Bound T),
      (∀ e ∈ d.items, convertibleItem (PyObj.extractId cls) extractMapped e = true) →
      ∃ b', (decodeDict order (PyObj.extractId cls) extractMapped container d).run b = .ok () b' ∧
        (container.get b'.obj).contents =
          (dictValue (PyObj.extractId cls) extractMapped d).contents.overlay
            (container.get b.obj).contents ∧
        ((dictValue (PyObj.extractId cls) extractMapped d).toList.length = d.items.length ↔
          (d.keys.map fun k => (PyObj.extractId cls k).value?).Nodup) := by
  refine ⟨?_, fun order extractMapped d b hd => ?_⟩
  · obtain ⟨d, hrun, hd⟩ := encodeDict_ids cls mapped container t start
    exact ⟨d, _, hrun, answersByValue_iff hd, fun k v a hk hc => get?_id_iff hd hk hc⟩
  · obtain ⟨i, hrun⟩ := decodeDict_run order (PyObj.extractId cls) extractMapped container hd b
    exact ⟨_, hrun, decodeDict_ok order _ _ container hrun, length_dictValue_iff hd⟩

def twoIds : PyDict PyObj :=
  ⟨[(.id 0 .accountId 10, .int 1), (.id 1 .accountId 10, .int 2)], by decide⟩

theorem ids_by_value_iff_account :
    (∃ d next, (accountAuthority 10 1).getAccountAuths.run 0 = (d, next) ∧
      d.get? (.id 0 .accountId 10) = some (.int 1)) ∧
    (dictValue (PyObj.extractId .accountId) (PyObj.extractUnsigned 16) twoIds).toList.length ≠ 2 := by
  obtain ⟨⟨d, next, hrun, -, hq⟩, hassign⟩ := ids_by_value_iff .accountId
    (fun w : Weight => .int w.val) Authority.accountAuthsMember (accountAuthority 10 1) 0
  refine ⟨⟨d, next, hrun, ?_⟩, fun h => ?_⟩
  · cases hrun
    refine (hq 10 1 0 rfl ?_).mpr (List.mem_singleton_self _)
    intro k hk _
    exact List.mem_singleton.mp hk
  · obtain ⟨b', -, -, hlen⟩ := hassign .keySubscriptMapped (PyObj.extractUnsigned 16) twoIds
      ⟨{}, accountAuthority 10 1⟩ (by decide)
    exact absurd (hlen.mp h) (by decide)

theorem id_not_found_by_value :
    ∃ d next, (accountAuthority 10 1).getAccountAuths.run 0 = (d, next) ∧
      d.get? (.id next .accountId 10) = none ∧
      ∃ b', (Authority.setAccountAuths .keySubscriptMapped twoIds).run
          ⟨{}, { accountAuthority 0 0 with accountAuths := OrderedSet.empty }⟩ = .ok () b' ∧
        b'.obj.accountAuths.toList = [(10, 1)] :=
  ⟨_, _, rfl, rfl, _, rfl, rfl⟩

end DCore
