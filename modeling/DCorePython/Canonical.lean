import DCorePython.Ids

/-!
# Collections assigned to empty attributes

On an empty set or map an assignment keeps exactly the values of its list or
dict, in the order of the container, and does not depend on the order or the
repetition of the input. What is read from a container can be assigned to an
empty one, which is then the same.
-/

namespace DCore

open Loop

/-- Converters of a C++ type to Python and back. A conversion to Python takes
new objects from an allocator. -/
structure Converters (Obj α : Type) where
  toPython : α → StateM Nat Obj
  extract : Obj → Conversion α
  extract_toPython : ∀ a n, (extract ((toPython a).run n).1).value? = some a
  le_toPython : ∀ a n, n ≤ ((toPython a).run n).2

/-- The converters of keys: the objects of different keys are different keys of
a dict. -/
structure KeyConverters (Obj κ : Type) [PyObject Obj] extends Converters Obj κ where
  not_same : ∀ k k' n n', k ≠ k' → ((toPython k).run n).2 ≤ n' →
    PyObject.same ((toPython k).run n).1 ((toPython k').run n').1 = false

section
variable {Obj T α κ ν : Type}

/-! ## Lists read from containers -/

/-- `os` are objects for the values `c`, in order. -/
structure Denotes (C : Converters Obj α) (os : List Obj) (c : List α) : Prop where
  convertible : ∀ o ∈ os, convertible C.extract o = true
  values : values C.extract os = c

theorem mapM_toPython_denotes (C : Converters Obj α) :
    ∀ (c : List α) (n : Nat), Denotes C ((c.mapM C.toPython).run n).1 c
  | [], _ => ⟨nofun, rfl⟩
  | a :: c, n => by
    have ha := C.extract_toPython a n
    have ih := mapM_toPython_denotes C c ((C.toPython a).run n).2
    have hrun : (((a :: c).mapM C.toPython).run n).1 = ((C.toPython a).run n).1 ::
        ((c.mapM C.toPython).run ((C.toPython a).run n).2).1 := by
      rw [List.mapM_cons]
      rfl
    rw [hrun]
    refine ⟨List.forall_mem_cons.mpr ⟨?_, ih.convertible⟩, ?_⟩
    · unfold DCore.convertible
      rw [ha]
      rfl
    · rw [values_cons ha, ih.values]

/-! ## Sets -/

section
variable [LinearOrder κ] (C : Converters Obj κ) (container : Member T (ValueSet κ))

theorem decodeSet_empty_run {l : List Obj} (hl : ∀ o ∈ l, convertible C.extract o = true)
    {b : Bound T} (hb : container.get b.obj = OrderedSet.empty) :
    ∃ b', (decodeSet C.extract container l).run b = .ok () b' ∧
      container.get b'.obj = OrderedSet.ofBack id (values C.extract l) := by
  refine ⟨_, decodeSet_run C.extract container hl b, ?_⟩
  rw [Member.get_set, hb]
  rfl

theorem encodeSet_denotes (t : T) (n : Nat) :
    Denotes C ((encodeSet C.toPython container t).run n).1 (container.get t).toList := by
  rw [encodeSet_eq]
  exact mapM_toPython_denotes C _ n

end

/-! ## Dicts -/

section
variable [PyObject Obj] (K : KeyConverters Obj κ) (V : Converters Obj ν)

/-- `items` are objects for the entries `es`, in order. -/
structure DenotesItems (items : List (Obj × Obj)) (es : List (κ × ν)) : Prop where
  convertible : ∀ e ∈ items, convertibleItem K.extract V.extract e = true
  entries : entries K.extract V.extract items = es

def setdefaultEntry (d : PyDict Obj) (v : κ × ν) : StateM Nat (PyDict Obj) := do
  let key ← K.toPython v.1
  let mapped ← V.toPython v.2
  return d.setdefault key mapped

/-- The keys of `d` were made before `n`, of keys in `ks`. -/
def MadeBefore (d : PyDict Obj) (n : Nat) (ks : List κ) : Prop :=
  ∀ e ∈ d.items, ∃ k m, k ∈ ks ∧ e.1 = ((K.toPython k).run m).1 ∧ ((K.toPython k).run m).2 ≤ n

variable {K V}

theorem setdefault_items_of_madeBefore {d : PyDict Obj} {n : Nat} {ks : List κ}
    (hd : MadeBefore K d n ks) {k : κ} (hk : k ∉ ks) (o : Obj) :
    (d.setdefault ((K.toPython k).run n).1 o).items =
      d.items ++ [(((K.toPython k).run n).1, o)] := by
  apply PyDict.setdefault_items
  intro e he
  obtain ⟨k', m, hk', hkey, hm⟩ := hd e he
  rw [hkey]
  exact K.not_same k' k m n (fun h => hk (h ▸ hk')) hm

theorem MadeBefore.setdefault {d : PyDict Obj} {n n' : Nat} {ks : List κ}
    (hd : MadeBefore K d n ks) {k : κ} (hk : k ∉ ks) (o : Obj)
    (hn : ((K.toPython k).run n).2 ≤ n') :
    MadeBefore K (d.setdefault ((K.toPython k).run n).1 o) n' (k :: ks) := by
  intro e he
  rw [setdefault_items_of_madeBefore hd hk, List.mem_append, List.mem_singleton] at he
  have hle := K.le_toPython k n
  rcases he with he | rfl
  · obtain ⟨k', m, hk', hkey, hm⟩ := hd e he
    exact ⟨k', m, List.mem_cons_of_mem _ hk', hkey, by omega⟩
  · exact ⟨k, n, List.mem_cons_self, rfl, hn⟩

theorem foldlM_setdefaultEntry_run :
    ∀ {es : List (κ × ν)} {d : PyDict Obj} {n : Nat} {ks : List κ}, MadeBefore K d n ks →
      (∀ e ∈ es, e.1 ∉ ks) → (es.map Prod.fst).Nodup →
      ∃ items, ((es.foldlM (setdefaultEntry K V) d).run n).1.items = d.items ++ items ∧
        DenotesItems K V items es
  | [], d, _, _, _, _, _ => ⟨[], (List.append_nil d.items).symm, ⟨nofun, rfl⟩⟩
  | v :: es, d, n, ks, hd, hks, hn => by
    obtain ⟨hv, hes⟩ := List.forall_mem_cons.mp hks
    obtain ⟨hvn, hesn⟩ := List.nodup_cons.mp hn
    have hkey := K.extract_toPython v.1 n
    have hmapped := V.extract_toPython v.2 ((K.toPython v.1).run n).2
    have hle := V.le_toPython v.2 ((K.toPython v.1).run n).2
    have hmade := hd.setdefault hv ((V.toPython v.2).run ((K.toPython v.1).run n).2).1 hle
    have hrest : ∀ e ∈ es, e.1 ∉ v.1 :: ks := by
      intro e he h
      rcases List.mem_cons.mp h with h | h
      · exact hvn (h ▸ List.mem_map_of_mem he)
      · exact hes e he h
    obtain ⟨items, hitems, hdenotes⟩ := foldlM_setdefaultEntry_run hmade hrest hesn
    refine ⟨(((K.toPython v.1).run n).1,
      ((V.toPython v.2).run ((K.toPython v.1).run n).2).1) :: items, ?_, ?_, ?_⟩
    · rw [setdefault_items_of_madeBefore hd hv, List.append_assoc] at hitems
      rw [List.foldlM_cons]
      exact hitems
    · refine List.forall_mem_cons.mpr ⟨?_, hdenotes.convertible⟩
      simp [convertibleItem, DCore.convertible, hkey, hmapped]
    · rw [entries_cons hkey hmapped, hdenotes.entries]

variable [LinearOrder κ] (container : Member T (OrderedMap κ ν))

theorem encodeDict_denotes (t : T) (n : Nat) :
    DenotesItems K V ((encodeDict K.toPython V.toPython container t).run n).1.items
      (container.get t).toList := by
  have hnone : MadeBefore K PyDict.empty n [] := nofun
  have hnew : ∀ e ∈ (container.get t).toList, e.1 ∉ ([] : List κ) := fun e _ => List.not_mem_nil
  obtain ⟨items, hitems, hdenotes⟩ :=
    foldlM_setdefaultEntry_run (V := V) hnone hnew (OrderedMap.nodup_keys _)
  have hrun : ((encodeDict K.toPython V.toPython container t).run n).1.items = items := hitems
  rw [hrun]
  exact hdenotes

variable [Inhabited ν] (order : EvalOrder)

theorem decodeDict_empty_run {d : PyDict Obj}
    (hd : ∀ e ∈ d.items, convertibleItem K.extract V.extract e = true) {b : Bound T}
    (hb : container.get b.obj = OrderedSet.empty) :
    ∃ b', (decodeDict order K.extract V.extract container d).run b = .ok () b' ∧
      container.get b'.obj =
        OrderedMap.putBack OrderedSet.empty (entries K.extract V.extract d.items) := by
  obtain ⟨i, hrun⟩ := decodeDict_run order K.extract V.extract container hd b
  refine ⟨_, hrun, ?_⟩
  rw [Member.get_set, hb]

end

/-! ## Attributes that start empty -/

/-- A set attribute keeps exactly the values of the assigned list. -/
structure SetExact [LinearOrder κ] (C : Converters Obj κ) (container : Member T (ValueSet κ)) :
    Prop where
  reads : ∀ l b, (∀ o ∈ l, convertible C.extract o = true) →
    container.get b.obj = OrderedSet.empty →
    ∃ b', (decodeSet C.extract container l).run b = .ok () b' ∧
      ∀ n, ∃ ks, Denotes C ((encodeSet C.toPython container b'.obj).run n).1 ks ∧
        ks.Pairwise (· < ·) ∧ ∀ k, k ∈ ks ↔ k ∈ values C.extract l
  unordered : ∀ l l' b, (∀ o ∈ l, convertible C.extract o = true) →
    (∀ o ∈ l', convertible C.extract o = true) → container.get b.obj = OrderedSet.empty →
    (∀ k, k ∈ values C.extract l ↔ k ∈ values C.extract l') →
    ∃ b₁ b₂, (decodeSet C.extract container l).run b = .ok () b₁ ∧
      (decodeSet C.extract container l').run b = .ok () b₂ ∧
      container.get b₁.obj = container.get b₂.obj
  reproduces : ∀ t n b, container.get b.obj = OrderedSet.empty →
    ∃ b', (decodeSet C.extract container ((encodeSet C.toPython container t).run n).1).run b =
        .ok () b' ∧ container.get b'.obj = container.get t

/-- A map attribute keeps exactly the entries of an assigned dict whose keys are
different values. -/
structure DictExact [LinearOrder κ] [Inhabited ν] [PyObject Obj] (order : EvalOrder)
    (K : KeyConverters Obj κ) (V : Converters Obj ν) (container : Member T (OrderedMap κ ν)) :
    Prop where
  reads : ∀ d b, (∀ e ∈ d.items, convertibleItem K.extract V.extract e = true) →
    ((entries K.extract V.extract d.items).map Prod.fst).Nodup →
    container.get b.obj = OrderedSet.empty →
    ∃ b', (decodeDict order K.extract V.extract container d).run b = .ok () b' ∧
      ∀ n, ∃ es, DenotesItems K V
          ((encodeDict K.toPython V.toPython container b'.obj).run n).1.items es ∧
        es.Perm (entries K.extract V.extract d.items)
  unordered : ∀ d d' b, (∀ e ∈ d.items, convertibleItem K.extract V.extract e = true) →
    (∀ e ∈ d'.items, convertibleItem K.extract V.extract e = true) →
    ((entries K.extract V.extract d.items).map Prod.fst).Nodup →
    container.get b.obj = OrderedSet.empty →
    (entries K.extract V.extract d'.items).Perm (entries K.extract V.extract d.items) →
    ∃ b₁ b₂, (decodeDict order K.extract V.extract container d).run b = .ok () b₁ ∧
      (decodeDict order K.extract V.extract container d').run b = .ok () b₂ ∧
      container.get b₁.obj = container.get b₂.obj
  reproduces : ∀ t n b, container.get b.obj = OrderedSet.empty →
    ∃ b', (decodeDict order K.extract V.extract container
        ((encodeDict K.toPython V.toPython container t).run n).1).run b = .ok () b' ∧
      container.get b'.obj = container.get t

theorem setExact [LinearOrder κ] (C : Converters Obj κ) (container : Member T (ValueSet κ)) :
    SetExact C container := by
  refine ⟨?_, ?_, ?_⟩
  · intro l b hl hb
    obtain ⟨b', hrun, hb'⟩ := decodeSet_empty_run C container hl hb
    refine ⟨b', hrun, fun n => ⟨_, encodeSet_denotes C container b'.obj n, ?_, ?_⟩⟩
    · exact (container.get b'.obj).ascending
    · intro k
      rw [hb', ValueSet.mem_ofBack]
  · intro l l' b hl hl' hb h
    obtain ⟨b₁, hrun₁, hb₁⟩ := decodeSet_empty_run C container hl hb
    obtain ⟨b₂, hrun₂, hb₂⟩ := decodeSet_empty_run C container hl' hb
    exact ⟨b₁, b₂, hrun₁, hrun₂, by rw [hb₁, hb₂, ValueSet.ofBack_congr h]⟩
  · intro t n b hb
    have hden := encodeSet_denotes C container t n
    obtain ⟨b', hrun, hb'⟩ := decodeSet_empty_run C container hden.convertible hb
    exact ⟨b', hrun, by rw [hb', hden.values, OrderedSet.ofBack_toList]⟩

theorem dictExact [LinearOrder κ] [Inhabited ν] [PyObject Obj] (order : EvalOrder)
    (K : KeyConverters Obj κ) (V : Converters Obj ν) (container : Member T (OrderedMap κ ν)) :
    DictExact order K V container := by
  refine ⟨?_, ?_, ?_⟩
  · intro d b hd hn hb
    obtain ⟨b', hrun, hb'⟩ := decodeDict_empty_run container order hd hb
    refine ⟨b', hrun, fun n => ⟨_, encodeDict_denotes container b'.obj n, ?_⟩⟩
    rw [hb']
    exact OrderedMap.toList_putBack_empty_perm hn
  · intro d d' b hd hd' hn hb h
    obtain ⟨b₁, hrun₁, hb₁⟩ := decodeDict_empty_run container order hd hb
    obtain ⟨b₂, hrun₂, hb₂⟩ := decodeDict_empty_run container order hd' hb
    exact ⟨b₁, b₂, hrun₁, hrun₂, by rw [hb₁, hb₂, OrderedMap.putBack_empty_congr hn h]⟩
  · intro t n b hb
    have hden := encodeDict_denotes (K := K) (V := V) container t n
    obtain ⟨b', hrun, hb'⟩ := decodeDict_empty_run container order hden.convertible hb
    exact ⟨b', hrun, by rw [hb', hden.entries, OrderedMap.putBack_toList]⟩

/-- A list attribute takes back what is read from another. -/
def ListReproduces [Inhabited α] (C : Converters Obj α) (container : Member T (List α)) : Prop :=
  ∀ t n b, ∃ b', (decodeList C.extract container
      ((encodeList C.toPython container t).run n).1).run b = .ok () b' ∧
    container.get b'.obj = container.get t

theorem listReproduces [Inhabited α] (C : Converters Obj α) (container : Member T (List α)) :
    ListReproduces C container := by
  intro t n b
  have hden := mapM_toPython_denotes C (container.get t) n
  rw [encodeList_eq]
  refine ⟨_, decodeList_run C.extract container hden.convertible b, ?_⟩
  rw [Member.get_set, hden.values]

/-- On empty attributes the codecs of sets and maps are exact. -/
theorem collections_exact_on_empty {T' T'' : Type} [LinearOrder α] [LinearOrder κ] [Inhabited ν]
    [PyObject Obj] (C : Converters Obj α) (K : KeyConverters Obj κ) (V : Converters Obj ν)
    (order : EvalOrder) (set : Member T (ValueSet α)) (map : Member T' (OrderedMap κ ν))
    (list : Member T'' (List ν)) :
    SetExact C set ∧ DictExact order K V map ∧ ListReproduces V list :=
  ⟨setExact C set, dictExact order K V map, listReproduces V list⟩

end

/-! ## Ids, keys, votes and weights -/

theorem same_of_addr_ne {x y : PyObj} {a a' : Nat} (hx : x.addr? = some a)
    (hy : y.addr? = some a') (h : a ≠ a') : PyObject.same x y = false := by
  cases x <;> cases y <;>
    simp_all [PyObj.addr?, PyObject.same, PyObj.sameKey, registerObjectId]

/-- Converters that make a new object at the next free address. -/
def newObjects {κ : Type} (make : Nat → κ → PyObj) (extract : PyObj → Conversion κ)
    (hextract : ∀ a k, (extract (make a k)).value? = some k)
    (haddr : ∀ a k, (make a k).addr? = some a) : KeyConverters PyObj κ where
  toPython k := fun a => (make a k, a + 1)
  extract := extract
  extract_toPython k a := hextract a k
  le_toPython _ a := Nat.le_succ a
  not_same k k' a a' _ h :=
    same_of_addr_ne (haddr a k) (haddr a' k') (Nat.ne_of_lt h)

def idConverters (cls : IdClass) : KeyConverters PyObj IdNumber :=
  newObjects (fun a n => .id a cls n) (PyObj.extractId cls)
    (fun _ _ => by simp [PyObj.extractId, Conversion.value?]) fun _ _ => rfl

example (cls : IdClass) : (idConverters cls).toPython = idToPython cls := rfl

def publicKeyConverters : KeyConverters PyObj PublicKey :=
  newObjects .publicKey PyObj.extractPublicKey (fun _ _ => rfl) fun _ _ => rfl

def voteIdConverters : KeyConverters PyObj VoteId :=
  newObjects .voteId PyObj.extractVoteId (fun _ _ => rfl) fun _ _ => rfl

def weightConverters : Converters PyObj Weight where
  toPython w := pure (.int w.val)
  extract := PyObj.extractUnsigned 16
  extract_toPython w _ := by
    show (PyObj.extractUnsigned 16 (.int w.val)).value? = some w
    rw [PyObj.extractUnsigned_natCast w.isLt]
    rfl
  le_toPython _ _ := Nat.le_refl _

theorem collections_exact_on_empty_ids :
    (SetExact (idConverters .accountId).toConverters
        ProposalUpdateOperation.activeApprovalsToAddMember ∧
      DictExact .keySubscriptMapped (idConverters .accountId) weightConverters
        Authority.accountAuthsMember ∧
      ListReproduces weightConverters Member.self) ∧
    (SetExact publicKeyConverters.toConverters ProposalUpdateOperation.keyApprovalsToAddMember ∧
      DictExact .keySubscriptMapped publicKeyConverters weightConverters
        Authority.keyAuthsMember ∧
      ListReproduces weightConverters Member.self) ∧
    (SetExact voteIdConverters.toConverters Member.self ∧
      DictExact .keySubscriptMapped voteIdConverters weightConverters Member.self ∧
      ListReproduces weightConverters Member.self) :=
  ⟨collections_exact_on_empty _ _ _ _ _ _ _, collections_exact_on_empty _ _ _ _ _ _ _,
    collections_exact_on_empty _ _ _ _ _ _ _⟩

end DCore
