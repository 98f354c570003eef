import DCorePython.Module

/-!
# What an assignment does

Each decoder is a walk over its input from the back. An assignment that
succeeds has written the values of all elements; one that fails has written
those of the elements behind the last one that cannot be converted, and raises
for that one.
-/

namespace DCore

open Loop Call

section
variable {Obj T α κ ν : Type}

/-! ## Values of Python lists and dicts -/

def convertible (extract : Obj → Conversion α) (o : Obj) : Bool := (extract o).value?.isSome

def values (extract : Obj → Conversion α) (l : List Obj) : List α :=
  l.filterMap fun o => (extract o).value?

def leaveAll (extract : Obj → Conversion α) (l : List Obj) (i : Interp) : Interp :=
  l.foldr (fun o i => i.leave (extract o).leaves) i

def convertibleItem (extractKey : Obj → Conversion κ) (extractMapped : Obj → Conversion ν)
    (e : Obj × Obj) : Bool :=
  convertible extractKey e.1 && convertible extractMapped e.2

def itemValue (extractKey : Obj → Conversion κ) (extractMapped : Obj → Conversion ν)
    (e : Obj × Obj) : Option (κ × ν) :=
  match (extractKey e.1).value?, (extractMapped e.2).value? with
  | some k, some v => some (k, v)
  | _, _ => none

def entries (extractKey : Obj → Conversion κ) (extractMapped : Obj → Conversion ν)
    (items : List (Obj × Obj)) : List (κ × ν) :=
  items.filterMap (itemValue extractKey extractMapped)

theorem exists_value {extract : Obj → Conversion α} {o : Obj} (h : convertible extract o = true) :
    ∃ a, (extract o).value? = some a := Option.isSome_iff_exists.mp h

theorem exists_raised {extract : Obj → Conversion α} {o : Obj} (h : convertible extract o = false) :
    ∃ e, extract o = .raised e :=
  Conversion.eq_raised_of_value? (Option.not_isSome_iff_eq_none.mp (by simpa [convertible] using h))

theorem values_cons {extract : Obj → Conversion α} {o : Obj} {a : α}
    (h : (extract o).value? = some a) (l : List Obj) :
    values extract (o :: l) = a :: values extract l := by
  simp [values, h]

theorem entries_cons {extractKey : Obj → Conversion κ} {extractMapped : Obj → Conversion ν}
    {e : Obj × Obj} {k : κ} {v : ν} (hk : (extractKey e.1).value? = some k)
    (hv : (extractMapped e.2).value? = some v) (items : List (Obj × Obj)) :
    entries extractKey extractMapped (e :: items) =
      (k, v) :: entries extractKey extractMapped items := by
  simp [entries, itemValue, hk, hv]

theorem length_values {extract : Obj → Conversion α} {l : List Obj}
    (h : ∀ o ∈ l, convertible extract o = true) : (values extract l).length = l.length := by
  induction l with
  | nil => rfl
  | cons o l ih =>
    obtain ⟨a, ha⟩ := exists_value (h o (by simp))
    rw [values_cons ha, List.length_cons, ih fun o ho => h o (List.mem_cons_of_mem _ ho)]
    rfl

@[simp] theorem length_resize [Inhabited α] (c : List α) (n : Nat) : (resize c n).length = n := by
  simp [resize]; omega

theorem convertThen_run {c : Conversion α} {v : α} (h : c.value? = some v) (f : α → T → T)
    (b : Bound T) :
    (convertThen c f).run b = .ok () ⟨b.interp.leave c.leaves, f v b.obj⟩ := by
  unfold convertThen
  rw [Conversion.eq_built_of_value? h, run_bind_ok (build_built v _ b), onObj_run]
  rfl

theorem convertThen_run_error {c : Conversion α} (h : c.value? = none) (f : α → T → T)
    (b : Bound T) : ∃ e, (convertThen c f).run b = .error e b := by
  obtain ⟨e, rfl⟩ := Conversion.eq_raised_of_value? h
  exact ⟨e, run_bind_error (build_raised e b)⟩

/-! ## Encoding -/

section
variable {m : Type → Type} [Monad m] [LawfulMonad m]

theorem foldlM_append (f : α → m Obj) :
    ∀ (c : List α) (l : List Obj),
      c.foldlM (fun l v => do let o ← f v; return l ++ [o]) l =
        (do let os ← c.mapM f; return l ++ os)
  | [], l => by simp
  | v :: c, l => by
    rw [List.foldlM_cons, List.mapM_cons]
    simp only [bind_assoc, pure_bind, foldlM_append f c, List.append_assoc, List.singleton_append]

theorem encodeList_eq (toPython : α → m Obj) (container : Member T (List α)) (obj : T) :
    encodeList toPython container obj = (container.get obj).mapM toPython := by
  unfold encodeList
  rw [foldlM_append]
  simp

theorem encodeSet_eq [LinearOrder κ] {key : α → κ} (toPython : α → m Obj)
    (container : Member T (OrderedSet key)) (obj : T) :
    encodeSet toPython container obj = (container.get obj).toList.mapM toPython := by
  unfold encodeSet
  rw [foldlM_append]
  simp

end

theorem mapM_id (f : α → Obj) (c : List α) : c.mapM (m := Id) f = c.map f :=
  List.mapM_pure (m := Id)

theorem mapM_ok_iff {ε : Type} {f : α → Except ε Obj} {c : List α} {l : List Obj} :
    c.mapM f = .ok l ↔ List.Forall₂ (fun v o => f v = .ok o) c l := by
  induction c generalizing l with
  | nil => cases l <;> simp [pure, Except.pure]
  | cons v c ih =>
    rw [List.mapM_cons, List.forall₂_cons_left_iff]
    refine ⟨?_, ?_⟩
    · intro h
      cases hv : f v with
      | error e => rw [hv] at h; cases h
      | ok o =>
        cases hc : c.mapM f with
        | error e => rw [hv, hc] at h; cases h
        | ok os =>
          rw [hv, hc] at h
          cases h
          exact ⟨o, os, rfl, ih.mp hc, rfl⟩
    · intro h
      obtain ⟨o, os, hv, hc, rfl⟩ := h
      rw [hv, ih.mpr hc]
      rfl

theorem values_map_toPython {extract : Obj → Conversion α} {toPython : α → Obj}
    (h : ∀ a, (extract (toPython a)).value? = some a) (c : List α) :
    values extract (c.map toPython) = c := by
  simp [values, List.filterMap_map, h]

/-! ## `decode_list` -/

section
variable (extract : Obj → Conversion α) (container : Member T (List α))

def store (len : Nat) (o : Obj) : Call T Unit := do
  let v ← build (extract o)
  onObj fun obj => container.set obj ((container.get obj).set len v)

theorem store_run {o : Obj} {v : α} (h : (extract o).value? = some v) (len : Nat)
    (b : Bound T) :
    (store extract container len o).run b = .ok ()
      ⟨b.interp.leave (extract o).leaves,
        container.set b.obj ((container.get b.obj).set len v)⟩ := by
  have hb := Conversion.eq_built_of_value? h
  unfold store
  rw [hb, run_bind_ok (build_built v _ b)]; rfl

theorem set_take_append {c x : List α} {i : Nat} (h : i < c.length) (v : α) :
    (c.take (i + 1) ++ x).set i v = c.take i ++ v :: x := by
  have hlt : i < (c.take (i + 1) ++ x).length := by simp; omega
  have hl : (c.take (i + 1)).length = i + 1 := by simp; omega
  rw [List.set_eq_take_append_cons_drop, if_pos hlt]
  rw [List.take_append_of_le_length (by omega), List.take_take, Nat.min_eq_left (by omega)]
  rw [List.drop_left' hl]

theorem eachBack_store_run {c : List α} (b : Bound T) :
    ∀ (l : List Obj) (i : Nat), (∀ o ∈ l, convertible extract o = true) →
      c.length = i + l.length → container.get b.obj = c →
      (eachBack (store extract container) i l).run b = .ok ()
        ⟨leaveAll extract l b.interp, container.set b.obj (c.take i ++ values extract l)⟩
  | [], i, _, hlen, hc => by
    have : c.take i = c := List.take_of_length_le (by simp at hlen; omega)
    subst hc
    simp [eachBack, values, leaveAll, this]
  | o :: l, i, hl, hlen, hc => by
    obtain ⟨v, hv⟩ := exists_value (hl o (by simp))
    have ih := eachBack_store_run b l (i + 1) (fun o ho => hl o (List.mem_cons_of_mem _ ho))
      (by rw [hlen, List.length_cons]; omega) hc
    unfold eachBack
    rw [run_bind_ok ih, store_run extract container hv]
    simp only [Member.get_set, Member.set_set, values_cons hv]
    rw [set_take_append (by rw [hlen, List.length_cons]; omega)]
    rfl

variable [Inhabited α]

theorem decodeList_eq (l : List Obj) :
    decodeList extract container l = (do
      onObj fun obj => container.set obj (resize (container.get obj) l.length)
      eachBack (store extract container) 0 l) := by
  unfold decodeList
  rw [whileDown_eq_eachBack (store extract container)]
  intro j hj
  rw [getItem_eq l j hj]; rfl

theorem decodeList_run {l : List Obj} (hl : ∀ o ∈ l, convertible extract o = true) (b : Bound T) :
    (decodeList extract container l).run b = .ok ()
      ⟨leaveAll extract l b.interp, container.set b.obj (values extract l)⟩ := by
  rw [decodeList_eq, run_bind_ok (onObj_run _ b)]
  rw [eachBack_store_run extract container _ l 0 hl (by simp) (Member.get_set ..)]
  simp

/-- Objects that getters made are taken as they are. -/
theorem decodeList_map_run {toPython : α → Obj} (h : ∀ a, extract (toPython a) = .built a none)
    (c : List α) (b : Bound T) :
    (decodeList extract container (c.map toPython)).run b =
      .ok () ⟨b.interp, container.set b.obj c⟩ := by
  have hleave : ∀ i, leaveAll extract (c.map toPython) i = i := by
    intro i
    induction c with
    | nil => rfl
    | cons a c ih =>
      show (leaveAll extract (c.map toPython) i).leave (extract (toPython a)).leaves = i
      rw [ih, h]
      rfl
  have hconv : ∀ o ∈ c.map toPython, convertible extract o = true := by
    intro o ho
    obtain ⟨a, -, rfl⟩ := List.mem_map.mp ho
    unfold convertible
    rw [h]
    rfl
  rw [decodeList_run extract container hconv, hleave, values_map_toPython fun a => by rw [h]; rfl]

theorem decodeList_run_error (l₁ l₂ : List Obj) {o : Obj} {e : PyErr} (ho : extract o = .raised e)
    (h₂ : ∀ o ∈ l₂, convertible extract o = true) (b : Bound T) :
    (decodeList extract container (l₁ ++ o :: l₂)).run b = .error e
      ⟨leaveAll extract l₂ b.interp, container.set b.obj
        ((resize (container.get b.obj) (l₁ ++ o :: l₂).length).take (l₁.length + 1) ++
          values extract l₂)⟩ := by
  rw [decodeList_eq, run_bind_ok (onObj_run _ b)]
  refine eachBack_run_error _ (e := e) (eachBack_store_run extract container _ l₂ _ h₂ ?_
    (Member.get_set ..)) ?_
  · simp; omega
  · unfold store
    rw [ho, run_bind_error (build_raised e _)]
    simp

theorem decodeList_failed {l : List Obj} (hl : ∃ o ∈ l, convertible extract o = false)
    (b : Bound T) :
    ∃ l₁ o e, extract o = .raised e ∧ l = l₁ ++ o :: l.rtakeWhile (convertible extract) ∧
      (decodeList extract container l).run b = .error e
        ⟨leaveAll extract (l.rtakeWhile (convertible extract)) b.interp,
          container.set b.obj ((resize (container.get b.obj) l.length).take (l₁.length + 1) ++
            values extract (l.rtakeWhile (convertible extract)))⟩ := by
  obtain ⟨l₁, o, -, ho, hsplit⟩ := exists_lastFailing (convertible extract) hl
  obtain ⟨e, he⟩ := exists_raised ho
  have hrun := decodeList_run_error extract container l₁ (l.rtakeWhile (convertible extract)) he
    (fun o => List.mem_rtakeWhile_imp) b
  rw [← hsplit] at hrun
  exact ⟨l₁, o, e, he, hsplit, hrun⟩

end

/-! ## `decode_set` -/

section
variable [LinearOrder κ] {key : α → κ} (extract : Obj → Conversion α)
  (container : Member T (OrderedSet key))

def insertElement (_ : Nat) (o : Obj) : Call T Unit := do
  let v ← build (extract o)
  onObj fun obj => container.set obj ((container.get obj).insert v)

theorem decodeSet_eq (l : List Obj) :
    decodeSet extract container l = eachBack (insertElement extract container) 0 l := by
  unfold decodeSet
  rw [whileDown_eq_eachBack (insertElement extract container)]
  intro j hj
  rw [getItem_eq l j hj]; rfl

theorem eachBack_insertElement_run (b : Bound T) :
    ∀ (l : List Obj) (i : Nat), (∀ o ∈ l, convertible extract o = true) →
      (eachBack (insertElement extract container) i l).run b = .ok ()
        ⟨leaveAll extract l b.interp,
          container.set b.obj ((container.get b.obj).insertBack (values extract l))⟩
  | [], _, _ => by simp [eachBack, values, leaveAll]
  | o :: l, i, hl => by
    obtain ⟨v, hv⟩ := exists_value (hl o (by simp))
    have ih := eachBack_insertElement_run b l (i + 1) fun o ho => hl o (List.mem_cons_of_mem _ ho)
    have hb := Conversion.eq_built_of_value? hv
    unfold eachBack
    rw [run_bind_ok ih, insertElement, hb, run_bind_ok (build_built v _ _), onObj_run]
    simp only [Member.get_set, Member.set_set, values_cons hv, OrderedSet.insertBack_cons]
    rfl

theorem decodeSet_run {l : List Obj} (hl : ∀ o ∈ l, convertible extract o = true) (b : Bound T) :
    (decodeSet extract container l).run b = .ok ()
      ⟨leaveAll extract l b.interp,
        container.set b.obj ((container.get b.obj).insertBack (values extract l))⟩ := by
  rw [decodeSet_eq, eachBack_insertElement_run extract container b l 0 hl]

theorem decodeSet_run_error (l₁ l₂ : List Obj) {o : Obj} {e : PyErr} (ho : extract o = .raised e)
    (h₂ : ∀ o ∈ l₂, convertible extract o = true) (b : Bound T) :
    (decodeSet extract container (l₁ ++ o :: l₂)).run b = .error e
      ⟨leaveAll extract l₂ b.interp,
        container.set b.obj ((container.get b.obj).insertBack (values extract l₂))⟩ := by
  rw [decodeSet_eq]
  refine eachBack_run_error _ (e := e)
    (eachBack_insertElement_run extract container b l₂ _ h₂) ?_
  unfold insertElement
  rw [ho, run_bind_error (build_raised e _)]

theorem decodeSet_failed {l : List Obj} (hl : ∃ o ∈ l, convertible extract o = false)
    (b : Bound T) :
    ∃ e i, (decodeSet extract container l).run b = .error e
      ⟨i, container.set b.obj ((container.get b.obj).insertBack
        (values extract (l.rtakeWhile (convertible extract))))⟩ := by
  obtain ⟨l₁, o, -, ho, hsplit⟩ := exists_lastFailing (convertible extract) hl
  obtain ⟨e, he⟩ := exists_raised ho
  have hrun := decodeSet_run_error extract container l₁ (l.rtakeWhile (convertible extract)) he
    (fun o => List.mem_rtakeWhile_imp) b
  rw [← hsplit] at hrun
  exact ⟨e, _, hrun⟩

end

/-! ## `decode_dict` -/

section
variable [LinearOrder κ] [Inhabited ν] (order : EvalOrder)
  (extractKey : Obj → Conversion κ) (extractMapped : Obj → Conversion ν)
  (container : Member T (OrderedMap κ ν))

def assignElement (_ : Nat) (e : Obj × Obj) : Call T Unit :=
  assignItem order container (extractKey e.1) (extractMapped e.2)

def halfAssigned (m : OrderedMap κ ν) (key : Conversion κ) : OrderedMap κ ν :=
  match order, key.value? with
  | .keySubscriptMapped, some k => OrderedMap.subscript m k
  | _, _ => m

theorem decodeDict_eq [PyObject Obj] (d : PyDict Obj) :
    decodeDict order extractKey extractMapped container d =
      eachBack (assignElement order extractKey extractMapped container) 0 d.items := by
  have hlen : d.keys.length = d.items.length := by simp [PyDict.keys]
  unfold decodeDict
  simp only [hlen]
  apply whileDown_eq_eachBack
  intro j hj
  have hj' : j < d.keys.length := hlen ▸ hj
  have hk : d.keys[j] = d.items[j].1 := by simp [PyDict.keys]
  have hv : d.get d.items[j].1 = d.items[j].2 := PyDict.get_of_mem (List.getElem_mem hj)
  rw [getItem_eq d.keys j hj', pure_bind, hk, hv]; rfl

theorem assignItem_run {k : κ} {v : ν} {key : Conversion κ} {mapped : Conversion ν}
    (hk : key.value? = some k) (hv : mapped.value? = some v) (b : Bound T) :
    ∃ i, (assignItem order container key mapped).run b = .ok ()
      ⟨i, container.set b.obj (OrderedMap.put (container.get b.obj) k v)⟩ := by
  rw [Conversion.eq_built_of_value? hk, Conversion.eq_built_of_value? hv]
  cases order <;> simp [assignItem, OrderedMap.put]

theorem assignItem_run_error {key : Conversion κ} {mapped : Conversion ν}
    (h : key.value? = none ∨ mapped.value? = none) (b : Bound T) :
    ∃ e i, (assignItem order container key mapped).run b = .error e
      ⟨i, container.set b.obj (halfAssigned order (container.get b.obj) key)⟩ := by
  obtain ⟨i, t⟩ := b
  cases key with
  | raised e =>
    cases mapped <;> cases order <;> simp [assignItem, halfAssigned, Conversion.value?]
  | built k p =>
    have hm : mapped.value? = none := h.resolve_left (by simp [Conversion.value?])
    obtain ⟨e, rfl⟩ := Conversion.eq_raised_of_value? hm
    cases order <;> simp [assignItem, halfAssigned, Conversion.value?]

theorem eachBack_assignElement_run (b : Bound T) :
    ∀ (l : List (Obj × Obj)) (i : Nat),
      (∀ e ∈ l, convertibleItem extractKey extractMapped e = true) →
      ∃ i', (eachBack (assignElement order extractKey extractMapped container) i l).run b = .ok ()
        ⟨i', container.set b.obj
          (OrderedMap.putBack (container.get b.obj) (entries extractKey extractMapped l))⟩
  | [], _, _ => ⟨b.interp, by simp [eachBack, entries, OrderedMap.putBack]⟩
  | e :: l, i, hl => by
    have he := hl e (by simp)
    simp only [convertibleItem, Bool.and_eq_true] at he
    obtain ⟨k, hk⟩ := exists_value he.1
    obtain ⟨v, hv⟩ := exists_value he.2
    obtain ⟨i₁, ih⟩ := eachBack_assignElement_run b l (i + 1)
      fun e he => hl e (List.mem_cons_of_mem _ he)
    obtain ⟨i₂, hr⟩ := assignItem_run order container hk hv ⟨i₁, container.set b.obj
      (OrderedMap.putBack (container.get b.obj) (entries extractKey extractMapped l))⟩
    refine ⟨i₂, ?_⟩
    unfold eachBack
    rw [run_bind_ok ih, assignElement, hr]
    simp [entries, itemValue, hk, hv, OrderedMap.putBack]

theorem decodeDict_run [PyObject Obj] {d : PyDict Obj}
    (hd : ∀ e ∈ d.items, convertibleItem extractKey extractMapped e = true) (b : Bound T) :
    ∃ i, (decodeDict order extractKey extractMapped container d).run b = .ok ()
      ⟨i, container.set b.obj
        (OrderedMap.putBack (container.get b.obj) (entries extractKey extractMapped d.items))⟩ := by
  rw [decodeDict_eq]
  exact eachBack_assignElement_run order extractKey extractMapped container b d.items 0 hd

theorem decodeDict_run_error [PyObject Obj] {d : PyDict Obj} {l₁ l₂ : List (Obj × Obj)}
    {e : Obj × Obj} (hd : d.items = l₁ ++ e :: l₂)
    (he : convertibleItem extractKey extractMapped e = false)
    (h₂ : ∀ e ∈ l₂, convertibleItem extractKey extractMapped e = true) (b : Bound T) :
    ∃ err i, (decodeDict order extractKey extractMapped container d).run b = .error err
      ⟨i, container.set b.obj (halfAssigned order
        (OrderedMap.putBack (container.get b.obj) (entries extractKey extractMapped l₂))
        (extractKey e.1))⟩ := by
  obtain ⟨i₁, h₁⟩ := eachBack_assignElement_run order extractKey extractMapped container b l₂
    (0 + l₁.length + 1) h₂
  have hnone : (extractKey e.1).value? = none ∨ (extractMapped e.2).value? = none := by
    simpa [convertibleItem, convertible, ← not_and_or, imp_iff_not_or] using he
  obtain ⟨err, i₂, hr⟩ := assignItem_run_error order container hnone ⟨i₁, container.set b.obj
    (OrderedMap.putBack (container.get b.obj) (entries extractKey extractMapped l₂))⟩
  refine ⟨err, i₂, ?_⟩
  rw [decodeDict_eq, hd]
  apply eachBack_run_error _ h₁
  unfold assignElement
  rw [hr]
  simp

theorem decodeDict_failed [PyObject Obj] {d : PyDict Obj}
    (hd : ∃ e ∈ d.items, convertibleItem extractKey extractMapped e = false) (b : Bound T) :
    ∃ e err i, lastFailing (convertibleItem extractKey extractMapped) d.items = some e ∧
      (decodeDict order extractKey extractMapped container d).run b = .error err
        ⟨i, container.set b.obj (halfAssigned order
          (OrderedMap.putBack (container.get b.obj) (entries extractKey extractMapped
            (d.items.rtakeWhile (convertibleItem extractKey extractMapped))))
          (extractKey e.1))⟩ := by
  obtain ⟨l₁, e, hlast, he, hsplit⟩ :=
    exists_lastFailing (convertibleItem extractKey extractMapped) hd
  obtain ⟨err, i, hrun⟩ := decodeDict_run_error order extractKey extractMapped container hsplit he
    (fun e => List.mem_rtakeWhile_imp) b
  exact ⟨e, err, i, hlast, hrun⟩

end

end

end DCore
