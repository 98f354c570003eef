import DCorePython.Atomicity
import DCorePython.Lib.Machine

/-!
# What attempted assignments leave

A program that catches what an assignment raises goes on with what the decoder
wrote until then. Over any run of attempts, whichever fail, sets and dicts never
lose a key: a set keeps the first element that was reached for a key, a dict has
the value that was written last, or a default value that no attempt asked for.
-/

namespace DCore

open Loop Call

section
variable {Obj T α κ ν : Type}

/-! ## One attempt -/

/-- The values that an attempt gets to: those behind the last element that
cannot be converted. -/
def reached (extract : Obj → Conversion α) (l : List Obj) : List α :=
  values extract (l.rtakeWhile (convertible extract))

theorem reached_of_forall {extract : Obj → Conversion α} {l : List Obj}
    (h : ∀ o ∈ l, convertible extract o = true) : reached extract l = values extract l := by
  unfold reached
  rw [List.rtakeWhile_eq_self_iff.mpr h]

/-- The old list at the length of the new one, with the values that the attempt
gets to at its end. -/
def overwritten [Inhabited α] (extract : Obj → Conversion α) (c : List α) (l : List Obj) :
    List α :=
  (resize c l.length).take (l.length - (reached extract l).length) ++ reached extract l

theorem decodeList_left [Inhabited α] (extract : Obj → Conversion α) (container : Member T (List α))
    (l : List Obj) (b : Bound T) :
    left ((decodeList extract container l).run b) =
      container.set b.obj (overwritten extract (container.get b.obj) l) := by
  unfold overwritten
  by_cases hl : ∀ o ∈ l, convertible extract o = true
  · rw [decodeList_run extract container hl, reached_of_forall hl, length_values hl, Nat.sub_self,
      List.take_zero, List.nil_append]
    rfl
  · push Not at hl
    obtain ⟨l₁, o, e, -, hsplit, hrun⟩ := decodeList_failed extract container (by simpa using hl) b
    have hlen := congrArg List.length hsplit
    rw [List.length_append, List.length_cons] at hlen
    have hreached : (reached extract l).length = (l.rtakeWhile (convertible extract)).length :=
      length_values fun o => List.mem_rtakeWhile_imp
    have hkept : l.length - (reached extract l).length = l₁.length + 1 := by omega
    rw [hrun, hkept]
    rfl

section
variable [LinearOrder κ] {key : α → κ} (extract : Obj → Conversion α)
  (container : Member T (OrderedSet key))

theorem decodeSet_left (l : List Obj) (b : Bound T) :
    left ((decodeSet extract container l).run b) =
      container.set b.obj ((container.get b.obj).insertBack (reached extract l)) := by
  by_cases hl : ∀ o ∈ l, convertible extract o = true
  · rw [decodeSet_run extract container hl, reached_of_forall hl]
    rfl
  · push Not at hl
    obtain ⟨e, i, hrun⟩ := decodeSet_failed extract container (by simpa using hl) b
    rw [hrun]
    rfl

end

section
variable [LinearOrder κ] [Inhabited ν] [PyObject Obj] (order : EvalOrder)
  (extractKey : Obj → Conversion κ) (extractMapped : Obj → Conversion ν)
  (container : Member T (OrderedMap κ ν))

def writtenEntries (d : PyDict Obj) : PartialMap κ (κ × ν) :=
  OrderedMap.firstEntry (entries extractKey extractMapped
    (d.items.rtakeWhile (convertibleItem extractKey extractMapped)))

/-- `k?` when `operator[]` runs before the mapped value is converted. -/
def subscriptFirst : EvalOrder → Option κ → Option κ
  | .keySubscriptMapped, k? => k?
  | _, _ => none

/-- The key for which `operator[]` makes an entry before the attempt fails. -/
def subscripted (d : PyDict Obj) : Option κ :=
  subscriptFirst order
    ((lastFailing (convertibleItem extractKey extractMapped) d.items).bind fun e =>
      (extractKey e.1).value?)

def defaultAt (k? : Option κ) (k : κ) : Option (κ × ν) :=
  if k? = some k then some (k, default) else none

theorem find?_halfAssigned (m : OrderedMap κ ν) (key : Conversion κ) (k : κ) :
    (halfAssigned order m key).find? k = (m.find? k).or
      (defaultAt (subscriptFirst order key.value?) k) := by
  unfold halfAssigned defaultAt subscriptFirst
  cases order with
  | keySubscriptMapped =>
    cases key.value? with
    | none => simp
    | some k' =>
      simp only [OrderedMap.subscript, OrderedSet.find?_insert, Option.some.injEq]
      by_cases hk : k' = k
      · subst hk
        rfl
      · rw [if_neg hk, if_neg hk]
  | keyMappedSubscript => simp
  | mappedKeySubscript => simp

theorem find?_putBack (m : OrderedMap κ ν) (es : List (κ × ν)) (k : κ) :
    (OrderedMap.putBack m es).find? k = (OrderedMap.firstEntry es k).or (m.find? k) :=
  congrFun (OrderedMap.contents_putBack m es) k

theorem lastFailing_of_forall {α : Type} {p : α → Bool} {l : List α} (h : ∀ a ∈ l, p a = true) :
    lastFailing p l = none := by
  unfold lastFailing
  rw [List.rdropWhile_eq_nil_iff.mpr h]
  rfl

theorem decodeDict_left (d : PyDict Obj) (b : Bound T) :
    ∃ m, left ((decodeDict order extractKey extractMapped container d).run b) =
        container.set b.obj m ∧
      ∀ k, m.find? k = ((writtenEntries extractKey extractMapped d k).or
        ((container.get b.obj).find? k)).or
          (defaultAt (subscripted order extractKey extractMapped d) k) := by
  by_cases hd : ∀ e ∈ d.items, convertibleItem extractKey extractMapped e = true
  · obtain ⟨i, hrun⟩ := decodeDict_run order extractKey extractMapped container hd b
    refine ⟨_, by rw [hrun]; rfl, ?_⟩
    intro k
    have hnone : subscripted order extractKey extractMapped d = none := by
      unfold subscripted
      rw [lastFailing_of_forall hd]
      cases order <;> rfl
    rw [find?_putBack, writtenEntries, List.rtakeWhile_eq_self_iff.mpr hd, hnone]
    simp [defaultAt]
  · push Not at hd
    obtain ⟨e, err, i, hlast, hrun⟩ :=
      decodeDict_failed order extractKey extractMapped container (by simpa using hd) b
    refine ⟨_, by rw [hrun]; rfl, ?_⟩
    intro k
    rw [find?_halfAssigned, find?_putBack, subscripted, hlast]
    rfl

end

end

/-! ## Runs of attempts -/

namespace CollectionAttribute

variable {V T : Type}

def member : CollectionAttribute V T → (C : Type) × Member T C
  | list _ container => ⟨_, container⟩
  | proposedOperations _ => ⟨_, ProposalCreateOperation.proposedOpsMember⟩
  | set _ _ container => ⟨_, container⟩
  | dict _ _ _ container => ⟨_, container⟩

/-- One attempt can make `c'` of `c`. -/
def Makes : (a : CollectionAttribute V T) → a.member.1 → V → a.member.1 → Prop
  | list extract _, c, l, c' => c' = overwritten extract c l
  | proposedOperations _, c, l, c' => c' = overwritten extractOpWrapper c l
  | set key extract _, c, l, c' =>
    ∀ k, c'.find? k = (c.find? k).or ((OrderedSet.ofBack key (reached extract l)).find? k)
  | dict order extractKey extractMapped _, c, d, c' =>
    ∀ k, c'.find? k = ((writtenEntries extractKey extractMapped d k).or (c.find? k)).or
      (defaultAt (subscripted order extractKey extractMapped d) k)

/-- What the attempts `vs`, in order, make of `c`. -/
def MakeAll : (a : CollectionAttribute V T) → a.member.1 → List V → a.member.1 → Prop
  | list extract _, c, ls, c' => c' = ls.foldl (overwritten extract) c
  | proposedOperations _, c, ls, c' => c' = ls.foldl (overwritten extractOpWrapper) c
  | set key extract _, c, ls, c' =>
    ∀ k, c'.find? k = (c.find? k).or
      (ls.findSome? fun l => (OrderedSet.ofBack key (reached extract l)).find? k)
  | dict order extractKey extractMapped _, c, ds, c' =>
    ∀ k, c'.find? k = (ds.reverse.findSome? fun d => writtenEntries extractKey extractMapped d k).or
      ((c.find? k).or
        (ds.findSome? fun d => defaultAt (subscripted order extractKey extractMapped d) k))

theorem exists_makes (a : CollectionAttribute V T) (v : V) (b : Bound T) :
    ∃ c', left ((a.assign v).run b) = a.member.2.set b.obj c' ∧
      a.Makes (a.member.2.get b.obj) v c' := by
  cases a with
  | list extract container => exact ⟨_, decodeList_left extract container v b, rfl⟩
  | proposedOperations F =>
    have hleft := decodeList_left extractOpWrapper ProposalCreateOperation.proposedOpsMember v b
    rw [← decodeProposedOperations_eq] at hleft
    exact ⟨_, hleft, rfl⟩
  | set key extract container =>
    refine ⟨_, decodeSet_left extract container v b, ?_⟩
    exact fun k => congrFun (OrderedSet.contents_insertBack (container.get b.obj) _) k
  | dict order extractKey extractMapped container =>
    exact decodeDict_left order extractKey extractMapped container v b

theorem makeAll_nil (a : CollectionAttribute V T) (c : a.member.1) : a.MakeAll c [] c := by
  cases a with
  | list extract container => rfl
  | proposedOperations F => rfl
  | set key extract container =>
    intro k
    rw [List.findSome?_nil, Option.or_none]
  | dict order extractKey extractMapped container =>
    intro k
    rw [List.reverse_nil, List.findSome?_nil, List.findSome?_nil, Option.none_or, Option.or_none]

theorem makeAll_concat (a : CollectionAttribute V T) {c c₁ c₂ : a.member.1} {vs : List V} {v : V}
    (h : a.MakeAll c vs c₁) (hv : a.Makes c₁ v c₂) : a.MakeAll c (vs ++ [v]) c₂ := by
  cases a with
  | list extract container =>
    obtain rfl : c₁ = vs.foldl (overwritten extract) c := h
    exact hv.trans (List.foldl_concat ..).symm
  | proposedOperations F =>
    obtain rfl : c₁ = vs.foldl (overwritten extractOpWrapper) c := h
    exact hv.trans (List.foldl_concat ..).symm
  | set key extract container =>
    intro k
    rw [hv k, h k, List.findSome?_append, Option.or_assoc, List.findSome?_singleton]
  | dict order extractKey extractMapped container =>
    intro k
    rw [hv k, h k, List.reverse_concat, List.findSome?_cons, List.findSome?_append,
      List.findSome?_singleton]
    cases writtenEntries extractKey extractMapped v k with
    | some e => rfl
    | none => simp only [Option.none_or, Option.or_assoc]

end CollectionAttribute

/-- Whether it raises or not, the call changes nothing but the member. -/
def WritesOnly {T C : Type} (c : Call T Unit) (m : Member T C) : Prop :=
  ∀ b, ∃ d, left (c.run b) = m.set b.obj d

/-- The setters of `def_readwrite` members and of optional attributes. -/
theorem convertThen_writesOnly {T C α : Type} (c : Conversion α) (f : α → C) (m : Member T C) :
    WritesOnly (convertThen c fun v t => m.set t (f v)) m := by
  intro b
  cases h : c.value? with
  | some v => exact ⟨f v, by rw [convertThen_run h]; rfl⟩
  | none =>
    obtain ⟨e, hrun⟩ := convertThen_run_error h (fun v t => m.set t (f v)) b
    exact ⟨m.get b.obj, by rw [hrun, Member.set_get]; rfl⟩

theorem CollectionAttribute.assign_writesOnly {V T : Type} (a : CollectionAttribute V T) (v : V) :
    WritesOnly (a.assign v) a.member.2 := by
  intro b
  obtain ⟨c', hleft, -⟩ := a.exists_makes v b
  exact ⟨c', hleft⟩

/-- A caught assignment to the attribute, or to another one of the object. -/
inductive Attempt {V T : Type} (a : CollectionAttribute V T) : Type 1
  | assign (v : V)
  | elsewhere {C : Type} (m : Member T C) (apart : m.Apart a.member.2) (c : Call T Unit)
    (writes : WritesOnly c m)

namespace Attempt

variable {V T : Type} {a : CollectionAttribute V T}

def call : Attempt a → Call T Unit
  | assign v => a.assign v
  | elsewhere _ _ c _ => c

def value? : Attempt a → Option V
  | assign v => some v
  | elsewhere _ _ _ _ => none

variable (a) in
def machine : Machine T (Attempt a) (Except Fault Unit) where
  step t st := settle ((lift st.call).run ⟨{}, t⟩)

theorem makeAll_step {c : a.member.1} {vs : List V} {t : T}
    (h : a.MakeAll c vs (a.member.2.get t)) (st : Attempt a) :
    a.MakeAll c (vs ++ st.value?.toList) (a.member.2.get ((machine a).step t st).1) := by
  have hstep : ((machine a).step t st).1 = left (st.call.run ⟨{}, t⟩) := settle_lift_fst _ _
  rw [hstep]
  cases st with
  | assign v =>
    obtain ⟨c', hleft, hmakes⟩ := a.exists_makes v ⟨{}, t⟩
    have hget : a.member.2.get (left ((assign v : Attempt a).call.run ⟨{}, t⟩)) = c' := by
      rw [call, hleft, Member.get_set]
    rw [hget]
    exact a.makeAll_concat h hmakes
  | elsewhere m apart c writes =>
    obtain ⟨d, hleft⟩ := writes ⟨{}, t⟩
    have hget : a.member.2.get (left ((elsewhere m apart c writes : Attempt a).call.run ⟨{}, t⟩)) =
        a.member.2.get t := by
      rw [call, hleft]
      exact apart.1 t d
    rw [hget, value?, Option.toList_none, List.append_nil]
    exact h

theorem foldl_values (prog : List (Attempt a)) (vs : List V) :
    prog.foldl (fun vs st => vs ++ st.value?.toList) vs = vs ++ prog.filterMap value? := by
  induction prog generalizing vs with
  | nil => simp
  | cons st prog ih =>
    rw [List.foldl_cons, ih, List.filterMap_cons]
    cases st.value? <;> simp

/-- Whichever attempts fail, the content of a collection is a function of what it
was and of the values that were to be assigned to it: sets and dicts keep all
keys, a set the first element reached for a key and a dict the last value
written, and a list is resized and overwritten from its end each time. -/
theorem collection_after_attempts (prog : List (Attempt a)) (t : T) :
    a.MakeAll (a.member.2.get t) (prog.filterMap value?)
      (a.member.2.get ((machine a).after t prog)) := by
  have hany : Machine.Admits (fun vs (st : Attempt a) => vs ++ st.value?.toList) (fun _ _ => True)
      [] prog := Machine.admits_of_forall fun _ _ _ => trivial
  have hrun := (machine a).inv_after
    (fun vs s st (h : a.MakeAll (a.member.2.get t) vs (a.member.2.get s)) _ => makeAll_step h st)
    prog [] t (a.makeAll_nil _) hany
  rw [foldl_values, List.nil_append] at hrun
  exact hrun

end Attempt

/-- Behind a failed attempt the list has its old front, at the new length. -/
example : (Attempt.machine (.list (PyObj.extractUnsigned 16) Member.self)).after [1, 2, 3, 4]
    [.assign [.int 8, .none, .int 7], .assign [.none, .int 5, .int 6, .int 9]] = [1, 5, 6, 9] :=
  rfl

/-- An attempt to give the account 12 no weight leaves it with the weight 0, and
what is assigned to the other attributes leaves the accounts. -/
example : ((Attempt.machine (.dict .keySubscriptMapped (PyObj.extractId .accountId)
      (PyObj.extractUnsigned 16) Authority.accountAuthsMember)).after (accountAuthority 10 1)
      [.assign (.single (.id 0 .accountId 12) .none),
        .elsewhere Authority.keyAuthsMember ⟨fun _ _ => rfl, fun _ _ => rfl⟩
          (Authority.setKeyAuths .keySubscriptMapped (.single (.publicKey 0 3) .none))
          (CollectionAttribute.assign_writesOnly (.dict .keySubscriptMapped
            PyObj.extractPublicKey (PyObj.extractUnsigned 16) Authority.keyAuthsMember) _),
        .elsewhere Authority.weightThresholdMember ⟨fun _ _ => rfl, fun _ _ => rfl⟩
          (Authority.setWeightThreshold (.int 2))
          (convertThen_writesOnly _ _ _)]).accountAuths.toList = [(10, 1), (12, 0)] :=
  rfl

end DCore
