import DCorePython.Lib.Heap
import DCorePython.Codecs

/-!
# Paths of attributes

The bound objects are C++ objects on a heap. The getter of a `def_readwrite`
member gives a reference into its owner. A getter that is a function returns by
value or makes a `bp::object`, so it allocates a copy: optionals, smart
references, lists and alternatives are all read so. An assignment through a
path writes to what its last step gives, the owner's member or a copy.
-/

namespace DCore

open Loop Call

instance {α : Type} : PyNone (Option α) where
  none := none
  isNone := Option.isNone
  isNone_iff o := by simp

section
variable {Ty : Type} {El : Ty → Type} {s t u : Ty}

/-- A Python object that holds a C++ value of its own. -/
def newObject (x : El t) : Call (Heap El) (Ref El t) := do
  let h ← current
  onObj fun h => h.alloc x
  return Ref.next h t

def decodeSmartRef {T V Obj : Type} {m : Type → Type} (toPython : V → m Obj) (member : Member T V)
    (obj : T) : m Obj :=
  toPython (member.get obj)

/-- The position that Python's `l[i]` reads in a list of length `len`. -/
def pyPosition (len : Nat) (i : Int) : Nat :=
  if 0 ≤ i then i.toNat
  else if -i ≤ len then (len + i).toNat
  else len

def pyIndex {α : Type} (l : List α) (i : Int) : Option α := l[pyPosition l.length i]?

def item {α T : Type} (l : List α) (i : Int) : Call T α :=
  match pyIndex l i with
  | some a => pure a
  | none => throw .indexError

theorem newObject_run (x : El t) (h : Heap El) (i : Interp) :
    (newObject x).run ⟨i, h⟩ = .ok (Ref.next h t) ⟨i, h.alloc x⟩ := rfl

/-- The objects of a list are the cells behind the heap, in order. -/
theorem mapM_newObject_run {W : Type} (value : W → El t) :
    ∀ (c : List W) (h : Heap El) (i : Interp),
      (c.mapM fun v => newObject (value v)).run ⟨i, h⟩ = .ok
        ((List.range' h.length c.length).map fun a => ⟨t, a, Member.self⟩)
        ⟨i, h ++ c.map fun v => ⟨t, value v⟩⟩
  | [], h, i => by simp
  | x :: c, h, i => by
    have ih := mapM_newObject_run value c (h.alloc (value x)) i
    have hx := newObject_run (value x) h i
    have hlen : (h.alloc (value x)).length = h.length + 1 := by simp [Heap.alloc]
    rw [List.mapM_cons, run_bind_ok hx, run_bind_ok ih, hlen,
      List.length_cons, List.range'_succ, List.map_cons, List.map_cons]
    unfold Heap.alloc
    rw [List.append_assoc]
    rfl

theorem getElem?_newObjects {W : Type} (h : Heap El) {l : List W} {p : Nat} {v : W}
    (hp : l[p]? = some v) :
    ((List.range' h.length l.length).map fun a => (⟨t, a, Member.self⟩ : Ref El t))[p]? =
      some ⟨t, h.length + p, Member.self⟩ := by
  have hlt : p < l.length := (List.getElem?_eq_some_iff.mp hp).1
  simp [hlt]

theorem item_run {α T : Type} {l : List α} {len : Nat} {i : Int} {a : α}
    (ha : l[pyPosition len i]? = some a) (hlen : l.length = len) (b : Bound T) :
    (item l i).run b = .ok a b := by
  subst hlen
  unfold item pyIndex
  rw [ha]
  rfl

/-! ## Steps -/

/-- The ways to get from one bound object to the next. -/
inductive Step (El : Ty → Type) : Ty → Ty → Type 1
  | readwrite {s t : Ty} (member : Member (El s) (El t)) : Step El s t
  | optional {s t : Ty} (member : Member (El s) (Option (El t))) : Step El s t
  | smartRef {s t : Ty} (member : Member (El s) (El t)) : Step El s t
  | element {s t : Ty} {W : Type} (container : Member (El s) (List W)) (value : W → El t)
    (i : Int) : Step El s t
  | alternative {s t : Ty} (which : El s → Nat) (tag : Nat) (get : El s → Option (El t)) :
    Step El s t

/-- `None` has no attributes. -/
def owner : Option (Ref El t) → Call (Heap El) (Ref El t)
  | some r => pure r
  | none => throw .attributeError

variable [DecidableEq Ty]

def load (r : Ref El t) : Call (Heap El) (El t) := do
  let h ← current
  match h.load r with
  | some x => pure x
  | none => throw .runtimeError

theorem load_run {h : Heap El} {r : Ref El t} {c : El t} (hc : h.load r = some c) (i : Interp) :
    (load r).run ⟨i, h⟩ = .ok c ⟨i, h⟩ := by
  unfold load
  rw [run_bind_ok (current_run _)]
  simp only [hc]
  rfl

theorem load_newObjects {W : Type} (value : W → El t) (h : Heap El) {l : List W} {p : Nat} {v : W}
    (hp : l[p]? = some v) :
    Heap.load (h ++ l.map fun v => ⟨t, value v⟩) ⟨t, h.length + p, Member.self⟩ =
      some (value v) := by
  rw [Heap.load_eq_some_iff]
  refine ⟨value v, ?_, rfl⟩
  rw [List.getElem?_append_right (Nat.le_add_right _ _), Nat.add_sub_cancel_left, List.getElem?_map,
    hp]
  rfl

/-- A reference `r'` to `d` that was reached from `r`: through a member of what
`r` refers to, or to a cell that is not in `h`. -/
structure LeadsTo (through? : Option (Member (El s) (El t))) (h : Heap El) (r : Ref El s) (d : El t)
    (r' : Ref El t) (cells : Heap El) : Prop where
  value : (h ++ cells).load r' = some d
  through : ∀ m, through? = some m → r' = r.through m ∧ cells = []
  copied : through? = none → h.length ≤ r'.addr

theorem leadsTo_next (h : Heap El) (r : Ref El s) (d : El t) :
    LeadsTo none h r d (Ref.next h t) [⟨t, d⟩] :=
  ⟨Heap.load_next h d, nofun, fun _ => Nat.le_refl _⟩

namespace Step

def eval : Step El s t → Ref El s → Call (Heap El) (Ref El t)
  | readwrite member, r => pure (r.through member)
  | optional member, r => do
    let obj ← load r
    let o ← decodeOptionalType (fun x => some <$> newObject x) member obj
    owner o
  | smartRef member, r => do
    let obj ← load r
    decodeSmartRef newObject member obj
  | element container value i, r => do
    let obj ← load r
    let l ← encodeList (fun v => newObject (value v)) container obj
    item l i
  | alternative which tag get, r => do
    let obj ← load r
    let o ← build (.ofExcept (decodeStaticVariant which tag get some obj))
    let o ← o.mapM newObject
    owner o

/-- The member that a reference goes through; the other steps copy. -/
def through? : Step El s t → Option (Member (El s) (El t))
  | readwrite member => some member
  | _ => none

/-- The value that a step leads to. -/
def view : Step El s t → El s → Option (El t)
  | readwrite member, c => some (member.get c)
  | optional member, c => member.get c
  | smartRef member, c => some (member.get c)
  | element container value i, c => (pyIndex (container.get c) i).map value
  | alternative which tag get, c => if which c = tag then get c else none

theorem eval_run (st : Step El s t) {h : Heap El} {r : Ref El s} {c : El s} {d : El t}
    (hc : h.load r = some c) (hd : st.view c = some d) (i : Interp) :
    ∃ r' cells, (st.eval r).run ⟨i, h⟩ = .ok r' ⟨i, h ++ cells⟩ ∧
      LeadsTo st.through? h r d r' cells := by
  cases st with
  | readwrite member =>
    cases hd
    refine ⟨r.through member, [], ?_, ?_, ?_, nofun⟩
    · rw [List.append_nil]
      rfl
    · rw [List.append_nil, Heap.load_through, hc]
      rfl
    · intro m hm
      cases hm
      exact ⟨rfl, rfl⟩
  | optional member =>
    have hget : member.get c = some d := hd
    refine ⟨Ref.next h _, _, ?_, leadsTo_next h r d⟩
    unfold eval decodeOptionalType
    rw [run_bind_ok (load_run hc i), hget]
    rfl
  | smartRef member =>
    cases hd
    refine ⟨Ref.next h _, _, ?_, leadsTo_next h r _⟩
    unfold eval decodeSmartRef
    rw [run_bind_ok (load_run hc i)]
    rfl
  | element container value j =>
    obtain ⟨v, hj, rfl⟩ := Option.map_eq_some_iff.mp hd
    refine ⟨⟨_, h.length + pyPosition (container.get c).length j, Member.self⟩,
      (container.get c).map fun v => ⟨_, value v⟩, ?_, ?_, nofun, fun _ => Nat.le_add_right _ _⟩
    · unfold eval
      rw [run_bind_ok (load_run hc i), encodeList_eq,
        run_bind_ok (mapM_newObject_run value _ h i),
        item_run (getElem?_newObjects h hj) (by simp) _]
    · exact load_newObjects value h hj
  | alternative which tag get =>
    have hget : which c = tag ∧ get c = some d := by
      by_cases hw : which c = tag
      · exact ⟨hw, by rwa [view, if_pos hw] at hd⟩
      · rw [view, if_neg hw] at hd
        cases hd
    refine ⟨Ref.next h _, _, ?_, leadsTo_next h r d⟩
    unfold eval decodeStaticVariant
    rw [run_bind_ok (load_run hc i), if_pos hget.1, hget.2]
    rfl

theorem eval_run_error (st : Step El s t) {h : Heap El} {r : Ref El s} {c : El s}
    (hc : h.load r = some c) (hd : st.view c = none) (i : Interp) :
    ∃ e b, (st.eval r).run ⟨i, h⟩ = .error e b := by
  cases st with
  | readwrite member => cases hd
  | optional member =>
    have hget : member.get c = none := hd
    refine ⟨.attributeError, ⟨i, h⟩, ?_⟩
    unfold eval decodeOptionalType
    rw [run_bind_ok (load_run hc i), hget]
    rfl
  | smartRef member => cases hd
  | element container value j =>
    have hle := List.getElem?_eq_none_iff.mp (Option.map_eq_none_iff.mp hd)
    refine ⟨.indexError, ⟨i, h ++ (container.get c).map fun v => ⟨_, value v⟩⟩, ?_⟩
    unfold eval
    rw [run_bind_ok (load_run hc i), encodeList_eq, run_bind_ok (mapM_newObject_run value _ h i),
      item, pyIndex, List.length_map, List.length_range',
      List.getElem?_eq_none (by simpa using hle)]
    rfl
  | alternative which tag get =>
    unfold eval decodeStaticVariant
    rw [run_bind_ok (load_run hc i)]
    by_cases hw : which c = tag
    · have hget : get c = none := by rwa [view, if_pos hw] at hd
      refine ⟨.runtimeError, ⟨i, h⟩, ?_⟩
      rw [if_pos hw, hget]
      rfl
    · refine ⟨.attributeError, ⟨i, h⟩, ?_⟩
      rw [if_neg hw]
      rfl

end Step

/-! ## Paths -/

inductive Path (El : Ty → Type) : Ty → Ty → Type 1
  | nil {s : Ty} : Path El s s
  | cons {s t u : Ty} (step : Step El s t) (path : Path El t u) : Path El s u

namespace Path

def eval : {s t : Ty} → Path El s t → Ref El s → Call (Heap El) (Ref El t)
  | _, _, nil, r => pure r
  | _, _, cons step path, r => do
    let r' ← step.eval r
    path.eval r'

def through? : {s t : Ty} → Path El s t → Option (Member (El s) (El t))
  | _, _, nil => some Member.self
  | _, _, cons step path => step.through?.bind fun m => path.through?.map m.comp

def view : {s t : Ty} → Path El s t → El s → Option (El t)
  | _, _, nil, c => some c
  | _, _, cons step path, c => (step.view c).bind path.view

/-- No step of the path copies. -/
def ByReference (p : Path El s t) : Prop := p.through?.isSome

end Path

theorem LeadsTo.trans {m? : Option (Member (El s) (El t))} {m'? : Option (Member (El t) (El u))}
    {h cells cells' : Heap El} {r : Ref El s} {r' : Ref El t} {r'' : Ref El u} {d : El t} {e : El u}
    (hd : LeadsTo m? h r d r' cells) (he : LeadsTo m'? (h ++ cells) r' e r'' cells') :
    LeadsTo (m?.bind fun m => m'?.map m.comp) h r e r'' (cells ++ cells') := by
  refine ⟨by rw [← List.append_assoc]; exact he.value, ?_, ?_⟩
  · intro m hm
    obtain ⟨m₁, hm₁, hm⟩ := Option.bind_eq_some_iff.mp hm
    obtain ⟨m₂, hm₂, rfl⟩ := Option.map_eq_some_iff.mp hm
    obtain ⟨rfl, rfl⟩ := hd.through m₁ hm₁
    obtain ⟨rfl, rfl⟩ := he.through m₂ hm₂
    exact ⟨rfl, rfl⟩
  · intro hnone
    cases m'? with
    | none =>
      have hlen := he.copied rfl
      rw [List.length_append] at hlen
      omega
    | some m' =>
      have hcopied : m? = none := by
        cases m? with
        | none => rfl
        | some m => cases hnone
      rw [(he.through m' rfl).1]
      exact hd.copied hcopied

namespace Path

theorem eval_run :
    ∀ {s t : Ty} (p : Path El s t) {h : Heap El} {r : Ref El s} {c : El s} {d : El t},
      h.load r = some c → p.view c = some d → ∀ i, ∃ r' cells, (p.eval r).run ⟨i, h⟩ = .ok r' ⟨i, h ++ cells⟩ ∧
        LeadsTo p.through? h r d r' cells
  | _, _, nil, h, r, c, d, hc, hd, i => by
    cases hd
    refine ⟨r, [], ?_, ?_, ?_, nofun⟩
    · rw [List.append_nil]
      rfl
    · rw [List.append_nil, hc]
    · intro m hm
      cases hm
      exact ⟨rfl, rfl⟩
  | _, _, cons step path, h, r, c, d, hc, hd, i => by
    obtain ⟨c', hstep, hpath⟩ := Option.bind_eq_some_iff.mp hd
    obtain ⟨r', cells, hrun, hleads⟩ := step.eval_run hc hstep i
    obtain ⟨r'', cells', hrun', hleads'⟩ := path.eval_run hleads.value hpath i
    refine ⟨r'', cells ++ cells', ?_, ?_⟩
    · unfold eval
      rw [run_bind_ok hrun, hrun', List.append_assoc]
    · exact hleads.trans hleads'

theorem eval_run_error :
    ∀ {s t : Ty} (p : Path El s t) {h : Heap El} {r : Ref El s} {c : El s}, h.load r = some c →
      p.view c = none → ∀ i, ∃ e b, (p.eval r).run ⟨i, h⟩ = .error e b
  | _, _, nil, h, r, c, hc, hd, i => by cases hd
  | _, _, cons step path, h, r, c, hc, hd, i => by
    cases hstep : step.view c with
    | none =>
      obtain ⟨e, b, hrun⟩ := step.eval_run_error hc hstep i
      refine ⟨e, b, ?_⟩
      unfold eval
      rw [run_bind_error hrun]
    | some c' =>
      obtain ⟨r', cells, hrun, hleads⟩ := step.eval_run hc hstep i
      have hpath : path.view c' = none := by
        rw [view, hstep] at hd
        exact hd
      obtain ⟨e, b, hrun'⟩ := path.eval_run_error hleads.value hpath i
      refine ⟨e, b, ?_⟩
      unfold eval
      rw [run_bind_ok hrun, hrun']

end Path

end

end DCore
