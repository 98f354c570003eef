import DCorePython.AttributePaths
import DCorePython.Lib.Located
import DCorePython.Lib.Machine

/-!
# Sessions

A session is a heap of bound objects and the Python names that refer to them.
Its statements print what attributes read, bind names, make objects, assign
through paths and call methods. Every getter that copies leaves a new cell on
the heap, whether the program keeps the object or not.
-/

namespace DCore

open Loop Call

section
variable {Ty : Type} {El : Ty → Type} {s t u : Ty}

/-! ## What a path reads -/

/-- The value that a step leads to, or what its getter raises. -/
def Step.look : Step El s t → El s → Except PyErr (El t)
  | .readwrite member, c => .ok (member.get c)
  | .optional member, c =>
    match member.get c with
    | some d => .ok d
    | none => .error .attributeError
  | .smartRef member, c => .ok (member.get c)
  | .element container value i, c =>
    match pyIndex (container.get c) i with
    | some v => .ok (value v)
    | none => .error .indexError
  | .alternative which tag get, c =>
    if which c = tag then
      match get c with
      | some d => .ok d
      | none => .error .runtimeError
    else .error .attributeError

def Path.look : {s t : Ty} → Path El s t → El s → Except PyErr (El t)
  | _, _, .nil, c => .ok c
  | _, _, .cons step path, c => do
    let d ← step.look c
    path.look d

theorem Step.view_eq (st : Step El s t) (c : El s) : st.view c = (st.look c).toOption := by
  cases st with
  | readwrite member => rfl
  | optional member =>
    unfold view look
    simp only
    cases member.get c <;> rfl
  | smartRef member => rfl
  | element container value i =>
    unfold view look
    simp only
    cases pyIndex (container.get c) i <;> rfl
  | alternative which tag get =>
    unfold view look
    simp only
    by_cases hw : which c = tag
    · rw [if_pos hw, if_pos hw]
      cases get c <;> rfl
    · rw [if_neg hw, if_neg hw]
      rfl

theorem Path.view_eq : ∀ {s t : Ty} (p : Path El s t) (c : El s), p.view c = (p.look c).toOption
  | _, _, .nil, _ => rfl
  | _, _, .cons step path, c => by
    unfold view look
    rw [step.view_eq]
    cases step.look c with
    | error e => rfl
    | ok d => exact view_eq path d

theorem Path.view_of_look {p : Path El s t} {c : El s} {d : El t} (h : p.look c = .ok d) :
    p.view c = some d := by
  rw [p.view_eq, h]
  rfl

theorem Path.look_of_through? {p : Path El s t} {m : Member (El s) (El t)}
    (h : p.through? = some m) (c : El s) : p.look c = .ok (m.get c) := by
  have hview := view_of_through? h c
  rw [p.view_eq] at hview
  cases hlook : p.look c with
  | error e =>
    rw [hlook] at hview
    cases hview
  | ok d =>
    rw [hlook] at hview
    cases hview
    rfl

/-! ## Calls that only add cells -/

/-- The call gives `x`, or raises it, and adds cells to the heap. -/
def Yields {ε α : Type} (c : EStateM ε (Bound (Heap El)) α) (b : Bound (Heap El))
    (x : Except ε α) : Prop :=
  ∃ cells, c.run b = ended x ⟨b.interp, b.obj ++ cells⟩

namespace Yields

variable {ε α β : Type} {b : Bound (Heap El)}

theorem of_run {c : EStateM ε (Bound (Heap El)) α} {x : Except ε α} (h : c.run b = ended x b) :
    Yields c b x :=
  ⟨[], by rw [h, List.append_nil]⟩

theorem bind {c : EStateM ε (Bound (Heap El)) α} {f : α → EStateM ε (Bound (Heap El)) β}
    {x : Except ε α} {y : α → Except ε β} (h : Yields c b x)
    (hf : ∀ a cells, x = .ok a → Yields (f a) ⟨b.interp, b.obj ++ cells⟩ (y a)) :
    Yields (c >>= f) b (x >>= y) := by
  obtain ⟨cells, hrun⟩ := h
  cases x with
  | error e => exact ⟨cells, run_bind_error hrun⟩
  | ok a =>
    obtain ⟨cells', hrun'⟩ := hf a cells rfl
    refine ⟨cells ++ cells', ?_⟩
    rw [run_bind_ok hrun, hrun', List.append_assoc]
    rfl

theorem stop {c : EStateM ε (Bound (Heap El)) α} {f : α → EStateM ε (Bound (Heap El)) β} {e : ε}
    (h : Yields c b (.error e)) : Yields (c >>= f) b (.error e) := by
  obtain ⟨cells, hrun⟩ := h
  exact ⟨cells, run_bind_error hrun⟩

theorem after {c : EStateM ε (Bound (Heap El)) α} {f : α → EStateM ε (Bound (Heap El)) β}
    {a : α} {cells : List (Sigma El)} {x : Except ε β}
    (hrun : c.run b = .ok a ⟨b.interp, b.obj ++ cells⟩)
    (h : Yields (f a) ⟨b.interp, b.obj ++ cells⟩ x) : Yields (c >>= f) b x := by
  obtain ⟨cells', hrun'⟩ := h
  refine ⟨cells ++ cells', ?_⟩
  rw [run_bind_ok hrun, hrun', List.append_assoc]

end Yields

variable [DecidableEq Ty]

theorem Step.eval_error (st : Step El s t) {b : Bound (Heap El)} {r : Ref El s} {c : El s}
    (hc : b.obj.load r = some c) {e : PyErr} (he : st.look c = .error e) :
    Yields (st.eval r) b (.error e) := by
  obtain ⟨i, h⟩ := b
  cases st with
  | readwrite member => cases he
  | smartRef member => cases he
  | optional member =>
    have hget : member.get c = none ∧ e = .attributeError := by
      unfold look at he
      simp only at he
      cases ho : member.get c <;> rw [ho] at he <;> cases he
      exact ⟨rfl, rfl⟩
    refine .of_run ?_
    unfold eval decodeOptionalType
    rw [run_bind_ok (load_run hc i), hget.1, hget.2]
    rfl
  | element container value j =>
    have hget : pyIndex (container.get c) j = none ∧ e = .indexError := by
      unfold look at he
      simp only at he
      cases ho : pyIndex (container.get c) j <;> rw [ho] at he <;> cases he
      exact ⟨rfl, rfl⟩
    have hle := List.getElem?_eq_none_iff.mp hget.1
    refine ⟨(container.get c).map fun v => ⟨_, value v⟩, ?_⟩
    unfold eval
    rw [run_bind_ok (load_run hc i), encodeList_eq, run_bind_ok (mapM_newObject_run value _ h i),
      item, pyIndex, List.length_map, List.length_range',
      List.getElem?_eq_none (by simpa using hle), hget.2]
    rfl
  | alternative which tag get =>
    refine .of_run ?_
    unfold eval decodeStaticVariant
    rw [run_bind_ok (load_run hc i)]
    unfold look at he
    simp only at he
    by_cases hw : which c = tag
    · rw [if_pos hw] at he ⊢
      cases ho : get c <;> rw [ho] at he <;> cases he
      rfl
    · rw [if_neg hw] at he ⊢
      cases he
      rfl

theorem Path.eval_error :
    ∀ {s t : Ty} (p : Path El s t) {b : Bound (Heap El)} {r : Ref El s} {c : El s},
      b.obj.load r = some c → ∀ {e : PyErr}, p.look c = .error e → Yields (p.eval r) b (.error e)
  | _, _, .nil, _, _, _, _, _, he => by cases he
  | _, _, .cons step path, b, r, c, hc, e, he => by
    unfold look at he
    cases hstep : step.look c with
    | error e' =>
      rw [hstep] at he
      cases he
      obtain ⟨cells, hrun⟩ := step.eval_error hc hstep
      exact ⟨cells, run_bind_error hrun⟩
    | ok d =>
      rw [hstep] at he
      have hd : step.view c = some d := by rw [step.view_eq, hstep]; rfl
      obtain ⟨r', cells, hrun, hleads⟩ := step.eval_run hc hd b.interp
      have hd' : (⟨b.interp, b.obj ++ cells⟩ : Bound (Heap El)).obj.load r' = some d := hleads.value
      obtain ⟨cells', hrun'⟩ := path.eval_error hd' he
      refine ⟨cells ++ cells', ?_⟩
      unfold eval
      rw [run_bind_ok hrun, hrun', List.append_assoc]

end

/-! ## Statements -/

section
variable {Ty Var : Type} (El : Ty → Type) (cls : Var → Ty)

/-- Arguments: Python values, the objects that paths lead to, and what functions
of the bindings make of them. -/
inductive Expr : Type → Type 1
  | value {α : Type} (a : α) : Expr α
  | object (x : Var) {t : Ty} (path : Path El (cls x) t) : Expr (El t)
  | apply {α β : Type} (f : Expr (α → Except PyErr β)) (e : Expr α) : Expr β

/-- `print(e)`, `y = x.a1...an`, `y = C(e)`, `x.a1...an = e`, `x.a1...an(e)` and
`x.a1...am(y.b1...bn, e)`. The last method is `const` and takes its first
argument by reference: it reads its object and writes the argument. -/
inductive Statement (Out : Type) : Type 1
  | print (e : Expr El cls Out)
  | bind (y x : Var) (path : Path El (cls x) (cls y))
  | create (y : Var) (e : Expr El cls (El (cls y)))
  | assign (x : Var) {t : Ty} (path : Path El (cls x) t) {α : Type}
    (set : α → Call (El t) Unit) (e : Expr El cls α)
  | call (x : Var) {t : Ty} (path : Path El (cls x) t) {α : Type}
    (method : α → Call (El t) Unit) (e : Expr El cls α)
  | pass (x : Var) {t : Ty} (path : Path El (cls x) t) (y : Var) {u : Ty}
    (arg : Path El (cls y) u) {α : Type} (method : El t → α → Call (El u) Unit)
    (e : Expr El cls α)

/-- What the statement writes to. -/
def Statement.target? {Ty Var Out : Type} {El : Ty → Type} {cls : Var → Ty} :
    Statement El cls Out → Option ((x : Var) × (t : Ty) × Path El (cls x) t)
  | assign x path _ _ => some ⟨x, _, path⟩
  | call x path _ _ => some ⟨x, _, path⟩
  | pass _ _ y arg _ _ => some ⟨y, _, arg⟩
  | _ => none

/-- Every name is used for the objects of one class. -/
abbrev Names := (x : Var) → Option (Ref El (cls x))

structure Session where
  heap : Heap El
  names : Names El cls

def Session.empty : Session El cls := ⟨[], fun _ => none⟩

end

section
variable {Ty Var : Type} {El : Ty → Type} {cls : Var → Ty} [DecidableEq Var]

def Names.set (names : Names El cls) (y : Var) (r : Ref El (cls y)) : Names El cls :=
  Function.update names y (some r)

theorem Names.set_self (names : Names El cls) (y : Var) (r : Ref El (cls y)) :
    names.set y r y = some r := Function.update_self ..

theorem Names.set_of_ne (names : Names El cls) {x y : Var} (h : x ≠ y) (r : Ref El (cls y)) :
    names.set y r x = names x := Function.update_of_ne h ..

end

section
variable {Ty Var : Type} {El : Ty → Type} {cls : Var → Ty} {Out α : Type} [DecidableEq Ty]

def Names.resolve {T : Type} (names : Names El cls) (x : Var) :
    EStateM Fault T (Ref El (cls x)) :=
  match names x with
  | some r => pure r
  | none => throw .nameError

def Names.follow (names : Names El cls) (x : Var) {t : Ty} (p : Path El (cls x) t) :
    EStateM Fault (Bound (Heap El)) (Ref El t) := do
  let r ← names.resolve x
  lift (p.eval r)

def Expr.eval (names : Names El cls) : {α : Type} → Expr El cls α →
    EStateM Fault (Bound (Heap El)) α
  | _, .value a => pure a
  | _, .object x path => do
    let r ← names.follow x path
    lift (load r)
  | _, .apply f e => do
    let g ← f.eval names
    let a ← e.eval names
    lift (build (.ofExcept (g a)))

variable [DecidableEq Var]

/-- What the statement prints, and the names behind it. -/
def Statement.exec (names : Names El cls) :
    Statement El cls Out → EStateM Fault (Bound (Heap El)) (Option Out × Names El cls)
  | print e => do
    let o ← e.eval names
    pure (some o, names)
  | bind y x path => do
    let r ← names.follow x path
    pure (none, names.set y r)
  | create y e => do
    let c ← e.eval names
    let r ← lift (newObject c)
    pure (none, names.set y r)
  | assign x path set e => do
    let v ← e.eval names
    let r ← names.follow x path
    lift (onRef r (set v))
    pure (none, names)
  | call x path method e => do
    let r ← names.follow x path
    let v ← e.eval names
    lift (onRef r (method v))
    pure (none, names)
  | pass x path y arg method e => do
    let r ← names.follow x path
    let r' ← names.follow y arg
    let v ← e.eval names
    let c ← lift (load r)
    lift (onRef r' (method c v))
    pure (none, names)

namespace Session

/-- A statement that fails leaves the names; what it wrote stays. -/
def after (s : Session El cls) (heap : Heap El) :
    Except Fault (Option Out × Names El cls) → Session El cls × Except Fault (Option Out)
  | .ok (o, names) => (⟨heap, names⟩, .ok o)
  | .error f => (⟨heap, s.names⟩, .error f)

variable (El cls Out) in
def machine : Machine (Session El cls) (Statement El cls Out) (Except Fault (Option Out)) where
  step s st :=
    let out := settle ((st.exec s.names).run ⟨{}, s.heap⟩)
    s.after out.1 out.2

end Session

end

end DCore
