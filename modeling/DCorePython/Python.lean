import Mathlib
import DCorePython.Lib.Loop
import DCorePython.Lib.Member

/-!
# The interpreter as the bindings see it

Boost.Python turns an exception thrown in C++ into a Python one. Apart from
that, the interpreter has a pending-error indicator that C functions of CPython
set when they fail; a converter that does not look at the result of such a
function returns normally and leaves the indicator set.

A call that assigns to an attribute runs on the C++ object in place, so what it
has written when it throws stays written.
-/

namespace DCore

inductive PyErr
  | typeError
  | overflowError
  | indexError
  | attributeError
  | unicodeEncodeError
  | unicodeDecodeError
  | runtimeError
  deriving DecidableEq, Repr

structure Interp where
  pending : Option PyErr := none
  deriving DecidableEq, Repr

def Interp.leave (i : Interp) (p : Option PyErr) : Interp := { pending := p.or i.pending }

@[simp] theorem Interp.leave_none (i : Interp) : i.leave none = i := rfl

/-- What `bp::extract` does with a Python object: it throws, or it builds a C++
value and may leave an error pending. -/
inductive Conversion (α : Type)
  | raised (e : PyErr)
  | built (a : α) (leaves : Option PyErr)
  deriving DecidableEq, Repr

namespace Conversion

variable {α : Type}

def value? : Conversion α → Option α
  | raised _ => none
  | built a _ => some a

def leaves : Conversion α → Option PyErr
  | raised _ => none
  | built _ p => p

def ofExcept : Except PyErr α → Conversion α
  | .error e => raised e
  | .ok a => built a none

theorem eq_built_of_value? {c : Conversion α} {a : α} (h : c.value? = some a) :
    c = built a c.leaves := by
  cases c with
  | raised e => cases h
  | built b p => cases h; rfl

theorem eq_raised_of_value? {c : Conversion α} (h : c.value? = none) : ∃ e, c = raised e := by
  cases c with
  | raised e => exact ⟨e, rfl⟩
  | built b p => cases h

end Conversion

structure Bound (T : Type) where
  interp : Interp
  obj : T
  deriving DecidableEq, Repr

abbrev Call (T : Type) := EStateM PyErr (Bound T)

namespace Call

variable {T α : Type}

def build : Conversion α → Call T α
  | .raised e => throw e
  | .built a p => do
    modify fun b => { b with interp := b.interp.leave p }
    pure a

def getItem (l : List α) (n : Nat) : Call T α :=
  match l[n]? with
  | some o => pure o
  | none => throw .indexError

def onObj (f : T → T) : Call T Unit := modify fun b => { b with obj := f b.obj }

def current : Call T T := fun b => .ok b.obj b

/-- Run a call on a local C++ object; it is lost when the call throws. -/
def withLocal {C : Type} (init : C) (c : Call C Unit) : EStateM PyErr Interp C := fun i =>
  match c.run ⟨i, init⟩ with
  | .ok () b => .ok b.obj b.interp
  | .error e b => .error e b.interp

/-- Run a call on a member of the object, as a method of a base or of a part
does. -/
def onMember {C : Type} (m : Member T C) (c : Call C α) : Call T α := fun b =>
  match c.run ⟨b.interp, m.get b.obj⟩ with
  | .ok a b' => .ok a ⟨b'.interp, m.set b.obj b'.obj⟩
  | .error e b' => .error e ⟨b'.interp, m.set b.obj b'.obj⟩

@[simp] theorem build_raised (e : PyErr) (b : Bound T) :
    (build (.raised e : Conversion α)).run b = .error e b := rfl

@[simp] theorem build_built (a : α) (p : Option PyErr) (b : Bound T) :
    (build (.built a p)).run b = .ok a { b with interp := b.interp.leave p } := rfl

theorem build_ofExcept_ok (a : α) (b : Bound T) : (build (.ofExcept (.ok a))).run b = .ok a b := rfl

theorem exists_build_ofExcept_iff {x : Except PyErr α} {b : Bound T} {R : α → Prop} :
    (∃ a b', (build (.ofExcept x)).run b = .ok a b' ∧ R a) ↔ ∃ a, x = .ok a ∧ R a := by
  refine ⟨?_, ?_⟩
  · intro h
    obtain ⟨a, b', hrun, ha⟩ := h
    cases x with
    | ok a' => cases hrun; exact ⟨a, rfl, ha⟩
    | error e => cases hrun
  · intro h
    obtain ⟨a, rfl, ha⟩ := h
    exact ⟨a, b, build_ofExcept_ok a b, ha⟩

theorem getItem_eq (l : List α) (n : Nat) (h : n < l.length) :
    (getItem l n : Call T α) = pure l[n] := by
  simp [getItem, h]

theorem withLocal_run {C : Type} {init : C} {c : Call C Unit} {i : Interp} {b : Bound C}
    (h : c.run ⟨i, init⟩ = .ok () b) : (withLocal init c).run i = .ok b.obj b.interp := by
  show withLocal init c i = _
  unfold withLocal
  rw [h]

theorem withLocal_run_error {C : Type} {init : C} {c : Call C Unit} {i : Interp} {b : Bound C}
    {e : PyErr} (h : c.run ⟨i, init⟩ = .error e b) :
    (withLocal init c).run i = .error e b.interp := by
  show withLocal init c i = _
  unfold withLocal
  rw [h]

theorem onMember_run_ok {C : Type} {m : Member T C} {c : Call C α} {b : Bound T} {a : α}
    {b' : Bound C} (h : c.run ⟨b.interp, m.get b.obj⟩ = .ok a b') :
    (onMember m c).run b = .ok a ⟨b'.interp, m.set b.obj b'.obj⟩ := by
  show onMember m c b = _
  unfold onMember
  rw [h]

theorem onMember_run_error {C : Type} {m : Member T C} {c : Call C α} {b : Bound T} {e : PyErr}
    {b' : Bound C} (h : c.run ⟨b.interp, m.get b.obj⟩ = .error e b') :
    (onMember m c).run b = .error e ⟨b'.interp, m.set b.obj b'.obj⟩ := by
  show onMember m c b = _
  unfold onMember
  rw [h]

@[simp] theorem current_run (b : Bound T) : (current : Call T T).run b = .ok b.obj b := rfl

@[simp] theorem onObj_run (f : T → T) (b : Bound T) :
    (onObj f).run b = .ok () { b with obj := f b.obj } := rfl

end Call

/-! ## Statements -/

/-- What ends a statement. CPython makes a `SystemError` of a call that returns
normally and leaves an error pending. -/
inductive Fault
  | nameError
  | raised (e : PyErr)
  | systemError
  deriving DecidableEq, Repr

def ended {ε σ α : Type} (x : Except ε α) (s : σ) : EStateM.Result ε σ α :=
  match x with
  | .ok a => .ok a s
  | .error e => .error e s

def toFault {α : Type} : Except PyErr α → Except Fault α
  | .ok a => .ok a
  | .error e => .error (.raised e)

def lift {T α : Type} (c : Call T α) : EStateM Fault (Bound T) α := fun b =>
  match c.run b with
  | .ok a b' => .ok a b'
  | .error e b' => .error (.raised e) b'

def settle {T α : Type} : EStateM.Result Fault (Bound T) α → T × Except Fault α
  | .ok a b =>
    match b.interp.pending with
    | none => (b.obj, .ok a)
    | some _ => (b.obj, .error .systemError)
  | .error f b => (b.obj, .error f)

/-- The object as a call leaves it, whether it raises or not. -/
def left {T α : Type} : EStateM.Result PyErr (Bound T) α → T
  | .ok _ b => b.obj
  | .error _ b => b.obj

section
variable {T α β : Type} {c : Call T α} {b b' : Bound T}

theorem lift_run_ok {a : α} (h : c.run b = .ok a b') : (lift c).run b = .ok a b' := by
  show lift c b = _
  unfold lift
  rw [h]

theorem lift_run_error {e : PyErr} (h : c.run b = .error e b') :
    (lift c).run b = .error (.raised e) b' := by
  show lift c b = _
  unfold lift
  rw [h]

theorem left_bind_pure (c : Call T α) (f : α → β) (b : Bound T) :
    left ((do let a ← c; return f a).run b) = left (c.run b) := by
  cases h : c.run b with
  | error e b' => rw [Loop.run_bind_error h]; rfl
  | ok a b' => rw [Loop.run_bind_ok h]; rfl

theorem settle_lift_fst (c : Call T α) (b : Bound T) :
    (settle ((lift c).run b)).1 = left (c.run b) := by
  cases h : c.run b with
  | error e b' =>
    rw [lift_run_error h]
    rfl
  | ok a b' =>
    rw [lift_run_ok h]
    obtain ⟨⟨pending⟩, t⟩ := b'
    cases pending <;> rfl

theorem left_onMember {C : Type} (m : Member T C) (c : Call C α) (b : Bound T) :
    left ((Call.onMember m c).run b) = m.set b.obj (left (c.run ⟨b.interp, m.get b.obj⟩)) := by
  cases h : c.run ⟨b.interp, m.get b.obj⟩ with
  | error e b' => rw [Call.onMember_run_error h]; rfl
  | ok a b' => rw [Call.onMember_run_ok h]; rfl

theorem settle_ended (x : Except Fault α) (t : T) : settle (ended x ⟨{}, t⟩) = (t, x) := by
  cases x <;> rfl

theorem settle_bind_pure (c : EStateM Fault (Bound T) α) (a : β) (b : Bound T) :
    settle ((do let _ ← c; pure a).run b) =
      ((settle (c.run b)).1, (settle (c.run b)).2.map fun _ => a) := by
  cases h : c.run b with
  | error f b' =>
    rw [Loop.run_bind_error h]
    rfl
  | ok a' b' =>
    rw [Loop.run_bind_ok h]
    obtain ⟨⟨pending⟩, t⟩ := b'
    cases pending <;> rfl

end

/-! ## Python objects and dicts -/

class PyNone (Obj : Type) where
  none : Obj
  isNone : Obj → Bool
  isNone_iff : ∀ o, isNone o = true ↔ o = none

/-- Python objects that a dict can have as keys. It takes one for another when
their hashes are equal and they are identical or `==`. -/
class PyObject (Obj : Type) extends PyNone Obj where
  same : Obj → Obj → Bool
  same_refl : ∀ o, same o o = true

structure PyDict (Obj : Type) [PyObject Obj] where
  items : List (Obj × Obj)
  distinct : items.Pairwise fun a b => PyObject.same a.1 b.1 = false

namespace PyDict

variable {Obj : Type} [PyObject Obj]

def keys (d : PyDict Obj) : List Obj := d.items.map Prod.fst

def get? (d : PyDict Obj) (k : Obj) : Option Obj :=
  (d.items.find? fun e => PyObject.same e.1 k).map Prod.snd

def get (d : PyDict Obj) (k : Obj) : Obj := (d.get? k).getD PyNone.none

def empty : PyDict Obj := ⟨[], .nil⟩

def setdefault (d : PyDict Obj) (k v : Obj) : PyDict Obj :=
  if h : ∃ e ∈ d.items, PyObject.same e.1 k = true then d
  else
    { items := d.items ++ [(k, v)]
      distinct := by
        rw [List.pairwise_append]
        refine ⟨d.distinct, by simp, fun a ha b hb => ?_⟩
        rw [List.mem_singleton.mp hb]
        by_contra hc
        exact h ⟨a, ha, by simpa using hc⟩ }

theorem get?_of_mem {d : PyDict Obj} {k v : Obj} (h : (k, v) ∈ d.items) : d.get? k = some v := by
  suffices hs : d.items.find? (fun e => PyObject.same e.1 k) = some (k, v) by
    simp [get?, hs]
  obtain ⟨items, hd⟩ := d
  simp only at h ⊢
  induction items with
  | nil => cases h
  | cons e items ih =>
    rcases List.mem_cons.mp h with rfl | h
    · simp [PyObject.same_refl]
    · have he : PyObject.same e.1 k = false := List.rel_of_pairwise_cons hd h
      simp [he, ih hd.of_cons h]

theorem get_of_mem {d : PyDict Obj} {k v : Obj} (h : (k, v) ∈ d.items) : d.get k = v := by
  unfold get
  rw [get?_of_mem h]
  rfl

theorem same_of_get? {d : PyDict Obj} {k v : Obj} (h : d.get? k = some v) :
    ∃ e ∈ d.items, PyObject.same e.1 k = true := by
  obtain ⟨e, he, -⟩ := Option.map_eq_some_iff.mp h
  exact ⟨e, List.mem_of_find?_eq_some he, by simpa using List.find?_some he⟩

theorem setdefault_items {d : PyDict Obj} {k v : Obj}
    (h : ∀ e ∈ d.items, PyObject.same e.1 k = false) :
    (d.setdefault k v).items = d.items ++ [(k, v)] := by
  have hn : ¬ ∃ e ∈ d.items, PyObject.same e.1 k = true := by
    intro h
    obtain ⟨e, he, hs⟩ := h
    rw [h e he] at hs
    cases hs
  unfold setdefault
  rw [dif_neg hn]

end PyDict

end DCore
