import DCorePython.Aliases
import DCorePython.Signing

/-!
# Scripts that broadcast

A script makes a transaction, works on it by assignments and calls, and hands it
to the wallet; in between it does what it likes with other objects. As long as
it makes no second name for the transaction, what is broadcast is what its own
statements, with the arguments they had then, make of the new transaction.
-/

namespace DCore

open Loop Call

section
variable {Ty Var : Type} {El : Ty → Type} {cls : Var → Ty} {Out : Type} {x : Var}

/-- The statement leaves the object of `x` and shares it with no other name. -/
def Statement.Avoids (x : Var) : Statement El cls Out → Prop
  | print _ => True
  | bind y x' p => y ≠ x ∧ (x' = x → p.through? = none)
  | create y _ => y ≠ x
  | assign y p _ _ => y = x → p.through? = none
  | call y p _ _ => y = x → p.through? = none
  | pass _ _ y q _ _ => y = x → q.through? = none

/-- `x.method(e)` or `x.attribute = e`, or a statement that is not about `x`. The
name has an object, so that it does not matter which of the two is evaluated
first. -/
inductive ScriptStatement (El : Ty → Type) (cls : Var → Ty) (Out : Type) (x : Var) (α : Type) :
    Type 1
  | onObject (e : Expr El cls α)
  | other (st : Statement El cls Out) (h : st.Avoids x)

variable {α : Type} (method : α → Call (El (cls x)) Unit)

def ScriptStatement.toStatement : ScriptStatement El cls Out x α → Statement El cls Out
  | onObject e => .call x .nil method e
  | other st _ => st

/-- What calls with the arguments `args` make of the object. -/
def applyAll (args : List α) (c : El (cls x)) : El (cls x) :=
  args.foldl (fun c v => left ((method v).run ⟨{}, c⟩)) c

theorem keeps_of_avoids {st : Statement El cls Out} (h : st.Avoids x) : st.Keeps x := by
  cases st with
  | bind y x' p => exact h.1
  | create y e => exact h
  | _ => trivial

theorem spares_of_avoids {st : Statement El cls Out} (h : st.Avoids x) : st.Spares {x} := by
  intro w hw hx
  cases st <;> cases hw
  · exact h (Finset.mem_singleton.mp hx)
  · exact h (Finset.mem_singleton.mp hx)
  · exact h (Finset.mem_singleton.mp hx)

theorem spread_of_avoids [DecidableEq Var] {st : Statement El cls Out} (h : st.Avoids x) :
    st.spread {x} = {x} := by
  cases st with
  | bind y x' p =>
    simp only [Statement.spread]
    rw [if_neg]
    intro hc
    simp only [Finset.mem_singleton, Bool.and_eq_true, decide_eq_true_eq] at hc
    rw [h.2 hc.2] at hc
    cases hc.1
  | _ => rfl

variable [DecidableEq Ty]

/-- The arguments that the statement calls the method with: one, or none if it
cannot be evaluated. -/
def ScriptStatement.argument (s : Session El cls) : ScriptStatement El cls Out x α → List α
  | onObject e => (settle ((e.eval s.names).run ⟨{}, s.heap⟩)).2.toOption.toList
  | other _ _ => []

def ScriptStatement.given (s : Session El cls) : ScriptStatement El cls Out x α → List α
  | onObject e => (s.look e).toOption.toList
  | other _ _ => []

namespace Session

/-- `x` has the object in cell `a`, which no other name shares, and `c` is its
value. -/
structure Sole (s : Session El cls) (x : Var) (a : Nat) (c : El (cls x)) : Prop where
  holds : s.Holds x a {x}
  cell : s.heap[a]? = some ⟨cls x, c⟩

variable {s : Session El cls} {a : Nat} {c : El (cls x)}

theorem Sole.reach_nil (h : s.Sole x a c) :
    s.reach x .nil = .ok (⟨cls x, a, Member.self⟩, c) := by
  have hload : s.heap.load ⟨cls x, a, Member.self⟩ = some c :=
    Heap.load_eq_some_iff.mpr ⟨c, h.cell, rfl⟩
  unfold reach
  simp only [h.holds.name, hload]
  rfl

theorem Sole.put (h : s.Sole x a c) (d : El (cls x)) :
    (s.put ⟨cls x, a, Member.self⟩ (.nil : Path El (cls x) (cls x)) d).Sole x a d := by
  exact ⟨h.holds.put _ _ d, Heap.getElem?_store h.cell d⟩

theorem Sole.look (h : s.Sole x a c) (f : El (cls x) → Except PyErr Out) :
    s.look (.apply (.value f) (.object x .nil)) = toFault (f c) := by
  simp only [Session.look, h.reach_nil]
  rfl

variable [DecidableEq Var]

theorem Sole.own_self {P : Places El} {names : Names El cls} (hn : SameObjects P s names)
    (c : El (cls x)) : (s.own x c).Sole x s.heap.length c := by
  refine ⟨Holds.own_self s ?_ c, by simp [Session.own, Heap.alloc]⟩
  intro y r hy
  obtain ⟨-, c', -, -, hload⟩ := hn.named hy
  exact Heap.addr_lt_of_load hload

theorem Sole.avoids (h : s.Sole x a c) {st : Statement El cls Out} (hst : st.Avoids x) :
    (s.ownStep st).1.Sole x a c := by
  obtain ⟨hholds, hcell⟩ := h.holds.step (keeps_of_avoids hst)
  rw [spread_of_avoids hst] at hholds
  exact ⟨hholds, (hcell (spares_of_avoids hst)).trans h.cell⟩

theorem Sole.onObject (h : s.Sole x a c) (e : Expr El cls α) :
    (s.ownStep ((ScriptStatement.onObject e : ScriptStatement El cls Out x α).toStatement
      method)).1.Sole x a (applyAll method (s.look e).toOption.toList c) := by
  unfold ScriptStatement.toStatement
  simp only [Session.ownStep, h.reach_nil, Session.orFault]
  cases s.look e with
  | error f => exact h
  | ok v =>
    simp only [Session.write, settle_lift_fst]
    exact h.put _

theorem Sole.step (h : s.Sole x a c) (st : ScriptStatement El cls Out x α) :
    (s.ownStep (st.toStatement method)).1.Sole x a (applyAll method (st.given s) c) := by
  cases st with
  | onObject e => exact h.onObject method e
  | other st hst => exact h.avoids hst

theorem Sole.run : ∀ (script : List (ScriptStatement El cls Out x α)) {s : Session El cls}
    {c : El (cls x)}, s.Sole x a c →
    ((ownership El cls Out).after s (script.map (·.toStatement method))).Sole x a
      (applyAll method (Machine.emitted
        (fun s st => (s.ownStep (st.toStatement method)).1) (fun s st => st.given s) s script) c)
  | [], _, _, h => h
  | st :: script, s, c, h => by
    rw [Machine.emitted, applyAll, List.foldl_append]
    exact Sole.run script (h.step method st)

end Session

section
variable [DecidableEq Var]

/-- The arguments that the script calls the method with when it runs from `s`. -/
def arguments (s : Session El cls) (script : List (ScriptStatement El cls Out x α)) : List α :=
  Machine.emitted (fun s st => ((Session.machine El cls Out).step s (st.toStatement method)).1)
    (fun s st => st.argument s) s script

theorem arguments_eq {P : Places El} {A s : Session El cls} (h : Represents P A s)
    (script : List (ScriptStatement El cls Out x α)) :
    arguments method s script = Machine.emitted
      (fun s st => (s.ownStep (st.toStatement method)).1) (fun s st => st.given s) A script := by
  refine Machine.emitted_eq_of_related (R := fun s A => ∃ P, Represents P A s) ?_ script ⟨P, h⟩
  rintro s A st ⟨P, h⟩
  refine ⟨?_, (machine_simulates El cls Out s A _ ⟨P, h⟩).2⟩
  cases st with
  | other st hst => rfl
  | onObject e =>
    obtain ⟨cells, hsettle⟩ := (eval_yields e h.1 h.2 (b := ⟨{}, s.heap⟩)).settle
    simp only [ScriptStatement.argument, ScriptStatement.given, hsettle]

/-- An object that a script makes and calls a method of shows what the calls
make of it, with the arguments that they had. -/
theorem print_after_script (pre : List (Statement El cls Out)) (c : El (cls x))
    (script : List (ScriptStatement El cls Out x α)) (f : El (cls x) → Except PyErr Out) :
    ((Session.machine El cls Out).step ((Session.machine El cls Out).after (Session.empty El cls)
        (pre ++ .create x (.value c) :: script.map (·.toStatement method)))
      (.print (.apply (.value f) (.object x .nil)))).2 =
    (toFault (f (applyAll method (arguments method
      ((Session.machine El cls Out).after (Session.empty El cls) (pre ++ [.create x (.value c)]))
      script) c))).map some := by
  have hsim := machine_simulates El cls Out
  obtain ⟨P, hpre⟩ := represents_after pre
  obtain ⟨P', hcreate⟩ := represents_after (pre ++ [.create x (.value c)])
  obtain ⟨a, hsole⟩ : ∃ a, ((Session.ownership El cls Out).after (Session.empty El cls)
      (pre ++ [.create x (.value c)])).Sole x a c := by
    rw [Machine.after_append]
    exact ⟨_, Session.Sole.own_self hpre.2 c⟩
  have hrun := hsole.run method script
  rw [← arguments_eq method hcreate script] at hrun
  rw [List.append_cons, Machine.after_append, (hsim _ _ _ (hsim.after _ ⟨P', hcreate⟩)).1]
  exact congrArg (Except.map some) (hrun.look f)

end

end

/-! ## Transactions -/

section
variable {F : OpClass → Type} {Key ChainId Digest BlockId Sig Ty Var : Type}

/-- Signed transactions beside the objects of a script's other classes. -/
def WithTransaction (F : OpClass → Type) (Sig : Type) (E : Ty → Type) : Option Ty → Type
  | none => SignedTransaction F Sig
  | some t => E t

/-- `trx` beside the script's other names, of which some may have transactions
too. -/
def withTrx (cls : Var → Option Ty) : Option Var → Option Ty
  | none => none
  | some y => cls y

abbrev TrxStatement (F : OpClass → Type) (Key ChainId BlockId Sig : Type) (E : Ty → Type)
    (cls : Var → Option Ty) (Out : Type) :=
  ScriptStatement (WithTransaction F Sig E) (withTrx cls) Out none
    (SigningStatement F Key ChainId BlockId Sig)

variable (S : SigningScheme F Key ChainId Digest BlockId Sig) [Inhabited (Operation F)]
  [Inhabited Sig]

def SigningStatement.call (st : SigningStatement F Key ChainId BlockId Sig) :
    Call (SignedTransaction F Sig) Unit := do
  let _ ← st.exec S
  return ()

theorem SigningStatement.applyAll_call {E : Ty → Type} {cls : Var → Option Ty} :
    ∀ (args : List (SigningStatement F Key ChainId BlockId Sig)) (trx : SignedTransaction F Sig),
      @applyAll _ _ (WithTransaction F Sig E) (withTrx cls) none _ (call S) args trx =
        (machine S).after trx args
  | [], _ => rfl
  | st :: args, trx => by
    have hstep : left ((SigningStatement.call S st).run ⟨{}, trx⟩) = ((machine S).step trx st).1 := by
      unfold machine SigningStatement.call
      rw [settle_lift_fst, left_bind_pure _ fun _ => ()]
    rw [Machine.after_cons, ← hstep, ← applyAll_call args]
    rfl

end

/-! ### A transfer -/

section

open BoundClass

abbrev ScriptValue : Option BoundClass → Type :=
  WithTransaction (OpFields fun _ => Unit) (Nat × Fin (2 ^ 32) × Nat) SampleValue

/-- What is printed: the fees of the transfers, and the keys of the signatures. -/
abbrev FeesAndKeys := List Int × List Nat

abbrev SampleScript := List (TrxStatement (OpFields fun _ => Unit) Nat Nat Nat
  (Nat × Fin (2 ^ 32) × Nat) SampleValue (fun x : BoundClass => some x) FeesAndKeys)

abbrev SampleScriptStatement := Statement ScriptValue (withTrx fun x : BoundClass => some x) FeesAndKeys

def createScriptOperation : SampleScriptStatement :=
  .create (some operation)
    (.value ⟨39, .plain .transferOperation OpClass.noConfusion transferWithMemo⟩)

def createScriptProperties (scale : Fin (2 ^ 32)) : SampleScriptStatement :=
  .create (some globalProperties) (.value ⟨⟨⟨OrderedSet.empty, scale⟩, 86400⟩, none⟩)

/-- `parameters.current_fees` -/
def currentFeesPath : Path ScriptValue (some globalProperties) (some feeSchedule) :=
  .cons (t := some chainParameters) (.readwrite GlobalPropertyObject.parametersMember)
    (.cons (t := some feeSchedule) (.smartRef ChainParameters.currentFeesMember) .nil)

/-- `gp.parameters.current_fees.set_fee(op, price)` -/
def setScriptFee : SampleScriptStatement :=
  .pass (some globalProperties) currentFeesPath (some operation) .nil
    (FeeSchedule.setFee scaleAsFee) (.value ⟨⟨1, 0⟩, ⟨1, 0⟩⟩)

/-- The fee of the operation is set in front of the assignment, and set again
behind it, and `trx.exp` is not there. -/
def transferScript : SampleScript :=
  [.onObject (.value (.assign .expiration (.item (.timePointSec 30)))),
    .other setScriptFee fun h => absurd h (Option.some_ne_none operation),
    .onObject (.apply (.value fun op => .ok (.assign .operations (.list [.operation (.variant op)])))
      (.object (some operation) .nil)),
    .other (createScriptProperties 13) (Option.some_ne_none globalProperties),
    .other setScriptFee fun h => absurd h (Option.some_ne_none operation),
    .onObject (.apply (.value fun _ : Unit => .error .attributeError) (.value ())),
    .onObject (.value (.sign 1 7))]

def feesAndKeys (trx : SignedTransaction (OpFields fun _ => Unit) (Nat × Fin (2 ^ 32) × Nat)) :
    Except PyErr FeesAndKeys :=
  .ok (trx.operations.filterMap fun op => (getTransfer op).map fun tr => tr.fee.amount,
    trx.signatures.map Prod.fst)

def scheduleFirst : List SampleScriptStatement := [createScriptOperation, createScriptProperties 11]

end

end DCore
