import DCorePython.Asset
import DCorePython.Ownership

/-!
# Aliases

Only a name that was bound through references shares the object of another, so
the names that may share an object can be read off a program. Whatever a program
does through other names, the object keeps its value: the operations of a
transaction, say, are what was assigned, however the assigned objects change
later.
-/

namespace DCore

open Loop Call

section
variable {Ty Var : Type} {El : Ty → Type} {cls : Var → Ty} {Out : Type}

/-- The argument speaks of no object but `x`. -/
def Expr.Only (x : Var) : {α : Type} → Expr El cls α → Prop
  | _, .value _ => True
  | _, .object y _ => y = x
  | _, .apply f e => f.Only x ∧ e.Only x

namespace Session

/-- The name `x` has the object in cell `a`, which only names of `W` share. -/
structure Holds (x : Var) (a : Nat) (W : Finset Var) (s : Session El cls) : Prop where
  name : s.names x = some ⟨cls x, a, Member.self⟩
  lt : a < s.heap.length
  shared : ∀ {y r}, s.names y = some r → r.addr = a → y ∈ W

theorem Holds.mono {x : Var} {a : Nat} {W W' : Finset Var} {s : Session El cls}
    (h : s.Holds x a W) (hW : W ⊆ W') : s.Holds x a W' :=
  ⟨h.name, h.lt, fun hy ha => hW (h.shared hy ha)⟩

end Session

variable [DecidableEq Var]

namespace Statement

/-- The names that may share an object after the statement, from those that may
before it. A statement that fails leaves its name as it was, so no name goes. -/
def spread (W : Finset Var) : Statement El cls Out → Finset Var
  | bind y x path => if path.through?.isSome && x ∈ W then insert y W else W
  | _ => W

theorem subset_spread (W : Finset Var) (st : Statement El cls Out) : W ⊆ st.spread W := by
  cases st with
  | bind y x path =>
    simp only [spread]
    split
    · exact Finset.subset_insert y W
    · exact Finset.Subset.refl W
  | _ => exact Finset.Subset.refl W

/-- The statement leaves the name `x` to the object it has. -/
def Keeps (x : Var) : Statement El cls Out → Prop
  | bind y _ _ => y ≠ x
  | create y _ => y ≠ x
  | _ => True

/-- The statement does not write to an object that only names of `W` share. -/
def Spares (W : Finset Var) (st : Statement El cls Out) : Prop :=
  ∀ w, st.target? = some w → w.1 ∈ W → w.2.2.through? = none

/-- The statement, if it succeeds, gives the name `x` an object of its own. -/
def Fresh (x : Var) : Statement El cls Out → Prop
  | bind y _ path => y = x ∧ path.through? = none
  | create y _ => y = x
  | _ => False

end Statement

namespace Session

variable {x : Var} {a : Nat} {W : Finset Var} {s : Session El cls}

theorem Holds.set (h : s.Holds x a W) {y : Var} (hy : y ≠ x) {r : Ref El (cls y)}
    (hr : r.addr = a → y ∈ W) : (⟨s.heap, Names.set s.names y r⟩ : Session El cls).Holds x a W := by
  refine ⟨?_, h.lt, ?_⟩
  · simp only
    rw [Names.set_of_ne _ hy.symm, h.name]
  · intro z r' hz ha
    simp only at hz
    by_cases hzy : z = y
    · subst hzy
      rw [Names.set_self] at hz
      cases hz
      exact hr ha
    · rw [Names.set_of_ne _ hzy] at hz
      exact h.shared hz ha

theorem Holds.own (h : s.Holds x a W) {y : Var} (hy : y ≠ x) (c : El (cls y)) :
    (s.own y c).Holds x a W := by
  have hgrown : (⟨s.heap.alloc c, s.names⟩ : Session El cls).Holds x a W := by
    refine ⟨h.name, ?_, h.shared⟩
    have hlt := h.lt
    simp only [Heap.alloc, List.length_append]
    omega
  refine hgrown.set hy ?_
  intro ha
  exact absurd ha (Nat.ne_of_gt h.lt)

theorem Holds.own_self (s : Session El cls)
    (hs : ∀ {y r}, s.names y = some r → r.addr < s.heap.length) (c : El (cls x)) :
    (s.own x c).Holds x s.heap.length {x} := by
  refine ⟨Names.set_self .., by simp [Session.own, Heap.alloc], ?_⟩
  intro y r hy ha
  by_cases hyx : y = x
  · exact Finset.mem_singleton.mpr hyx
  · have hname : s.names y = some r := by
      rw [← hy]
      exact (Names.set_of_ne _ hyx _).symm
    exact absurd ha (Nat.ne_of_lt (hs hname))

theorem getElem?_own (ha : a < s.heap.length) (y : Var) (c : El (cls y)) :
    (s.own y c).heap[a]? = s.heap[a]? := List.getElem?_append_left ha

end Session

end

section
variable {Ty Var : Type} {El : Ty → Type} {cls : Var → Ty} [DecidableEq Ty]

namespace Session

variable {x : Var} {a : Nat} {W : Finset Var} {s : Session El cls}

theorem Holds.put (h : s.Holds x a W) {t u : Ty} (r : Ref El t) (p : Path El t u) (d : El u) :
    (s.put r p d).Holds x a W := by
  unfold Session.put
  cases p.through? with
  | none => exact h
  | some m => exact ⟨h.name, by simpa [Heap.length_store] using h.lt, h.shared⟩

theorem getElem?_put {t u : Ty} {r : Ref El t} {p : Path El t u} (d : El u)
    (h : r.addr = a → p.through? = none) : (s.put r p d).heap[a]? = s.heap[a]? := by
  unfold Session.put
  cases hp : p.through? with
  | none => rfl
  | some m =>
    have hm : (r.through m).addr ≠ a := by
      intro ha
      rw [h ha] at hp
      cases hp
    exact Heap.getElem?_store_of_ne hm d

theorem named_of_reach {y : Var} {t : Ty} {p : Path El (cls y) t} {r : Ref El (cls y)} {d : El t}
    (h : s.reach y p = .ok (r, d)) : s.names y = some r := by
  unfold reach at h
  cases hy : s.names y with
  | none =>
    rw [hy] at h
    cases h
  | some r' =>
    simp only [hy] at h
    cases hc : s.heap.load r' with
    | none =>
      simp only [hc] at h
      cases h
    | some c =>
      simp only [hc] at h
      cases hlook : p.look c with
      | error e =>
        rw [hlook] at h
        cases h
      | ok d' =>
        rw [hlook] at h
        cases h
        rfl

theorem look_eq_of_only {s' : Session El cls} (h : s.Holds x a W) {W' : Finset Var}
    (h' : s'.Holds x a W') (hcell : s'.heap[a]? = s.heap[a]?) :
    ∀ {α : Type} (e : Expr El cls α), e.Only x → s'.look e = s.look e
  | _, .value _, _ => rfl
  | _, .object y path, hy => by
    have hyx : y = x := hy
    subst hyx
    have hload : s'.heap.load ⟨cls y, a, Member.self⟩ =
        s.heap.load (⟨cls y, a, Member.self⟩ : Ref El (cls y)) := by
      unfold Heap.load Heap.cell?
      rw [hcell]
    unfold look reach
    simp only [h.name, h'.name, hload]
  | _, .apply f e, hfe => by
    unfold look
    rw [look_eq_of_only h h' hcell f hfe.1, look_eq_of_only h h' hcell e hfe.2]

end Session

end

section
variable {Ty Var : Type} {El : Ty → Type} {cls : Var → Ty} {Out : Type} [DecidableEq Ty]
  [DecidableEq Var]

namespace Session

variable {x : Var} {a : Nat} {W : Finset Var} {s : Session El cls}

theorem Holds.step (h : s.Holds x a W) {st : Statement El cls Out} (hst : st.Keeps x) :
    (s.ownStep st).1.Holds x a (st.spread W) ∧
      (st.Spares W → (s.ownStep st).1.heap[a]? = s.heap[a]?) := by
  have heffect := s.ownership_effect st
  generalize (s.ownStep st).1 = s' at heffect ⊢
  cases heffect with
  | none =>
    refine ⟨h.mono ?_, fun _ => rfl⟩
    exact st.subset_spread W
  | @share y x' p r d hreach =>
    have hy : y ≠ x := hst
    unfold share
    cases hp : p.through? with
    | none =>
      refine ⟨(h.own hy d).mono ((Statement.bind y x' p).subset_spread W), ?_⟩
      intro _
      exact getElem?_own h.lt y d
    | some m =>
      refine ⟨(h.mono ((Statement.bind y x' p).subset_spread W)).set hy ?_, fun _ => rfl⟩
      intro ha
      have hx' : x' ∈ W := h.shared (named_of_reach hreach) ha
      simp [Statement.spread, hp, hx']
  | own c => exact ⟨h.own hst c, fun _ => getElem?_own h.lt _ c⟩
  | @put _ x' t p r d hp hreach d' =>
    refine ⟨(h.put r p d').mono (st.subset_spread W), ?_⟩
    intro hspares
    refine getElem?_put d' ?_
    intro ha
    exact hspares _ hp (h.shared (named_of_reach hreach) ha)

end Session

theorem Session.exists_own_of_fresh {A : Session El cls} {st : Statement El cls Out} {x : Var}
    (hfresh : st.Fresh x) (hok : (A.ownStep st).2 = .ok none) : ∃ c, (A.ownStep st).1 = A.own x c := by
  cases st with
  | print e => exact hfresh.elim
  | assign y p set e => exact hfresh.elim
  | call y p method e => exact hfresh.elim
  | pass x' p y q method e => exact hfresh.elim
  | bind y x' p =>
    obtain ⟨rfl, hp⟩ := hfresh
    simp only [Session.ownStep] at hok ⊢
    cases hreach : A.reach x' p with
    | error f =>
      rw [hreach] at hok
      cases hok
    | ok a =>
      simp only [Session.orFault, Session.share, hp]
      exact ⟨a.2, rfl⟩
  | create y e =>
    obtain rfl := hfresh
    simp only [Session.ownStep] at hok ⊢
    cases hlook : A.look e with
    | error f =>
      rw [hlook] at hok
      cases hok
    | ok c => exact ⟨c, rfl⟩

theorem Session.holds_of_fresh {P : Places El} {A : Session El cls} {names : Names El cls}
    (hn : SameObjects P A names) {st : Statement El cls Out} {x : Var} (hfresh : st.Fresh x)
    (hok : (A.ownStep st).2 = .ok none) : (A.ownStep st).1.Holds x A.heap.length {x} := by
  obtain ⟨c, hown⟩ := exists_own_of_fresh hfresh hok
  rw [hown]
  refine Holds.own_self A ?_ c
  intro y r hy
  obtain ⟨-, c', -, -, hload⟩ := hn.named hy
  exact Heap.addr_lt_of_load hload

def Session.HoldsCell (x : Var) (a : Nat) (cell : Option (Sigma El)) (W : Finset Var)
    (s : Session El cls) : Prop := s.Holds x a W ∧ s.heap[a]? = cell

theorem Session.HoldsCell.step {x : Var} {a : Nat} {cell : Option (Sigma El)} (W : Finset Var)
    (s : Session El cls) (st : Statement El cls Out) (h : HoldsCell x a cell W s)
    (hst : st.Keeps x ∧ st.Spares W) :
    HoldsCell x a cell (st.spread W) ((ownership El cls Out).step s st).1 := by
  obtain ⟨hholds, hcell⟩ := h.1.step hst.1
  exact ⟨hholds, (hcell hst.2).trans h.2⟩

end

/-! ### A transaction and the operation that was put into it -/

/-- `FeeSchedule.set_fee(op, price)`, which is `const` and writes the operation.
What the chain makes of the operation is `fee`. -/
def FeeSchedule.setFee {P : Type} {F : OpClass → Type}
    (fee : FeeSchedule P → Price → Operation F → Except PyErr (Operation F)) (s : FeeSchedule P)
    (price : Price) : Call (Operation F) Unit := do
  let op ← current
  let op ← build (.ofExcept (fee s price op))
  onObj fun _ => op

section

open BoundClass

instance inhabited_sampleOperation : Inhabited (Operation (OpFields fun _ => Unit)) :=
  ⟨⟨39, .plain .transferOperation OpClass.noConfusion transferWithMemo⟩⟩

/-- One name for each class. -/
abbrev SampleStatement := Statement SampleValue (fun x : BoundClass => x) Int

/-- `op = Operation(tr)` -/
def createOperation : SampleStatement :=
  .create operation (.apply (.value fun tr : TransferOperation =>
    .ok (⟨39, .plain .transferOperation OpClass.noConfusion tr⟩ : Operation (OpFields fun _ => Unit)))
    (.object transfer .nil))

/-- `gp`, with the scale of its fees. -/
def createProperties (scale : Fin (2 ^ 32)) : SampleStatement :=
  .create globalProperties (.value ⟨⟨⟨OrderedSet.empty, scale⟩, 86400⟩, none⟩)

/-- The fee of a transfer is the scale. -/
def scaleAsFee (s : FeeSchedule Nat) (_ : Price) :
    Operation (OpFields fun _ => Unit) → Except PyErr (Operation (OpFields fun _ => Unit))
  | .mk which (.plain .transferOperation h tr) =>
    .ok (.mk which (.plain .transferOperation h { tr with fee := ⟨s.scale.val, 0⟩ }))
  | _ => .error .runtimeError

/-- `gp.parameters.current_fees.set_fee(op, price)` -/
def setFeeOfOperation : SampleStatement :=
  .pass globalProperties (.cons parameters (.cons currentFees .nil)) operation .nil
    (FeeSchedule.setFee scaleAsFee) (.value ⟨⟨1, 0⟩, ⟨1, 0⟩⟩)

/-- The schedule is a copy, but the call is not in vain. -/
example : setFeeOfOperation.lost = false := rfl

/-- `trx.operations = [op]` -/
def putOperation : SampleStatement :=
  .assign transaction .nil (fun op => Transaction.setOperations [.variant op])
    (.object operation .nil)

/-- `tr.amount = Balance(7)` -/
def changeAmount : SampleStatement :=
  .assign transfer .nil amountAttribute.set (.value (.asset ⟨7, 0⟩))

/-- `op.transfer.fee.amount` -/
def operationFee : Expr SampleValue (fun x : BoundClass => x) Int :=
  .apply (.value fun tr : TransferOperation => .ok tr.fee.amount)
    (.object operation (.cons (t := transfer) (transferAlternative fun _ => 39) .nil))

/-- `trx.operations[0].transfer.fee.amount` -/
def transactionFee : Expr SampleValue (fun x : BoundClass => x) Int :=
  .apply (.value fun tr : TransferOperation => .ok tr.fee.amount)
    (.object transaction (.cons (operations 0) (.cons (transferAlternative fun _ => 39) .nil)))

/-- `trx = Transaction()` -/
def createTransaction : SampleStatement := .create transaction (.value ⟨0, 0, 0, []⟩)

def sampleMachine := Session.machine SampleValue (fun x : BoundClass => x) Int

def shownAfter (prog : List SampleStatement) (e : Expr SampleValue (fun x : BoundClass => x) Int) :
    Except Fault (Option Int) :=
  (sampleMachine.step (sampleMachine.after (Session.empty _ _) prog) (.print e)).2

def beforeTransaction : List SampleStatement :=
  [.create transfer (.value transferWithMemo), createOperation, createProperties 11]

def behindTransaction : List SampleStatement := [changeAmount, createProperties 13, setFeeOfOperation]

theorem createTransaction_ok :
    (sampleMachine.step (sampleMachine.after (Session.empty _ _) beforeTransaction)
      createTransaction).2 = .ok none := rfl

theorem transaction_kept : ∀ st ∈ [setFeeOfOperation, putOperation] ++ behindTransaction,
    st.Keeps transaction := by
  simp [behindTransaction, putOperation, changeAmount, setFeeOfOperation, createProperties,
    Statement.Keeps]

theorem transaction_spared :
    Machine.Admits Statement.spread (fun W st => st.Spares W)
      ([setFeeOfOperation, putOperation].foldl Statement.spread {transaction})
      behindTransaction := by
  refine ⟨?_, ?_, ?_, trivial⟩
  · simp [Statement.Spares, changeAmount, Statement.target?, Statement.spread, putOperation,
      setFeeOfOperation]
  · simp [Statement.Spares, createProperties, Statement.target?]
  · simp [Statement.Spares, setFeeOfOperation, Statement.target?, Statement.spread, putOperation,
      changeAmount, createProperties]

end

end DCore
