import DCorePython.Lib.Machine
import DCorePython.WalletMethods

/-!
# Runs of wallet calls

A call of a method raises before the interfaces are asked, or asks them once.
What it asks is a function of its arguments, so what a program asks is that
function of each of its calls, whatever the interfaces answer.
-/

namespace DCore

open Loop Call

structure Request where
  api : Api
  args : List ApiArg

structure MethodCall where
  name : String
  positional : List WalletObj
  keywords : List (String × WalletObj)

def Conversion.construct {α : Type} : Conversion α → EStateM PyErr Interp α
  | .raised e => throw e
  | .built a p => do
    modify fun i => i.leave p
    pure a

def Conversion.refused {α : Type} : Conversion α → Bool
  | .raised .typeError => true
  | _ => false

def findMethod (name : String) : Option WalletMethod := walletMethods.find? fun m => m.name == name

section
variable (intToDouble : ℤ → Conversion Double) (toString : Double → Decimal)
  (keyToString : PublicKey → List UInt8)

def WalletMethod.conversions (m : WalletMethod) (objs : List WalletObj) :
    List (Conversion MethodArg) :=
  m.params.zipWith (fun p o => p.type.extract intToDouble toString keyToString o) objs

/-- Match the arguments, build them, and convert what the body converts. -/
def WalletMethod.prepare (m : WalletMethod) (c : MethodCall) :
    EStateM PyErr Interp (List ApiArg) :=
  match Parameter.bindArgs (m.params.map MethodParam.param) c.positional c.keywords with
  | none => throw .typeError
  | some objs => do
    let conversions := m.conversions intToDouble toString keyToString objs
    if conversions.any Conversion.refused then throw .typeError
    let args ← conversions.mapM Conversion.construct
    args.mapM MethodArg.convert

def onInterp {T α : Type} (c : EStateM PyErr Interp α) : Call T α := fun b =>
  match c.run b.interp with
  | .ok a i => .ok a { b with interp := i }
  | .error e i => .error e { b with interp := i }

variable {R : Type} (reply : List Request → Request → Except PyErr R)

/-- Ask the interface; the answer depends on all that it was asked before. -/
def ask (r : Request) : Call (List Request) R := fun b =>
  ended (reply b.obj r) { b with obj := b.obj ++ [r] }

def perform (c : MethodCall) : Call (List Request) R :=
  match findMethod c.name with
  | none => throw .attributeError
  | some m => do
    let args ← onInterp (m.prepare intToDouble toString keyToString c)
    ask reply ⟨m.api, args⟩

def walletMachine : Machine (List Request) MethodCall (Except Fault R) where
  step asked c := settle ((lift (perform intToDouble toString keyToString reply c)).run ⟨{}, asked⟩)

/-- What a call asks the interfaces, if its arguments convert. -/
def request? (c : MethodCall) : Option Request :=
  match findMethod c.name with
  | none => none
  | some m =>
    match (m.prepare intToDouble toString keyToString c).run {} with
    | .ok args _ => some ⟨m.api, args⟩
    | .error _ _ => none

/-! ## Runs -/

theorem onInterp_run_ok {T α : Type} {c : EStateM PyErr Interp α} {b : Bound T} {a : α}
    {i : Interp} (h : c.run b.interp = .ok a i) :
    (onInterp c : Call T α).run b = .ok a { b with interp := i } := by
  show onInterp c b = _
  unfold onInterp
  rw [h]

theorem onInterp_run_error {T α : Type} {c : EStateM PyErr Interp α} {b : Bound T} {e : PyErr}
    {i : Interp} (h : c.run b.interp = .error e i) :
    (onInterp c : Call T α).run b = .error e { b with interp := i } := by
  show onInterp c b = _
  unfold onInterp
  rw [h]

section
variable {c : MethodCall} {m : WalletMethod} {i i' : Interp} (asked : List Request)

theorem perform_run_ok (hm : findMethod c.name = some m) {args : List ApiArg}
    (hargs : (m.prepare intToDouble toString keyToString c).run i = .ok args i') :
    (perform intToDouble toString keyToString reply c).run ⟨i, asked⟩ =
      ended (reply asked ⟨m.api, args⟩) ⟨i', asked ++ [⟨m.api, args⟩]⟩ := by
  unfold perform
  rw [hm]
  simp only
  rw [run_bind_ok (onInterp_run_ok hargs)]
  rfl

theorem perform_run_error (hm : findMethod c.name = some m) {e : PyErr}
    (hargs : (m.prepare intToDouble toString keyToString c).run i = .error e i') :
    (perform intToDouble toString keyToString reply c).run ⟨i, asked⟩ = .error e ⟨i', asked⟩ := by
  unfold perform
  rw [hm]
  simp only
  rw [run_bind_error (onInterp_run_error hargs)]

end

/-- When all arguments match and leave nothing, what is left is what the body
converts. -/
theorem prepare_run_built {m : WalletMethod} {c : MethodCall} {objs : List WalletObj}
    {args : List MethodArg} (i : Interp)
    (hobjs : Parameter.bindArgs (m.params.map MethodParam.param) c.positional c.keywords = some objs)
    (hargs : m.conversions intToDouble toString keyToString objs = args.map fun a => .built a none) :
    (m.prepare intToDouble toString keyToString c).run i = (args.mapM MethodArg.convert).run i := by
  have hrefused : ((args.map fun a => Conversion.built a none).any Conversion.refused) = false := by
    simp [Conversion.refused]
  have hbuild : ((args.map fun a => Conversion.built a none).mapM Conversion.construct).run i =
      .ok args i := by
    clear hargs hrefused
    induction args with
    | nil => rfl
    | cons a args ih =>
      have ha : (Conversion.built a none).construct.run i = .ok a i := rfl
      rw [List.map_cons, List.mapM_cons, run_bind_ok ha, run_bind_ok ih]
      rfl
  unfold WalletMethod.prepare
  rw [hobjs]
  simp only [hargs, hrefused]
  exact run_bind_ok hbuild

theorem convert_run_ready (a : ApiArg) (i : Interp) :
    (MethodArg.ready a).convert.run i = .ok a i := rfl

theorem mapM_convert_ready (args : List ApiArg) (i : Interp) :
    ((args.map MethodArg.ready).mapM MethodArg.convert).run i = .ok args i := by
  induction args with
  | nil => rfl
  | cons a args ih =>
    rw [List.map_cons, List.mapM_cons, run_bind_ok (convert_run_ready a i), run_bind_ok ih]
    rfl

theorem prepare_run_ready {m : WalletMethod} {c : MethodCall} {objs : List WalletObj}
    {args : List ApiArg} (i : Interp)
    (hobjs : Parameter.bindArgs (m.params.map MethodParam.param) c.positional c.keywords = some objs)
    (hargs : m.conversions intToDouble toString keyToString objs =
      args.map fun a => .built (.ready a) none) :
    (m.prepare intToDouble toString keyToString c).run i = .ok args i := by
  have hready : m.conversions intToDouble toString keyToString objs =
      (args.map MethodArg.ready).map fun a => .built a none := by
    rw [hargs, List.map_map]
    rfl
  rw [prepare_run_built intToDouble toString keyToString i hobjs hready, mapM_convert_ready]

theorem left_ended {T α : Type} (x : Except PyErr α) (b : Bound T) : left (ended x b) = b.obj := by
  cases x <;> rfl

/-- A call asks once or not at all, whatever comes of it. -/
theorem walletMachine_step (asked : List Request) (c : MethodCall) :
    ((walletMachine intToDouble toString keyToString reply).step asked c).1 =
      asked ++ (request? intToDouble toString keyToString c).toList := by
  unfold walletMachine
  rw [settle_lift_fst]
  unfold request?
  cases hm : findMethod c.name with
  | none =>
    unfold perform
    rw [hm]
    exact (List.append_nil _).symm
  | some m =>
    simp only
    cases hargs : (m.prepare intToDouble toString keyToString c).run {} with
    | error e i =>
      rw [perform_run_error intToDouble toString keyToString reply asked hm hargs]
      exact (List.append_nil _).symm
    | ok args i =>
      rw [perform_run_ok intToDouble toString keyToString reply asked hm hargs, left_ended]
      rfl

theorem walletMachine_after :
    ∀ (prog : List MethodCall) (asked : List Request),
      (walletMachine intToDouble toString keyToString reply).after asked prog =
        asked ++ prog.filterMap (request? intToDouble toString keyToString)
  | [], asked => (List.append_nil asked).symm
  | c :: prog, asked => by
    rw [Machine.after_cons, walletMachine_step, walletMachine_after prog, List.append_assoc]
    congr 1
    cases hc : request? intToDouble toString keyToString c with
    | none => rw [List.filterMap_cons_none hc]; rfl
    | some r => rw [List.filterMap_cons_some hc]; rfl

/-! ## What is asked -/

def MethodArg.value? : MethodArg → Option ApiArg
  | .ready a => some a
  | .vector elem l =>
    if l.all (convertible elem.extract) then some (.vector (values elem.extract l)) else none
  | .stringSet l =>
    if l.all (convertible WalletItem.extractString) then
      some (.stringSet (OrderedSet.ofBack _ (values WalletItem.extractString l)))
    else none
  | .optionalString o =>
    if PyNone.isNone o then some (.optionalString none)
    else o.extractString.value?.map fun bs => .optionalString (some bs)

def WalletMethod.arguments? (m : WalletMethod) (objs : List WalletObj) : Option (List ApiArg) := do
  let args ← (m.conversions intToDouble toString keyToString objs).mapM Conversion.value?
  args.mapM MethodArg.value?

def requestOf (c : MethodCall) : Option Request := do
  let m ← findMethod c.name
  let objs ← Parameter.bindArgs (m.params.map MethodParam.param) c.positional c.keywords
  let args ← m.arguments? intToDouble toString keyToString objs
  return ⟨m.api, args⟩

/-- The computation gives the value, or raises when there is none, whatever the
interpreter's state. -/
def Gives {α : Type} (c : EStateM PyErr Interp α) (x : Option α) : Prop :=
  ∀ i, ∃ y i', c.run i = ended y i' ∧ x = y.toOption

namespace Gives

variable {α β : Type}

theorem pure (a : α) : Gives (Pure.pure a) (some a) := fun i => ⟨.ok a, i, rfl, rfl⟩

theorem throw (e : PyErr) : Gives (MonadExcept.throw e) (none : Option α) :=
  fun i => ⟨.error e, i, rfl, rfl⟩

theorem bind {c : EStateM PyErr Interp α} {f : α → EStateM PyErr Interp β} {x : Option α}
    {y : α → Option β} (hc : Gives c x) (hf : ∀ a, Gives (f a) (y a)) :
    Gives (c >>= f) (x >>= y) := by
  intro i
  obtain ⟨r, i', hrun, rfl⟩ := hc i
  cases r with
  | error e => exact ⟨.error e, i', run_bind_error hrun, rfl⟩
  | ok a =>
    obtain ⟨r', i'', hrun', hy⟩ := hf a i'
    exact ⟨r', i'', by rw [run_bind_ok hrun, hrun'], hy⟩

theorem mapM {f : α → EStateM PyErr Interp β} {g : α → Option β} (h : ∀ a, Gives (f a) (g a)) :
    ∀ l : List α, Gives (l.mapM f) (l.mapM g)
  | [] => by
    rw [List.mapM_nil, List.mapM_nil]
    exact .pure []
  | a :: l => by
    rw [List.mapM_cons, List.mapM_cons]
    exact (h a).bind fun b => (mapM h l).bind fun r => .pure (b :: r)

theorem map {c : EStateM PyErr Interp α} {x : Option α} (h : Gives c x) (f : α → β) :
    Gives (f <$> c) (x.map f) := by
  rw [← bind_pure_comp, Option.map_eq_bind]
  exact h.bind fun a => .pure (f a)

end Gives

theorem construct_gives {α : Type} (c : Conversion α) : Gives c.construct c.value? := by
  intro i
  cases c with
  | raised e => exact ⟨.error e, i, rfl, rfl⟩
  | built a p => exact ⟨.ok a, i.leave p, rfl, rfl⟩

theorem vectorFromList_gives {Obj α : Type} [Inhabited α] (extract : Obj → Conversion α)
    (l : List Obj) : Gives (vectorFromList extract l)
      (if l.all (convertible extract) then some (values extract l) else none) := by
  intro i
  by_cases hl : l.all (convertible extract) = true
  · rw [if_pos hl]
    exact ⟨.ok _, _, vectorFromList_run extract (List.all_eq_true.mp hl) i, rfl⟩
  · rw [if_neg hl]
    obtain ⟨e, i', hrun⟩ := vectorFromList_run_error extract (by simpa using hl) i
    exact ⟨.error e, i', hrun, rfl⟩

theorem setFromList_gives (l : List WalletItem) : Gives (setFromList l)
    (if l.all (convertible WalletItem.extractString) then
      some (OrderedSet.ofBack _ (values WalletItem.extractString l)) else none) := by
  intro i
  by_cases hl : l.all (convertible WalletItem.extractString) = true
  · rw [if_pos hl]
    have hrun := decodeSet_run WalletItem.extractString Member.self (List.all_eq_true.mp hl)
      ⟨i, (OrderedSet.empty : StringSet)⟩
    exact ⟨.ok _, _, withLocal_run hrun, rfl⟩
  · rw [if_neg hl]
    have hfail : ∃ o ∈ l, convertible WalletItem.extractString o = false := by simpa using hl
    obtain ⟨e, i', hrun⟩ := decodeSet_failed WalletItem.extractString Member.self hfail
      ⟨i, (OrderedSet.empty : StringSet)⟩
    exact ⟨.error e, i', withLocal_run_error hrun, rfl⟩

theorem convert_run_ok {o : WalletObj} {i : Interp} {x : Option (List UInt8)} {b : Bound Unit}
    (h : (decodeOptionalValue WalletObj.extractString o : Call Unit _).run ⟨i, ()⟩ = .ok x b) :
    (MethodArg.optionalString o).convert.run i = .ok (.optionalString x) b.interp := by
  show MethodArg.convert _ i = _
  unfold MethodArg.convert
  simp only [h]

theorem convert_run_error {o : WalletObj} {i : Interp} {e : PyErr} {b : Bound Unit}
    (h : (decodeOptionalValue WalletObj.extractString o : Call Unit _).run ⟨i, ()⟩ = .error e b) :
    (MethodArg.optionalString o).convert.run i = .error e b.interp := by
  show MethodArg.convert _ i = _
  unfold MethodArg.convert
  simp only [h]

theorem convert_gives (arg : MethodArg) : Gives arg.convert arg.value? := by
  cases arg with
  | ready a => exact .pure a
  | vector elem l =>
    have h := (vectorFromList_gives elem.extract l).map ApiArg.vector
    rwa [apply_ite (Option.map ApiArg.vector)] at h
  | stringSet l =>
    have h := (setFromList_gives l).map ApiArg.stringSet
    rwa [apply_ite (Option.map ApiArg.stringSet)] at h
  | optionalString o =>
    intro i
    simp only [MethodArg.value?]
    by_cases ho : PyNone.isNone o = true
    · have hrun : (decodeOptionalValue WalletObj.extractString o : Call Unit _).run ⟨i, ()⟩ =
          .ok none ⟨i, ()⟩ := by
        unfold decodeOptionalValue
        rw [if_pos ho]
        rfl
      rw [if_pos ho]
      exact ⟨.ok _, i, convert_run_ok hrun, rfl⟩
    · rw [if_neg ho]
      cases hx : o.extractString with
      | raised e =>
        have hrun : (decodeOptionalValue WalletObj.extractString o : Call Unit _).run ⟨i, ()⟩ =
            .error e ⟨i, ()⟩ := by
          unfold decodeOptionalValue
          rw [if_neg ho, hx]
          rfl
        exact ⟨.error e, i, convert_run_error hrun, rfl⟩
      | built bs p =>
        have hrun : (decodeOptionalValue WalletObj.extractString o : Call Unit _).run ⟨i, ()⟩ =
            .ok (some bs) ⟨i.leave p, ()⟩ := by
          unfold decodeOptionalValue
          rw [if_neg ho, hx]
          rfl
        exact ⟨.ok _, i.leave p, convert_run_ok hrun, rfl⟩

theorem mapM_value?_eq_none {α : Type} :
    ∀ {l : List (Conversion α)}, l.any Conversion.refused = true → l.mapM Conversion.value? = none
  | [], h => by cases h
  | c :: l, h => by
    rw [List.mapM_cons]
    rw [List.any_cons, Bool.or_eq_true] at h
    rcases h with h | h
    · have hc : c.value? = none := by
        cases c with
        | raised e => rfl
        | built a p => cases h
      rw [hc]
      rfl
    · rw [mapM_value?_eq_none h]
      cases c.value? <;> rfl

theorem prepare_gives (m : WalletMethod) (c : MethodCall) :
    Gives (m.prepare intToDouble toString keyToString c)
      ((Parameter.bindArgs (m.params.map MethodParam.param) c.positional c.keywords).bind
        (m.arguments? intToDouble toString keyToString)) := by
  unfold WalletMethod.prepare WalletMethod.arguments?
  cases Parameter.bindArgs (m.params.map MethodParam.param) c.positional c.keywords with
  | none => exact .throw .typeError
  | some objs =>
    have hbuild := (Gives.mapM construct_gives (m.conversions intToDouble toString keyToString objs)).bind
      (Gives.mapM convert_gives)
    simp only [Option.bind_some]
    by_cases hrefused : ((m.conversions intToDouble toString keyToString objs).any
        Conversion.refused) = true
    · rw [if_pos hrefused, mapM_value?_eq_none hrefused]
      exact (Gives.throw .typeError).bind fun _ => hbuild
    · rw [if_neg hrefused]
      exact hbuild

theorem request?_eq (c : MethodCall) :
    request? intToDouble toString keyToString c = requestOf intToDouble toString keyToString c := by
  unfold request? requestOf
  cases findMethod c.name with
  | none => rfl
  | some m =>
    obtain ⟨y, i, hrun, hy⟩ := prepare_gives intToDouble toString keyToString m c {}
    have hspec : (do
        let objs ← Parameter.bindArgs (m.params.map MethodParam.param) c.positional c.keywords
        let args ← m.arguments? intToDouble toString keyToString objs
        return (⟨m.api, args⟩ : Request)) = y.toOption.map fun args => ⟨m.api, args⟩ := by
      rw [← hy]
      cases Parameter.bindArgs (m.params.map MethodParam.param) c.positional c.keywords with
      | none => rfl
      | some objs =>
        simp only [Option.bind_eq_bind, Option.bind_some]
        cases m.arguments? intToDouble toString keyToString objs <;> rfl
    simp only [Option.bind_eq_bind, Option.bind_some] at hspec ⊢
    rw [hspec, hrun]
    cases y <;> rfl

/-- What a program asks the interfaces are the requests of its calls, in order:
each call asks once, or not at all when its arguments do not convert, and what
the interfaces answer or raise changes nothing of it. -/
theorem asked_once_each (prog : List MethodCall) :
    (walletMachine intToDouble toString keyToString reply).after [] prog =
      prog.filterMap (requestOf intToDouble toString keyToString) := by
  rw [walletMachine_after, List.nil_append]
  congr 1
  funext c
  exact request?_eq intToDouble toString keyToString c

end

end DCore
