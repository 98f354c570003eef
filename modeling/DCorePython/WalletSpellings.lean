import DCorePython.WalletRuns

/-!
# Spellings of wallet calls

Python programs give a method its arguments by position or by name, the names in
any order, and leave out those that have defaults. A program cannot tell one of
these spellings from another, and calls that give a method the same arguments
are spellings of each other.
-/

namespace DCore

/-- The same call, or calls of one method that can be turned into each other by
moving arguments between positions and keywords, by permuting keywords and by
writing defaults out. -/
def Respelled (c c' : MethodCall) : Prop :=
  c = c' ∨ c.name = c'.name ∧ ∃ m, findMethod c.name = some m ∧
    Relation.EqvGen (Parameter.Respells (m.params.map MethodParam.param))
      (c.positional, c.keywords) (c'.positional, c'.keywords)

theorem paramNames_nodup :
    ∀ m ∈ walletMethods, ((m.params.map MethodParam.param).map Parameter.name).Nodup := by
  decide

theorem nodup_of_findMethod {name : String} {m : WalletMethod} (h : findMethod name = some m) :
    ((m.params.map MethodParam.param).map Parameter.name).Nodup :=
  paramNames_nodup m (List.mem_of_find?_eq_some h)

section
variable (intToDouble : ℤ → Conversion Double) (toString : Double → Decimal)
  (keyToString : PublicKey → List UInt8)

theorem prepare_eq_of_bindArgs {m : WalletMethod} {c c' : MethodCall}
    (h : Parameter.bindArgs (m.params.map MethodParam.param) c.positional c.keywords =
      Parameter.bindArgs (m.params.map MethodParam.param) c'.positional c'.keywords) :
    m.prepare intToDouble toString keyToString c = m.prepare intToDouble toString keyToString c' := by
  unfold WalletMethod.prepare
  rw [h]

variable {R : Type} (reply : List Request → Request → Except PyErr R)

theorem perform_eq_of_respelled {c c' : MethodCall} (h : Respelled c c') :
    perform intToDouble toString keyToString reply c =
      perform intToDouble toString keyToString reply c' := by
  rcases h with rfl | ⟨hname, m, hm, hargs⟩
  · rfl
  · have hbind := Parameter.bindArgs_eq_of_eqvGen (nodup_of_findMethod hm) hargs
    unfold perform
    rw [← hname, hm]
    simp only [prepare_eq_of_bindArgs intToDouble toString keyToString hbind]

/-- Programs whose calls are spelled in different ways run alike: the interfaces
are asked the same, and each statement gives or raises the same. The spellings
of a call that matches are all calls that give the method the same arguments. -/
theorem spelling_unobservable :
    (∀ prog prog' : List MethodCall, List.Forall₂ Respelled prog prog' → ∀ asked,
      (walletMachine intToDouble toString keyToString reply).after asked prog =
        (walletMachine intToDouble toString keyToString reply).after asked prog' ∧
      (walletMachine intToDouble toString keyToString reply).outputs asked prog =
        (walletMachine intToDouble toString keyToString reply).outputs asked prog') ∧
    ∀ (c c' : MethodCall) (m : WalletMethod) (objs : List WalletObj),
      findMethod c.name = some m → c.name = c'.name →
      (c.keywords.map Prod.fst).Nodup → (c'.keywords.map Prod.fst).Nodup →
      Parameter.bindArgs (m.params.map MethodParam.param) c.positional c.keywords = some objs →
      (Respelled c c' ↔
        Parameter.bindArgs (m.params.map MethodParam.param) c'.positional c'.keywords =
          some objs) := by
  constructor
  · intro prog prog' h asked
    refine Machine.run_congr _ (h.imp ?_) asked
    intro c c' hspell asked
    simp only [walletMachine, perform_eq_of_respelled intToDouble toString keyToString reply hspell]
  · intro c c' m objs hm hname hkw hkw' hobjs
    rw [← Parameter.eqvGen_iff_bindArgs (nodup_of_findMethod hm) hkw hkw' hobjs]
    constructor
    · rintro (rfl | ⟨-, m', hm', hargs⟩)
      · exact .refl _
      · cases hm.symm.trans hm'
        exact hargs
    · intro hargs
      exact .inr ⟨hname, m, hm, hargs⟩

end

/-! ### A proxy taken back -/

section

def alice : WalletObj := .item (.py (.str ("alice".toList.map Text.ofChar)))

/-- `wallet.set_voting_proxy('alice', None)` -/
def proxyByPosition : MethodCall := ⟨"set_voting_proxy", [alice, .item (.py .none)], []⟩

/-- `wallet.set_voting_proxy(broadcast=False, voting_account=None, account='alice')` -/
def proxyByName : MethodCall :=
  ⟨"set_voting_proxy", [], [("broadcast", .item (.py (.bool false))),
    ("voting_account", .item (.py .none)), ("account", alice)]⟩

theorem spelling_unobservable_proxy :
    (walletMachine (fun _ => .raised .overflowError) (fun _ => ⟨0, 0⟩) (fun _ => [])
      fun _ _ => (.ok () : Except PyErr Unit)).after [] [proxyByPosition] =
    (walletMachine (fun _ => .raised .overflowError) (fun _ => ⟨0, 0⟩) (fun _ => [])
      fun _ _ => (.ok () : Except PyErr Unit)).after [] [proxyByName] := by
  obtain ⟨hrun, hspell⟩ := spelling_unobservable (fun _ => .raised .overflowError)
    (fun _ => ⟨0, 0⟩) (fun _ => []) fun _ _ => (.ok () : Except PyErr Unit)
  have hproxy : Respelled proxyByPosition proxyByName :=
    (hspell proxyByPosition proxyByName _ [alice, .item (.py .none), .item (.py (.bool false))]
      rfl rfl (by decide) (by decide) rfl).mpr rfl
  exact (hrun [proxyByPosition] [proxyByName] (.cons hproxy .nil) []).1

end

end DCore
