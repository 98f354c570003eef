import DCorePython.WalletRuns

/-!
# Calls of single methods

The methods that take amounts, and the one that issues a token, also have
definitions of their own, which start from the converted arguments. They are the
rows of the table: on the Python call that has these arguments the table asks
the interface the same, and leaves and gives the same.
-/

namespace DCore

open Loop Call

/-- What a call asks the interfaces. -/
def WalletCall.request : WalletCall → Request
  | .transfer sender receiver amount symbol memo broadcast =>
    ⟨.exec .transfer, [.string sender, .string receiver, .numeral amount, .string symbol,
      .string memo, .bool broadcast]⟩
  | .issueAsset account amount symbol memo broadcast =>
    ⟨.exec .issueAsset,
      [.string account, .numeral amount, .string symbol, .string memo, .bool broadcast]⟩
  | .fundAssetPools account uiaAmount uiaSymbol dctAmount dctSymbol broadcast =>
    ⟨.exec .fundAssetPools, [.string account, .numeral uiaAmount, .string uiaSymbol,
      .numeral dctAmount, .string dctSymbol, .bool broadcast]⟩
  | .reserveAsset account amount symbol broadcast =>
    ⟨.exec .reserveAsset, [.string account, .numeral amount, .string symbol, .bool broadcast]⟩
  | .claimFees uiaAmount uiaSymbol dctAmount dctSymbol broadcast =>
    ⟨.exec .claimFees, [.numeral uiaAmount, .string uiaSymbol, .numeral dctAmount,
      .string dctSymbol, .bool broadcast]⟩
  | .withdrawVesting miner amount symbol broadcast =>
    ⟨.exec .withdrawVesting, [.string miner, .numeral amount, .string symbol, .bool broadcast]⟩
  | .issueNonFungibleToken account symbol data memo broadcast =>
    ⟨.exec .issueNonFungibleToken, [.string account, .string symbol,
      .vector (data.map ApiItem.variant), .string memo, .bool broadcast]⟩

def WalletState.bound (w : WalletState) : Bound (List Request) :=
  ⟨w.interp, w.calls.map WalletCall.request⟩

def boundResult {R : Type} : EStateM.Result PyErr WalletState R →
    EStateM.Result PyErr (Bound (List Request)) R
  | .ok r w => .ok r w.bound
  | .error e w => .error e w.bound

/-! ## Arguments as Python objects -/

inductive PlainArg
  | string (bs : List UInt8)
  | double (x : Double)
  | bool (b : Bool)

namespace PlainArg

def type : PlainArg → ParamType
  | string _ => .string
  | double _ => .double
  | bool _ => .bool

/-- The Python object, if a text is that of a Python string. -/
def object? : PlainArg → Option WalletObj
  | string bs => (Text.decode bs).map fun s => .item (.py (.str s))
  | double x => some (.float x)
  | bool b => some (.item (.py (.bool b)))

def value (toString : Double → Decimal) : PlainArg → ApiArg
  | string bs => .string bs
  | double x => .numeral (toString x)
  | bool b => .bool b

def Objects (args : List PlainArg) (objs : List WalletObj) : Prop :=
  List.Forall₂ (fun arg o => arg.object? = some o) args objs

end PlainArg

def AmountParam.method : AmountParam → String
  | transfer .. => "transfer"
  | issueAsset .. => "issue_asset"
  | fundAssetPoolsUia .. => "fund_asset_pools"
  | fundAssetPoolsDct .. => "fund_asset_pools"
  | reserveAsset .. => "reserve_asset"
  | claimFeesUia .. => "claim_fees"
  | claimFeesDct .. => "claim_fees"
  | withdrawVesting .. => "withdraw_vesting"

def AmountParam.arguments (x : Double) : AmountParam → List PlainArg
  | transfer sender receiver symbol memo broadcast =>
    [.string sender, .string receiver, .double x, .string symbol, .string memo, .bool broadcast]
  | issueAsset account symbol memo broadcast =>
    [.string account, .double x, .string symbol, .string memo, .bool broadcast]
  | fundAssetPoolsUia account uiaSymbol dctAmount dctSymbol broadcast =>
    [.string account, .double x, .string uiaSymbol, .double dctAmount, .string dctSymbol,
      .bool broadcast]
  | fundAssetPoolsDct account uiaAmount uiaSymbol dctSymbol broadcast =>
    [.string account, .double uiaAmount, .string uiaSymbol, .double x, .string dctSymbol,
      .bool broadcast]
  | reserveAsset account symbol broadcast =>
    [.string account, .double x, .string symbol, .bool broadcast]
  | claimFeesUia uiaSymbol dctAmount dctSymbol broadcast =>
    [.double x, .string uiaSymbol, .double dctAmount, .string dctSymbol, .bool broadcast]
  | claimFeesDct uiaAmount uiaSymbol dctSymbol broadcast =>
    [.double uiaAmount, .string uiaSymbol, .double x, .string dctSymbol, .bool broadcast]
  | withdrawVesting miner symbol broadcast =>
    [.string miner, .double x, .string symbol, .bool broadcast]

/-! ## The table on these arguments -/

section
variable (intToDouble : ℤ → Conversion Double) (toString : Double → Decimal)
  (keyToString : PublicKey → List UInt8)

theorem extract_object {arg : PlainArg} {o : WalletObj} (h : arg.object? = some o) :
    arg.type.extract intToDouble toString keyToString o =
      .built (.ready (arg.value toString)) none := by
  cases arg with
  | string bs =>
    obtain ⟨s, hs, rfl⟩ := Option.map_eq_some_iff.mp h
    show (PyObj.extractString (.str s)).map _ = _
    rw [PyObj.extractString_of_encode (Text.encode_decode hs)]
    rfl
  | double x =>
    cases h
    rfl
  | bool b =>
    cases h
    rfl

theorem extract_objects {params : List MethodParam} {args : List PlainArg}
    {objs : List WalletObj} (htypes : params.map MethodParam.type = args.map PlainArg.type)
    (hobjs : PlainArg.Objects args objs) :
    params.zipWith (fun p o => p.type.extract intToDouble toString keyToString o) objs =
      args.map fun arg => .built (.ready (arg.value toString)) none := by
  induction hobjs generalizing params with
  | nil =>
    rw [List.map_nil, List.map_eq_nil_iff] at htypes
    rw [htypes]
    rfl
  | cons ho _ ih =>
    cases params with
    | nil => cases htypes
    | cons p params =>
      rw [List.map_cons, List.map_cons, List.cons.injEq] at htypes
      rw [List.zipWith_cons_cons, List.map_cons, htypes.1, ih htypes.2,
        extract_object intToDouble toString keyToString ho]

variable {R : Type} (answer : Request → Except PyErr R)

theorem boundResult_ended (x : Except PyErr R) (w : WalletState) :
    boundResult (ended x w) = ended x w.bound := by
  cases x <;> rfl

theorem exec_run (c : WalletCall) (w : WalletState) :
    (Wallet.exec (fun c => answer c.request) c).run w =
      ended (answer c.request) { w with calls := w.calls ++ [c] } := by
  unfold Wallet.exec
  cases h : answer c.request with
  | error e => simp only [h]; rfl
  | ok r => simp only [h]; rfl

theorem perform_run_exec {c : MethodCall} {m : WalletMethod} {args : List ApiArg} {i : Interp}
    (hm : findMethod c.name = some m) {w : WalletState}
    (hprep : (m.prepare intToDouble toString keyToString c).run w.interp = .ok args i)
    {call : WalletCall} (hcall : call.request = ⟨m.api, args⟩) :
    (perform intToDouble toString keyToString (fun _ => answer) c).run w.bound =
      boundResult ((Wallet.exec (fun c => answer c.request) call).run { w with interp := i }) := by
  have hrun := perform_run_ok intToDouble toString keyToString (fun _ => answer)
    (w.calls.map WalletCall.request) hm hprep
  rw [exec_run, boundResult_ended]
  unfold WalletState.bound
  rw [hrun, List.map_append, List.map_singleton, hcall]

/-- A call by position, all of whose arguments are taken as they are. -/
theorem perform_run_plain {name : String} {m : WalletMethod} {args : List PlainArg}
    {objs : List WalletObj} (hm : findMethod name = some m)
    (htypes : m.params.map MethodParam.type = args.map PlainArg.type)
    (hobjs : PlainArg.Objects args objs) {call : WalletCall}
    (hcall : call.request = ⟨m.api, args.map (PlainArg.value toString)⟩) (w : WalletState) :
    (perform intToDouble toString keyToString (fun _ => answer) ⟨name, objs, []⟩).run w.bound =
      boundResult ((Wallet.exec (fun c => answer c.request) call).run w) := by
  have hlen : objs.length = (m.params.map MethodParam.param).length := by
    have hparams := congrArg List.length htypes
    rw [List.length_map, List.length_map] at hparams
    rw [List.length_map, hparams, hobjs.length_eq]
  have hconv : m.conversions intToDouble toString keyToString objs =
      (args.map (PlainArg.value toString)).map fun a => .built (.ready a) none := by
    rw [List.map_map]
    exact extract_objects intToDouble toString keyToString htypes hobjs
  have hprep : (m.prepare intToDouble toString keyToString ⟨name, objs, []⟩).run w.interp =
      .ok (args.map (PlainArg.value toString)) w.interp :=
    prepare_run_ready intToDouble toString keyToString w.interp
      (Parameter.bindArgs_positional hlen) hconv
  exact perform_run_exec intToDouble toString keyToString answer hm hprep hcall

/-- The methods with amounts do what their rows of the table do. -/
theorem amount_method_in_table (param : AmountParam) (x : Double) {objs : List WalletObj}
    (hobjs : PlainArg.Objects (param.arguments x) objs) (w : WalletState) :
    (perform intToDouble toString keyToString (fun _ => answer) ⟨param.method, objs, []⟩).run
        w.bound =
      boundResult ((param.run (fun c => answer c.request) toString x).run w) := by
  cases param <;>
    exact perform_run_plain intToDouble toString keyToString answer rfl rfl hobjs rfl w

end

/-! ## Token data -/

section
variable {Obj Obj' α β : Type} {extract : Obj → Conversion α} {extract' : Obj' → Conversion β}
  {f : Obj → Obj'} {g : α → β} (h : ∀ o, extract' (f o) = (extract o).map g)

include h

theorem convertible_map (o : Obj) : convertible extract' (f o) = convertible extract o := by
  unfold convertible
  rw [h, Conversion.value?_map, Option.isSome_map]

theorem values_map (l : List Obj) :
    values extract' (l.map f) = (values extract l).map g := by
  unfold values
  rw [List.filterMap_map, List.map_filterMap]
  congr 1
  funext o
  rw [Function.comp_apply, h, Conversion.value?_map]

theorem leaveAll_map (l : List Obj) (i : Interp) :
    leaveAll extract' (l.map f) i = leaveAll extract l i := by
  have hleaves (o : Obj) : (extract' (f o)).leaves = (extract o).leaves := by
    rw [h]
    cases extract o <;> rfl
  unfold leaveAll
  rw [List.foldr_map]
  simp only [hleaves]

variable [Inhabited α] [Inhabited β]

/-- Wrapping the elements of a list changes nothing but their values. -/
theorem vectorFromList_map (l : List Obj) (i : Interp) :
    (vectorFromList extract' (l.map f)).run i =
      (List.map g <$> vectorFromList extract l).run i := by
  by_cases hl : ∀ o ∈ l, convertible extract o = true
  · have hl' : ∀ o ∈ l.map f, convertible extract' o = true := by
      simpa only [List.forall_mem_map, convertible_map h] using hl
    rw [vectorFromList_run extract' hl', values_map h, leaveAll_map h, ← bind_pure_comp,
      run_bind_ok (vectorFromList_run extract hl i)]
    rfl
  · push Not at hl
    obtain ⟨l₁, o, -, ho, hsplit⟩ := exists_lastFailing (convertible extract) (by simpa using hl)
    obtain ⟨e, he⟩ := exists_raised ho
    have hl₂ : ∀ o ∈ l.rtakeWhile (convertible extract), convertible extract o = true :=
      fun o => List.mem_rtakeWhile_imp
    have hl₂' : ∀ o ∈ (l.rtakeWhile (convertible extract)).map f,
        convertible extract' o = true := by
      simpa only [List.forall_mem_map, convertible_map h] using hl₂
    have he' : extract' (f o) = .raised e := by
      rw [h, he]
      rfl
    have hrun := decodeList_run_error extract Member.self l₁ _ he hl₂ ⟨i, ([] : List α)⟩
    have hrun' := decodeList_run_error extract' Member.self (l₁.map f) _ he' hl₂' ⟨i, ([] : List β)⟩
    rw [← hsplit] at hrun
    rw [← List.map_cons, ← List.map_append, ← hsplit, leaveAll_map h] at hrun'
    have hfailed := withLocal_run_error hrun
    rw [← bind_pure_comp, run_bind_error (x := vectorFromList extract l) hfailed]
    exact withLocal_run_error hrun'

end

section
variable (intToDouble : ℤ → Conversion Double) (toString : Double → Decimal)
  (keyToString : PublicKey → List UInt8)

theorem mapM_convert_ok (l₁ l₂ : List ApiArg) {arg : MethodArg} {a : ApiArg} {i i' : Interp}
    (h : arg.convert.run i = .ok a i') :
    ((l₁.map MethodArg.ready ++ arg :: l₂.map MethodArg.ready).mapM MethodArg.convert).run i =
      .ok (l₁ ++ a :: l₂) i' := by
  rw [List.mapM_append, run_bind_ok (mapM_convert_ready l₁ i), List.mapM_cons, bind_assoc,
    run_bind_ok h, bind_assoc, run_bind_ok (mapM_convert_ready l₂ i')]
  rfl

theorem mapM_convert_error (l₁ l₂ : List ApiArg) {arg : MethodArg} {e : PyErr} {i i' : Interp}
    (h : arg.convert.run i = .error e i') :
    ((l₁.map MethodArg.ready ++ arg :: l₂.map MethodArg.ready).mapM MethodArg.convert).run i =
      .error e i' := by
  rw [List.mapM_append, run_bind_ok (mapM_convert_ready l₁ i), List.mapM_cons, bind_assoc,
    run_bind_error h]

theorem extract_variant (o : PyObj) : ElementType.variant.extract (.py o) =
    (VariantConverter.extract o).map ApiItem.variant := rfl

theorem convert_variants_ok {data : List PyObj} {v : List Variant} {i i' : Interp}
    (h : (vectorFromList VariantConverter.extract data).run i = .ok v i') :
    (MethodArg.vector .variant (data.map WalletItem.py)).convert.run i =
      .ok (.vector (v.map ApiItem.variant)) i' := by
  have hvector := vectorFromList_map extract_variant data i
  rw [← bind_pure_comp, run_bind_ok h] at hvector
  show (ApiArg.vector <$> _ : EStateM PyErr Interp ApiArg).run i = _
  rw [← bind_pure_comp, run_bind_ok hvector]
  rfl

theorem convert_variants_error {data : List PyObj} {e : PyErr} {i i' : Interp}
    (h : (vectorFromList VariantConverter.extract data).run i = .error e i') :
    (MethodArg.vector .variant (data.map WalletItem.py)).convert.run i = .error e i' := by
  have hvector := vectorFromList_map extract_variant data i
  rw [← bind_pure_comp, run_bind_error h] at hvector
  show (ApiArg.vector <$> _ : EStateM PyErr Interp ApiArg).run i = _
  rw [← bind_pure_comp, run_bind_error hvector]

/-- `wallet.issue_non_fungible_token(account, symbol, data, memo, broadcast)` -/
def tokenCall (account symbol : WalletObj) (data : List PyObj) (memo : WalletObj)
    (broadcast : Bool) : MethodCall :=
  ⟨"issue_non_fungible_token",
    [account, symbol, .list (data.map WalletItem.py), memo, .item (.py (.bool broadcast))], []⟩

section
variable {account symbol memo : List UInt8} {accountObj symbolObj memoObj : WalletObj}
  (haccount : (PlainArg.string account).object? = some accountObj)
  (hsymbol : (PlainArg.string symbol).object? = some symbolObj)
  (hmemo : (PlainArg.string memo).object? = some memoObj) (data : List PyObj) (broadcast : Bool)

include haccount hsymbol hmemo

theorem tokenCall_prepare_run {m : WalletMethod}
    (hparams : m.params = [.string "account", .string "symbol",
      .required (.vector .variant) "data", .string "memo", .broadcast]) (i : Interp) :
    (m.prepare intToDouble toString keyToString
        (tokenCall accountObj symbolObj data memoObj broadcast)).run i =
      (([ApiArg.string account, .string symbol].map MethodArg.ready ++
        MethodArg.vector .variant (data.map WalletItem.py) ::
          [ApiArg.string memo, .bool broadcast].map MethodArg.ready).mapM
            MethodArg.convert).run i := by
  refine prepare_run_built intToDouble toString keyToString i
    (Parameter.bindArgs_positional (by rw [List.length_map, hparams]; rfl)) ?_
  have e₁ := extract_object intToDouble toString keyToString haccount
  have e₂ := extract_object intToDouble toString keyToString hsymbol
  have e₃ := extract_object intToDouble toString keyToString hmemo
  unfold WalletMethod.conversions
  rw [hparams]
  simp only [tokenCall, List.zipWith_cons_cons, List.map_cons, List.map_nil, List.cons_append,
    List.nil_append, List.cons.injEq]
  exact ⟨e₁, e₂, rfl, e₃, rfl, rfl⟩

variable {R : Type} (answer : Request → Except PyErr R)

/-- Issuing a token does what its row of the table does, also when the data have
an element that is not taken. -/
theorem issueNonFungibleToken_in_table (w : WalletState) :
    (perform intToDouble toString keyToString (fun _ => answer)
        (tokenCall accountObj symbolObj data memoObj broadcast)).run w.bound =
      boundResult ((Wallet.issueNonFungibleToken (fun c => answer c.request) account symbol data
        memo broadcast).run w) := by
  obtain ⟨m, hm, hparams, hapi⟩ : ∃ m, findMethod "issue_non_fungible_token" = some m ∧
      m.params = [.string "account", .string "symbol", .required (.vector .variant) "data",
        .string "memo", .broadcast] ∧ m.api = .exec .issueNonFungibleToken := ⟨_, rfl, rfl, rfl⟩
  have hprep := tokenCall_prepare_run intToDouble toString keyToString haccount hsymbol hmemo data
    broadcast hparams w.interp
  unfold Wallet.issueNonFungibleToken
  cases hv : (vectorFromList VariantConverter.extract data).run w.interp with
  | error e i =>
    have hconv := mapM_convert_error [.string account, .string symbol]
      [.string memo, .bool broadcast] (convert_variants_error hv)
    rw [run_bind_error (Wallet.onInterp_run_error hv)]
    exact perform_run_error intToDouble toString keyToString (fun _ => answer)
      (w.calls.map WalletCall.request) hm (hprep.trans hconv)
  | ok v i =>
    have hconv := mapM_convert_ok [.string account, .string symbol]
      [.string memo, .bool broadcast] (convert_variants_ok hv)
    rw [run_bind_ok (Wallet.onInterp_run_ok hv)]
    exact perform_run_exec intToDouble toString keyToString answer hm (hprep.trans hconv)
      (by rw [hapi]; rfl)

end

end

end DCore
