import DCorePython.WalletRuns

/-!
# Broadcasts

Every method that makes a transaction has a last parameter `broadcast`, which is
`False` unless the caller gives it. What a program sends to the network is what
it asks to be sent.
-/

namespace DCore

open Loop Call

section
variable (intToDouble : ℤ → Conversion Double) (toString : Double → Decimal)
  (keyToString : PublicKey → List UInt8)

def Api.isBroadcast : Api → Bool
  | .broadcast _ => true
  | _ => false

def ApiArg.flag : ApiArg → Bool
  | .bool b => b
  | _ => false

/-- The request goes to the network: by the interface that broadcasts, or with
the flag `broadcast`, which is the last argument of the functions that have
it. -/
def Request.broadcasts (r : Request) : Bool :=
  r.api.isBroadcast || r.args.getLast?.any ApiArg.flag

def WalletMethod.takesBroadcast (m : WalletMethod) : Bool :=
  m.params.any fun p => p.param.name == "broadcast"

def MethodCall.given? (c : MethodCall) (m : WalletMethod) (name : String) : Option WalletObj :=
  c.positional[m.params.findIdx fun p => p.param.name == name]?.or (c.keywords.lookup name)

/-- `bool(o)` -/
def WalletObj.truthy : WalletObj → Bool
  | .item (.py o) => o.truth
  | .item (.value _ _) => true
  | .float x => x.m != 0
  | .list l => !l.isEmpty

def MethodCall.asksToBroadcast (c : MethodCall) : Bool :=
  match findMethod c.name with
  | none => false
  | some m => m.api.isBroadcast || m.takesBroadcast && (c.given? m "broadcast").any WalletObj.truthy

/-- A row of the table: if there is a parameter `broadcast`, it is the last one,
a `bool` with the default `False`, and no other row ends with a `bool`. -/
def WalletMethod.endsWithBroadcast (m : WalletMethod) : Bool :=
  match m.params.getLast? with
  | none => !m.takesBroadcast
  | some p =>
    (m.takesBroadcast == (p.type == .bool)) && (p.type != .bool ||
      p.param.name == "broadcast" && p.param.default?.any (fun o => !o.truthy) &&
        (m.params.findIdx fun p => p.param.name == "broadcast") + 1 == m.params.length)

theorem walletMethods_broadcast : ∀ m ∈ walletMethods, m.endsWithBroadcast = true := by
  decide

theorem exists_of_map_run {ε σ α β : Type} {x : EStateM ε σ α} {f : α → β} {s s' : σ} {b : β}
    (h : (f <$> x).run s = .ok b s') : ∃ a, b = f a := by
  rw [← bind_pure_comp] at h
  cases hx : x.run s with
  | error e s₁ =>
    rw [run_bind_error hx] at h
    cases h
  | ok a s₁ =>
    rw [run_bind_ok hx] at h
    cases h
    exact ⟨a, rfl⟩

theorem MethodArg.flag_of_ready {a b : ApiArg} {s s' : Interp}
    (h : (MethodArg.ready a).convert.run s = .ok b s') : b = a := by
  cases h
  rfl

theorem MethodArg.flag_of_body {arg : MethodArg} {a : ApiArg} {s s' : Interp}
    (harg : ∀ b, arg ≠ .ready b) (h : arg.convert.run s = .ok a s') : a.flag = false := by
  cases arg with
  | ready b => exact absurd rfl (harg b)
  | vector elem l =>
    obtain ⟨l', rfl⟩ := exists_of_map_run h
    rfl
  | stringSet l =>
    obtain ⟨l', rfl⟩ := exists_of_map_run h
    rfl
  | optionalString o =>
    cases hd : (decodeOptionalValue WalletObj.extractString o : Call Unit _).run ⟨s, ()⟩ with
    | error e b =>
      rw [convert_run_error hd] at h
      cases h
    | ok x b =>
      rw [convert_run_ok hd] at h
      cases h
      rfl

theorem ready_of_map {α : Type} {c : Conversion α} {f : α → ApiArg} {arg : MethodArg}
    (hf : ∀ x, (f x).flag = false)
    (h : (c.map fun x => MethodArg.ready (f x)).value? = some arg) :
    (∃ a, arg = .ready a ∧ a.flag = false) ∨ ∀ b, arg ≠ .ready b := by
  rw [Conversion.value?_map] at h
  obtain ⟨x, -, rfl⟩ := Option.map_eq_some_iff.mp h
  exact .inl ⟨f x, rfl, hf x⟩

theorem ParamType.extract_no_flag {type : ParamType} (htype : type ≠ .bool) {o : WalletObj}
    {arg : MethodArg} (h : (type.extract intToDouble toString keyToString o).value? = some arg) :
    (∃ a, arg = .ready a ∧ a.flag = false) ∨ ∀ b, arg ≠ .ready b := by
  cases type with
  | bool => exact absurd rfl htype
  | string =>
    cases o with
    | item i => exact ready_of_map (fun _ => rfl) h
    | _ => cases h
  | optionalString =>
    cases h
    exact .inr nofun
  | vector elem =>
    cases o with
    | list l =>
      cases h
      exact .inr nofun
    | _ => cases h
  | stringSet =>
    cases o with
    | list l =>
      cases h
      exact .inr nofun
    | _ => cases h
  | value cls =>
    cases o with
    | item i =>
      cases i with
      | py x => cases h
      | value cls' n =>
        simp only [extract] at h
        by_cases hc : cls' = cls
        · rw [if_pos hc] at h
          cases h
          exact .inl ⟨_, rfl, rfl⟩
        · rw [if_neg hc] at h
          cases h
    | _ => cases h
  | double =>
    cases o with
    | float x =>
      cases h
      exact .inl ⟨_, rfl, rfl⟩
    | list l => cases h
    | item i =>
      cases i with
      | value cls n => cases h
      | py x =>
        simp only [extract] at h
        cases hx : x.asInt? with
        | none =>
          rw [hx] at h
          cases h
        | some n =>
          rw [hx] at h
          exact ready_of_map (fun _ => rfl) h
  | _ =>
    cases o with
    | item i =>
      cases i with
      | py x => exact ready_of_map (fun _ => rfl) h
      | value cls n => cases h
    | _ => cases h

theorem flag_of_convert {type : ParamType} {o : WalletObj} {arg : MethodArg} {a : ApiArg}
    {s s' : Interp} (hx : (type.extract intToDouble toString keyToString o).value? = some arg)
    (ha : arg.convert.run s = .ok a s') : a.flag = (type == .bool && o.truthy) := by
  by_cases htype : type = .bool
  · subst htype
    cases o with
    | item i =>
      cases i with
      | py x =>
        have hmap : (x.extractBool.map fun b => MethodArg.ready (.bool b)).value? = some arg := hx
        rw [Conversion.value?_map] at hmap
        obtain ⟨b, hb, rfl⟩ := Option.map_eq_some_iff.mp hmap
        rw [MethodArg.flag_of_ready ha]
        rw [beq_self_eq_true, Bool.true_and]
        exact (PyObj.truth_of_extractBool hb).symm
      | value cls n => cases hx
    | _ => cases hx
  · rw [beq_eq_false_iff_ne.mpr htype, Bool.false_and]
    rcases ParamType.extract_no_flag intToDouble toString keyToString htype hx with
      ⟨b, rfl, hb⟩ | hbody
    · rw [MethodArg.flag_of_ready ha, hb]
    · exact MethodArg.flag_of_body hbody ha

theorem Conversion.value?_of_construct {α : Type} {c : Conversion α} {a : α} {s s' : Interp}
    (h : c.construct.run s = .ok a s') : c.value? = some a := by
  cases c with
  | raised e => cases h
  | built b p => cases h; rfl

/-- Every argument that a method asks with comes from the argument bound to its
parameter. -/
theorem prepare_run_ok {m : WalletMethod} {c : MethodCall} {args : List ApiArg} {s s' : Interp}
    (h : (m.prepare intToDouble toString keyToString c).run s = .ok args s') :
    ∃ objs, Parameter.bindArgs (m.params.map MethodParam.param) c.positional c.keywords =
        some objs ∧ args.length = m.params.length ∧
      ∀ {j : Nat} {p : MethodParam} {o : WalletObj}, m.params[j]? = some p →
        objs[j]? = some o → ∃ a, args[j]? = some a ∧ a.flag = (p.type == .bool && o.truthy) := by
  unfold WalletMethod.prepare at h
  cases hbind : Parameter.bindArgs (m.params.map MethodParam.param) c.positional c.keywords with
  | none =>
    rw [hbind] at h
    cases h
  | some objs =>
    simp only [hbind] at h
    by_cases hrefused : ((m.conversions intToDouble toString keyToString objs).any
        Conversion.refused) = true
    · rw [if_pos hrefused] at h
      cases h
    · rw [if_neg hrefused] at h
      have hlen := Parameter.length_bindArgs hbind
      rw [List.length_map] at hlen
      cases hbuild : ((m.conversions intToDouble toString keyToString objs).mapM
          Conversion.construct).run s with
      | error e s₁ =>
        rw [run_bind_error hbuild] at h
        cases h
      | ok margs s₁ =>
        rw [run_bind_ok hbuild] at h
        have hbuilt := mapM_run_ok hbuild
        have hconverted := mapM_run_ok h
        refine ⟨objs, rfl, ?_, ?_⟩
        · rw [← hconverted.length_eq, ← hbuilt.length_eq]
          simp [WalletMethod.conversions, hlen]
        · intro j p o hp ho
          have hj : (m.conversions intToDouble toString keyToString objs)[j]? =
              some (p.type.extract intToDouble toString keyToString o) := by
            unfold WalletMethod.conversions
            rw [List.getElem?_zipWith, hp, ho]
          obtain ⟨marg, hmarg, s₂, s₃, hc⟩ := getElem?_of_forall₂ hbuilt hj
          obtain ⟨a, ha, s₄, s₅, hconv⟩ := getElem?_of_forall₂ hconverted hmarg
          exact ⟨a, ha, flag_of_convert intToDouble toString keyToString
            (Conversion.value?_of_construct hc) hconv⟩

/-- The object bound to the last parameter is a true flag when the call gave
one. -/
theorem last_flag_eq {m : WalletMethod} {c : MethodCall} {objs : List WalletObj}
    {args : List ApiArg} (hrow : m.endsWithBroadcast = true)
    (hbind : Parameter.bindArgs (m.params.map MethodParam.param) c.positional c.keywords =
      some objs) (hlen : args.length = m.params.length)
    (hflags : ∀ {j : Nat} {p : MethodParam} {o : WalletObj}, m.params[j]? = some p →
      objs[j]? = some o → ∃ a, args[j]? = some a ∧ a.flag = (p.type == .bool && o.truthy)) :
    args.getLast?.any ApiArg.flag =
      (m.takesBroadcast && (c.given? m "broadcast").any WalletObj.truthy) := by
  unfold WalletMethod.endsWithBroadcast at hrow
  rw [List.getLast?_eq_getElem?, hlen]
  cases hlast : m.params.getLast? with
  | none =>
    rw [hlast] at hrow
    have hnil : m.params = [] := List.getLast?_eq_none_iff.mp hlast
    have hargs : args = [] := List.length_eq_zero_iff.mp (by rw [hlen, hnil]; rfl)
    simp only [Bool.not_eq_true'] at hrow
    rw [hrow, hargs]
    rfl
  | some p =>
    rw [hlast] at hrow
    rw [List.getLast?_eq_getElem?] at hlast
    have hparam : (m.params.map MethodParam.param)[m.params.length - 1]? = some p.param := by
      rw [List.getElem?_map, hlast]
      rfl
    have hobj := Parameter.getElem?_bindArgs hbind hparam
    have hlt : m.params.length - 1 < objs.length := by
      have hlen' := Parameter.length_bindArgs hbind
      have := (List.getElem?_eq_some_iff.mp hlast).1
      rw [List.length_map] at hlen'
      omega
    rw [List.getElem?_eq_getElem hlt] at hobj
    obtain ⟨a, ha, hflag⟩ := hflags hlast (List.getElem?_eq_getElem hlt)
    rw [ha, Option.any_some, hflag]
    simp only [Bool.and_eq_true, beq_iff_eq] at hrow
    obtain ⟨htakes, hrest⟩ := hrow
    rw [htakes]
    by_cases htype : p.type = .bool
    · simp only [htype, bne_self_eq_false, Bool.false_or, Bool.and_eq_true, beq_iff_eq] at hrest
      obtain ⟨⟨hname, hdefault⟩, hidx⟩ := hrest
      have hgiven : c.given? m "broadcast" =
          c.positional[m.params.length - 1]?.or (c.keywords.lookup p.param.name) := by
        unfold MethodCall.given?
        rw [hname, ← hidx, Nat.add_sub_cancel]
      have hchoose : some objs[m.params.length - 1] = (c.given? m "broadcast").or p.param.default? := by
        rw [hobj, hgiven, Parameter.choose, Option.or_assoc]
      congr 1
      cases hg : c.given? m "broadcast" with
      | some o =>
        rw [hg] at hchoose
        rw [Option.some.inj hchoose]
        rfl
      | none =>
        rw [hg, Option.none_or] at hchoose
        rw [← hchoose] at hdefault
        simpa using hdefault
    · rw [beq_eq_false_iff_ne.mpr htype, Bool.false_and, Bool.false_and]

theorem broadcasts_eq_asks {c : MethodCall} {r : Request}
    (h : request? intToDouble toString keyToString c = some r) :
    r.broadcasts = c.asksToBroadcast := by
  unfold request? at h
  unfold MethodCall.asksToBroadcast
  cases hm : findMethod c.name with
  | none =>
    rw [hm] at h
    cases h
  | some m =>
    simp only [hm] at h
    cases hprep : (m.prepare intToDouble toString keyToString c).run {} with
    | error e i =>
      rw [hprep] at h
      cases h
    | ok args i =>
      rw [hprep] at h
      cases h
      unfold Request.broadcasts
      congr 1
      obtain ⟨objs, hbind, hlen, hflags⟩ := prepare_run_ok intToDouble toString keyToString hprep
      have hrow := walletMethods_broadcast m (List.mem_of_find?_eq_some hm)
      exact last_flag_eq hrow hbind hlen hflags

variable {R : Type} (reply : List Request → Request → Except PyErr R)

/-- Of all that a program asks the interfaces, what goes to the network are the
requests of the calls that ask for that, in their order. -/
theorem broadcasts_exactly_as_asked (prog : List MethodCall) :
    ((walletMachine intToDouble toString keyToString reply).after [] prog).filter
        Request.broadcasts =
      (prog.filter MethodCall.asksToBroadcast).filterMap
        (request? intToDouble toString keyToString) := by
  rw [walletMachine_after, List.nil_append]
  induction prog with
  | nil => rfl
  | cons c prog ih =>
    cases hc : request? intToDouble toString keyToString c with
    | none =>
      rw [List.filterMap_cons_none hc, ih]
      by_cases hasks : c.asksToBroadcast = true
      · rw [List.filter_cons_of_pos hasks, List.filterMap_cons_none hc]
      · rw [List.filter_cons_of_neg hasks]
    | some r =>
      rw [List.filterMap_cons_some hc]
      have heq := broadcasts_eq_asks intToDouble toString keyToString hc
      by_cases hasks : c.asksToBroadcast = true
      · rw [List.filter_cons_of_pos hasks, List.filterMap_cons_some hc,
          List.filter_cons_of_pos (by rw [heq, hasks]), ih]
      · rw [List.filter_cons_of_neg hasks, List.filter_cons_of_neg (by rw [heq]; exact hasks), ih]

end

/-! ### Votes -/

section

def voter : WalletObj := .item (.py (.str ("bob".toList.map Text.ofChar)))

/-- `wallet.vote_for_miner('bob', 'bob', True, ...)` -/
def vote (positional : List WalletObj) (keywords : List (String × WalletObj)) : MethodCall :=
  ⟨"vote_for_miner", voter :: voter :: .item (.py (.bool true)) :: positional, keywords⟩

/-- Votes with `broadcast=5`, without `broadcast`, with `None` for it, and with a
string for it, and a transaction that is broadcast. -/
def votes : List MethodCall :=
  [vote [] [("broadcast", .item (.py (.int 5)))], vote [] [], vote [.item (.py .none)] [],
    vote [voter] [], ⟨"broadcast_transaction", [.item (.value .signedTransaction 7)], []⟩]

theorem broadcasts_exactly_as_asked_votes :
    ((walletMachine (fun _ => .raised .overflowError) (fun _ => ⟨0, 0⟩) (fun _ => [])
        fun _ _ => (.ok () : Except PyErr Unit)).after [] votes).filter Request.broadcasts =
      [⟨.exec .voteForMiner, [.string [98, 111, 98], .string [98, 111, 98], .bool true, .bool true]⟩,
        ⟨.broadcast .broadcastTransaction, [.item (.value .signedTransaction 7)]⟩] := by
  rw [broadcasts_exactly_as_asked]
  rfl

end

end DCore
