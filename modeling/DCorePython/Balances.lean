import DCorePython.ObjectId
import DCorePython.WalletRuns

/-!
# Dumping the balances

`dump_accounts_balances` asks how many accounts there are, looks them all up,
and lists the balances of each under its id. It prints a line for each account
in the order of their names, until a listing fails.
-/

namespace DCore

open Loop Call Dotted

/-- The names of the accounts with their ids; names compare by their bytes. -/
abbrev AccountMap := OrderedSet fun e : List UInt8 × IdNumber => e.1.map UInt8.toNat

structure ExtendedAsset where
  prettyAmount : List UInt8

/-- What the interfaces answer to a request, after all that they were asked. -/
structure AccountReplies where
  accountCount : List Request → Request → Except PyErr (Fin (2 ^ 64))
  accounts : List Request → Request → Except PyErr AccountMap
  balances : List Request → Request → Except PyErr (List ExtendedAsset)

/-- The next free address, what the interfaces were asked, and the lines that
were printed. -/
structure PyWorld where
  next : Nat
  asked : List Request
  printed : List (List CodePoint)

namespace PyWorld

def askedMember : Member PyWorld (List Request) where
  get := asked
  set t c := { t with asked := c }
  get_set _ _ := rfl
  set_get _ := rfl
  set_set _ _ _ := rfl

end PyWorld

def newId (cls : IdClass) (n : IdNumber) : Call PyWorld PyObj := do
  let w ← current
  onObj fun w => { w with next := w.next + 1 }
  return .id w.next cls n

/-- `to_dict` of the accounts. -/
def accountsToDict (container : AccountMap) : Call PyWorld (PyDict PyObj) :=
  container.toList.foldlM (fun d v => do
    let key ← build (.ofExcept (PyObj.ofString v.1))
    let mapped ← newId .accountId v.2
    return d.setdefault key mapped) PyDict.empty

def PyObj.chars : PyObj → List CodePoint
  | str s => s
  | _ => []

/-- `', '.join(amounts)` -/
def joined (amounts : List PyObj) : List CodePoint :=
  ((", ".toList.map Text.ofChar).intercalate (amounts.map PyObj.chars))

/-- `print(f'{name}:', ', '.join(amounts))` -/
def line (name : PyObj) (amounts : List PyObj) : List CodePoint :=
  name.chars ++ ": ".toList.map Text.ofChar ++ joined amounts

section
variable (intToDouble : ℤ → Conversion Double) (toString : Double → Decimal)
  (keyToString : PublicKey → List UInt8) (N : AccountReplies) (T : ObjectIdType)

/-- `str(o)`; the class of an account id has `object_id_str` for it. -/
def pyStr : PyObj → Except PyErr PyObj
  | .id _ _ n => ObjectId.str T n
  | .str s => .ok (.str s)
  | _ => .error .typeError

def getAccountCount : Call PyWorld PyObj := do
  let n ← onMember PyWorld.askedMember
    (perform intToDouble toString keyToString N.accountCount ⟨"get_account_count", [], []⟩)
  return .int n.val

def lookupAccounts (lowerbound limit : PyObj) : Call PyWorld (PyDict PyObj) := do
  let m ← onMember PyWorld.askedMember (perform intToDouble toString keyToString N.accounts
    ⟨"lookup_accounts", [.item (.py lowerbound), .item (.py limit)], []⟩)
  accountsToDict m

def listAccountBalances (account : PyObj) : Call PyWorld (List ExtendedAsset) :=
  onMember PyWorld.askedMember (perform intToDouble toString keyToString N.balances
    ⟨"list_account_balances", [.item (.py account)], []⟩)

def dumpAccount (e : PyObj × PyObj) : Call PyWorld Unit := do
  let name ← build (.ofExcept (pyStr T e.1))
  let account ← build (.ofExcept (pyStr T e.2))
  let balances ← listAccountBalances intToDouble toString keyToString N account
  let amounts ← balances.mapM fun b => build (.ofExcept (PyObj.ofString b.prettyAmount))
  onObj fun w => { w with printed := w.printed ++ [line name amounts] }

def dumpAccountsBalances : Call PyWorld Unit := do
  let count ← getAccountCount intToDouble toString keyToString N
  let accounts ← lookupAccounts intToDouble toString keyToString N (.str []) count
  accounts.items.forM (dumpAccount intToDouble toString keyToString N T)

/-! ## The requests -/

def countRequest : Request := ⟨.query .getAccountCount, []⟩

def lookupRequest (limit : Nat) : Request := ⟨.query .lookupAccounts, [.string [], .unsigned limit]⟩

/-- The balances of an account are asked for under the text of its id. -/
def balancesRequest (n : IdNumber) : Request := ⟨.exec .listAccountBalances, [.string (T.toString n)]⟩

theorem onAsked_run {R : Type} {reply : List Request → Request → Except PyErr R} {c : MethodCall}
    {m : WalletMethod} {args : List ApiArg} {i : Interp} (w : PyWorld)
    (hm : findMethod c.name = some m)
    (hargs : (m.prepare intToDouble toString keyToString c).run i = .ok args i) :
    (onMember PyWorld.askedMember (perform intToDouble toString keyToString reply c)).run ⟨i, w⟩ =
      ended (reply w.asked ⟨m.api, args⟩) ⟨i, { w with asked := w.asked ++ [⟨m.api, args⟩] }⟩ := by
  have hrun : (perform intToDouble toString keyToString reply c).run
      ⟨i, PyWorld.askedMember.get w⟩ = _ :=
    perform_run_ok intToDouble toString keyToString reply w.asked hm hargs
  cases hx : reply w.asked ⟨m.api, args⟩ with
  | error e =>
    rw [hx] at hrun
    rw [onMember_run_error hrun]
    rfl
  | ok r =>
    rw [hx] at hrun
    rw [onMember_run_ok hrun]
    rfl

theorem onAsked_run_error {R : Type} {reply : List Request → Request → Except PyErr R}
    {c : MethodCall} {m : WalletMethod} {e : PyErr} {i : Interp} (w : PyWorld)
    (hm : findMethod c.name = some m)
    (hargs : (m.prepare intToDouble toString keyToString c).run i = .error e i) :
    (onMember PyWorld.askedMember (perform intToDouble toString keyToString reply c)).run ⟨i, w⟩ =
      .error e ⟨i, w⟩ := by
  have hrun : (perform intToDouble toString keyToString reply c).run
      ⟨i, PyWorld.askedMember.get w⟩ = _ :=
    perform_run_error intToDouble toString keyToString reply w.asked hm hargs
  rw [onMember_run_error hrun]
  rfl

theorem listAccountBalances_run {s : List CodePoint} {bs : List UInt8}
    (h : Text.encode s = some bs) (i : Interp) (w : PyWorld) :
    (listAccountBalances intToDouble toString keyToString N (.str s)).run ⟨i, w⟩ =
      ended (N.balances w.asked ⟨.exec .listAccountBalances, [.string bs]⟩)
        ⟨i, { w with asked := w.asked ++ [⟨.exec .listAccountBalances, [.string bs]⟩] }⟩ := by
  have hm : findMethod "list_account_balances" =
      some ⟨"list_account_balances", [.string "account"], .exec .listAccountBalances⟩ := rfl
  have hargs : (WalletMethod.prepare intToDouble toString keyToString
      ⟨"list_account_balances", [.string "account"], .exec .listAccountBalances⟩
      ⟨"list_account_balances", [.item (.py (.str s))], []⟩).run i = .ok [.string bs] i := by
    apply prepare_run_ready
    · rfl
    · have hstr : PyObj.extractString (.str s) = .built bs none := PyObj.extractString_of_encode h
      show [(PyObj.extractString (.str s)).map fun bs => MethodArg.ready (.string bs)] = _
      rw [hstr]
      rfl
  exact onAsked_run intToDouble toString keyToString w hm hargs

theorem lookupAccounts_request_run {n : Nat} (hn : n < 2 ^ 32) (i : Interp) (w : PyWorld) :
    (onMember PyWorld.askedMember (perform intToDouble toString keyToString N.accounts
      ⟨"lookup_accounts", [.item (.py (.str [])), .item (.py (.int n))], []⟩)).run ⟨i, w⟩ =
      ended (N.accounts w.asked (lookupRequest n))
        ⟨i, { w with asked := w.asked ++ [lookupRequest n] }⟩ := by
  have hm : findMethod "lookup_accounts" =
      some ⟨"lookup_accounts", [.string "lowerbound", .uint32 "limit"], .query .lookupAccounts⟩ := rfl
  have hargs : (WalletMethod.prepare intToDouble toString keyToString
      ⟨"lookup_accounts", [.string "lowerbound", .uint32 "limit"], .query .lookupAccounts⟩
      ⟨"lookup_accounts", [.item (.py (.str [])), .item (.py (.int n))], []⟩).run i =
        .ok [.string [], .unsigned n] i := by
    apply prepare_run_ready
    · rfl
    · show [(PyObj.extractString (.str [])).map fun bs => MethodArg.ready (.string bs),
        (PyObj.extractUnsigned 32 (.int n)).map fun n => MethodArg.ready (.unsigned n.val)] = _
      rw [PyObj.extractUnsigned_natCast hn]
      rfl
  exact onAsked_run intToDouble toString keyToString w hm hargs

/-- The limit is 32 bits wide, the count 64. -/
theorem lookupAccounts_request_error {n : Nat} (hn : 2 ^ 32 ≤ n) (i : Interp) (w : PyWorld) :
    (onMember PyWorld.askedMember (perform intToDouble toString keyToString N.accounts
      ⟨"lookup_accounts", [.item (.py (.str [])), .item (.py (.int n))], []⟩)).run ⟨i, w⟩ =
      .error .overflowError ⟨i, w⟩ := by
  have hm : findMethod "lookup_accounts" =
      some ⟨"lookup_accounts", [.string "lowerbound", .uint32 "limit"], .query .lookupAccounts⟩ := rfl
  have hconv : WalletMethod.conversions intToDouble toString keyToString
      ⟨"lookup_accounts", [.string "lowerbound", .uint32 "limit"], .query .lookupAccounts⟩
      [.item (.py (.str [])), .item (.py (.int n))] =
        [.built (.ready (.string [])) none, .raised .overflowError] := by
    show [(PyObj.extractString (.str [])).map fun bs => MethodArg.ready (.string bs),
      (PyObj.extractUnsigned 32 (.int n)).map fun n => MethodArg.ready (.unsigned n.val)] = _
    rw [PyObj.extractUnsigned_of_le hn]
    rfl
  have hargs : (WalletMethod.prepare intToDouble toString keyToString
      ⟨"lookup_accounts", [.string "lowerbound", .uint32 "limit"], .query .lookupAccounts⟩
      ⟨"lookup_accounts", [.item (.py (.str [])), .item (.py (.int n))], []⟩).run i =
        .error .overflowError i := by
    have hobjs : Parameter.bindArgs ([.string "lowerbound", .uint32 "limit"].map MethodParam.param)
        [WalletObj.item (.py (.str [])), .item (.py (.int n))] [] =
          some [.item (.py (.str [])), .item (.py (.int n))] := rfl
    unfold WalletMethod.prepare
    simp only [hobjs, hconv]
    rfl
  exact onAsked_run_error intToDouble toString keyToString w hm hargs

theorem getAccountCount_run (i : Interp) (w : PyWorld) :
    (getAccountCount intToDouble toString keyToString N).run ⟨i, w⟩ =
      ended ((N.accountCount w.asked countRequest).map fun n => .int n.val)
        ⟨i, { w with asked := w.asked ++ [countRequest] }⟩ := by
  have hm : findMethod "get_account_count" =
      some ⟨"get_account_count", [], .query .getAccountCount⟩ := rfl
  have hargs : (WalletMethod.prepare intToDouble toString keyToString
      ⟨"get_account_count", [], .query .getAccountCount⟩ ⟨"get_account_count", [], []⟩).run i =
        .ok [] i := rfl
  have hrun : (onMember PyWorld.askedMember (perform intToDouble toString keyToString
      N.accountCount ⟨"get_account_count", [], []⟩)).run ⟨i, w⟩ =
        ended (N.accountCount w.asked countRequest) ⟨i, { w with asked := w.asked ++ [countRequest] }⟩ :=
    onAsked_run intToDouble toString keyToString w hm hargs
  unfold getAccountCount
  cases hx : N.accountCount w.asked countRequest with
  | error e =>
    rw [hx] at hrun
    rw [run_bind_error hrun]
    rfl
  | ok n =>
    rw [hx] at hrun
    rw [run_bind_ok hrun]
    rfl

end

/-! ## The accounts -/

def accountItem (e : (List UInt8 × IdNumber) × Nat) : PyObj × PyObj :=
  (.str ((Text.decode e.1.1).getD []), .id e.2 .accountId e.1.2)

def setdefaultAccount (d : PyDict PyObj) (v : List UInt8 × IdNumber) :
    Call PyWorld (PyDict PyObj) := do
  let key ← build (.ofExcept (PyObj.ofString v.1))
  let mapped ← newId .accountId v.2
  return d.setdefault key mapped

theorem setdefaultAccount_run {d : PyDict PyObj} {v : List UInt8 × IdNumber} {s : List CodePoint}
    (hs : Text.decode v.1 = some s) (i : Interp) (w : PyWorld) :
    (setdefaultAccount d v).run ⟨i, w⟩ =
      .ok (d.setdefault (.str s) (.id w.next .accountId v.2)) ⟨i, { w with next := w.next + 1 }⟩ := by
  have hkey : PyObj.ofString v.1 = .ok (.str s) := by
    unfold PyObj.ofString
    rw [hs]
  unfold setdefaultAccount
  rw [hkey, run_bind_ok (build_ofExcept_ok _ _)]
  rfl

theorem same_str_of_ne {s s' : List CodePoint} (h : s ≠ s') :
    PyObject.same (PyObj.str s) (PyObj.str s') = false := by
  simp [PyObject.same, PyObj.sameKey, PyObj.addr?, PyObj.asInt?, h]

theorem decode_injective {bs bs' : List UInt8} {s : List CodePoint} (h : Text.decode bs = some s)
    (h' : Text.decode bs' = some s) : bs = bs' := by
  have := Text.encode_decode h
  rw [Text.encode_decode h'] at this
  exact (Option.some.inj this).symm

theorem foldlM_setdefaultAccount_run (i : Interp) :
    ∀ (es : List (List UInt8 × IdNumber)) (d : PyDict PyObj) (w : PyWorld),
      (∀ e ∈ es, (Text.decode e.1).isSome) → (es.map Prod.fst).Nodup →
      (∀ it ∈ d.items, ∃ bs s, Text.decode bs = some s ∧ it.1 = .str s ∧ bs ∉ es.map Prod.fst) →
      ∃ d', (es.foldlM setdefaultAccount d).run ⟨i, w⟩ =
          .ok d' ⟨i, { w with next := w.next + es.length }⟩ ∧
        d'.items = d.items ++ (es.zipIdx w.next).map accountItem
  | [], d, w, _, _, _ => ⟨d, rfl, (List.append_nil _).symm⟩
  | v :: es, d, w, hdec, hnodup, hold => by
    obtain ⟨s, hs⟩ := Option.isSome_iff_exists.mp (hdec v List.mem_cons_self)
    obtain ⟨hv, hes⟩ := List.nodup_cons.mp hnodup
    have hitems : (d.setdefault (.str s) (.id w.next .accountId v.2)).items =
        d.items ++ [(.str s, .id w.next .accountId v.2)] := by
      apply PyDict.setdefault_items
      intro it hit
      obtain ⟨bs, s', hs', hkey, hbs⟩ := hold it hit
      rw [hkey]
      apply same_str_of_ne
      rintro rfl
      exact hbs (by rw [decode_injective hs' hs]; exact List.mem_cons_self)
    obtain ⟨d', hrun, hd'⟩ := foldlM_setdefaultAccount_run i es
      (d.setdefault (.str s) (.id w.next .accountId v.2)) { w with next := w.next + 1 }
      (fun e he => hdec e (.tail _ he)) hes (by
        intro it hit
        rw [hitems, List.mem_append, List.mem_singleton] at hit
        rcases hit with hit | rfl
        · obtain ⟨bs, s', hs', hkey, hbs⟩ := hold it hit
          exact ⟨bs, s', hs', hkey, fun h => hbs (.tail _ h)⟩
        · exact ⟨v.1, s, hs, rfl, hv⟩)
    refine ⟨d', ?_, ?_⟩
    · rw [List.foldlM_cons, run_bind_ok (setdefaultAccount_run hs i w), hrun, List.length_cons,
        Nat.add_comm es.length 1, ← Nat.add_assoc]
    · rw [hd', hitems, List.zipIdx_cons, List.map_cons, List.append_assoc, accountItem, hs]
      rfl

/-- A name that is no UTF-8 ends the loop; the objects made until then are lost. -/
theorem foldlM_setdefaultAccount_run_error (i : Interp) :
    ∀ (es : List (List UInt8 × IdNumber)) (d : PyDict PyObj) (w : PyWorld),
      (∃ e ∈ es, Text.decode e.1 = none) →
      ∃ k, (es.foldlM setdefaultAccount d).run ⟨i, w⟩ =
        .error .unicodeDecodeError ⟨i, { w with next := w.next + k }⟩
  | [], _, _, h => by simp at h
  | v :: es, d, w, h => by
    rw [List.foldlM_cons]
    cases hv : Text.decode v.1 with
    | none =>
      have hrun : (setdefaultAccount d v).run ⟨i, w⟩ = .error .unicodeDecodeError ⟨i, w⟩ := by
        unfold setdefaultAccount PyObj.ofString
        rw [hv]
        rfl
      exact ⟨0, run_bind_error hrun⟩
    | some s =>
      have hes : ∃ e ∈ es, Text.decode e.1 = none := by
        obtain ⟨e, he, hnone⟩ := h
        rcases List.mem_cons.mp he with rfl | he
        · rw [hv] at hnone
          cases hnone
        · exact ⟨e, he, hnone⟩
      obtain ⟨k, hk⟩ := foldlM_setdefaultAccount_run_error i es
        (d.setdefault (.str s) (.id w.next .accountId v.2)) { w with next := w.next + 1 } hes
      refine ⟨1 + k, ?_⟩
      rw [run_bind_ok (setdefaultAccount_run hv i w), hk, Nat.add_assoc]

theorem nodup_names (m : AccountMap) : (m.toList.map Prod.fst).Nodup := by
  apply List.pairwise_map.mpr
  apply m.ascending.imp
  intro e e' hlt heq
  rw [heq] at hlt
  exact lt_irrefl _ hlt

theorem accountsToDict_run (m : AccountMap) (hdec : ∀ e ∈ m.toList, (Text.decode e.1).isSome)
    (i : Interp) (w : PyWorld) :
    ∃ d, (accountsToDict m).run ⟨i, w⟩ = .ok d ⟨i, { w with next := w.next + m.toList.length }⟩ ∧
      d.items = (m.toList.zipIdx w.next).map accountItem :=
  foldlM_setdefaultAccount_run i m.toList PyDict.empty w hdec (nodup_names m)
    (fun it h => by cases h)

/-! ## The text of an id -/

section
variable (T : ObjectIdType)

theorem str_eq (n : IdNumber) : ∃ s, ObjectId.str T n = .ok (.str s) ∧
    Text.encode s = some (T.toString n) := by
  refine ⟨(dotted [(T.space n).val, (T.type n).val, (T.inst n).val]).map Text.ofChar, ?_, ?_⟩
  · unfold ObjectId.str
    rw [T.toString_dotted]
    exact PyObj.ofString_of_encode (Text.encode_ofChar _)
  · rw [T.toString_dotted]
    exact Text.encode_ofChar _

theorem ofString_toString (n : IdNumber) : T.ofString (T.toString n) = .ok n := by
  have hinst : (T.inst n).val < 2 ^ 48 := by
    rw [T.inst_val]
    omega
  obtain ⟨m, hmake, hm⟩ := T.make_packs (T.space n) (T.type n) (T.inst n) hinst
  rw [T.toString_dotted, T.ofString_dotted _ _ _ hinst, hmake]
  congr 1
  apply Fin.ext
  rw [hm, T.space_val, T.type_val, T.inst_val]
  omega

end

/-! ## The lines -/

section
variable (intToDouble : ℤ → Conversion Double) (toString : Double → Decimal)
  (keyToString : PublicKey → List UInt8) (N : AccountReplies) (T : ObjectIdType)

def accountLine (asked : List Request) (e : List UInt8 × IdNumber) :
    Except PyErr (List CodePoint) := do
  let balances ← N.balances asked (balancesRequest T e.2)
  let amounts ← balances.mapM fun b => PyObj.ofString b.prettyAmount
  return line (.str ((Text.decode e.1).getD [])) amounts

/-- The lines of accounts that are asked for in turn behind `asked`. -/
inductive Printed : List Request → List (List UInt8 × IdNumber) → List (List CodePoint) → Prop
  | nil (asked : List Request) : Printed asked [] []
  | cons {asked : List Request} {e : List UInt8 × IdNumber} {es : List (List UInt8 × IdNumber)}
    {l : List CodePoint} {ls : List (List CodePoint)} (h : accountLine N T asked e = .ok l)
    (hs : Printed (asked ++ [balancesRequest T e.2]) es ls) : Printed asked (e :: es) (l :: ls)

theorem mapM_build_run {C α β : Type} (f : α → Except PyErr β) (b : Bound C) :
    ∀ l : List α, (l.mapM fun a => (build (.ofExcept (f a)) : Call C β)).run b = ended (l.mapM f) b
  | [] => rfl
  | a :: l => by
    rw [List.mapM_cons, List.mapM_cons]
    cases ha : f a with
    | error e =>
      have herror : (build (.ofExcept (.error e)) : Call C β).run b = .error e b := rfl
      rw [run_bind_error herror]
      rfl
    | ok x =>
      rw [run_bind_ok (build_ofExcept_ok x b)]
      have ih := mapM_build_run f b l
      cases hl : l.mapM f with
      | error e =>
        rw [hl] at ih
        rw [run_bind_error ih]
        rfl
      | ok xs =>
        rw [hl] at ih
        rw [run_bind_ok ih]
        rfl

theorem dumpAccount_run (e : (List UInt8 × IdNumber) × Nat) (i : Interp) (w : PyWorld) :
    (dumpAccount intToDouble toString keyToString N T (accountItem e)).run ⟨i, w⟩ =
      match accountLine N T w.asked e.1 with
      | .ok l => .ok () ⟨i, { w with
          asked := w.asked ++ [balancesRequest T e.1.2], printed := w.printed ++ [l] }⟩
      | .error err => .error err ⟨i, { w with asked := w.asked ++ [balancesRequest T e.1.2] }⟩ := by
  obtain ⟨s, hs, henc⟩ := str_eq T e.1.2
  have hname : pyStr T (accountItem e).1 = .ok (accountItem e).1 := rfl
  have hid : pyStr T (accountItem e).2 = .ok (.str s) := hs
  have hbalances : (listAccountBalances intToDouble toString keyToString N (.str s)).run ⟨i, w⟩ =
      ended (N.balances w.asked (balancesRequest T e.1.2))
        ⟨i, { w with asked := w.asked ++ [balancesRequest T e.1.2] }⟩ :=
    listAccountBalances_run intToDouble toString keyToString N henc i w
  unfold dumpAccount accountLine
  rw [hname, hid, run_bind_ok (build_ofExcept_ok _ _), run_bind_ok (build_ofExcept_ok _ _)]
  cases hx : N.balances w.asked (balancesRequest T e.1.2) with
  | error err =>
    rw [hx] at hbalances
    rw [run_bind_error hbalances]
    rfl
  | ok balances =>
    rw [hx] at hbalances
    have hamounts := mapM_build_run (fun b : ExtendedAsset => PyObj.ofString b.prettyAmount)
      (⟨i, { w with asked := w.asked ++ [balancesRequest T e.1.2] }⟩ : Bound PyWorld) balances
    rw [run_bind_ok hbalances]
    cases ha : balances.mapM fun b => PyObj.ofString b.prettyAmount with
    | error err =>
      rw [ha] at hamounts
      rw [run_bind_error hamounts]
      simp only [ha, bind, Except.bind]
    | ok amounts =>
      rw [ha] at hamounts
      rw [run_bind_ok hamounts]
      simp only [ha, bind, Except.bind]
      rfl

theorem forM_dumpAccount_run {i : Interp} {b : Bound PyWorld} :
    ∀ {es : List ((List UInt8 × IdNumber) × Nat)} {w : PyWorld},
      ((es.map accountItem).forM (dumpAccount intToDouble toString keyToString N T)).run ⟨i, w⟩ =
        .ok () b →
      ∃ lines, Printed N T w.asked (es.map Prod.fst) lines ∧
        b = ⟨i, { w with
          asked := w.asked ++ (es.map Prod.fst).map fun e => balancesRequest T e.2
          printed := w.printed ++ lines }⟩
  | [], w, h => by
    cases h
    exact ⟨[], .nil _, by simp⟩
  | e :: es, w, h => by
    have hcons : ((e :: es).map accountItem).forM (dumpAccount intToDouble toString keyToString N T) =
        (do dumpAccount intToDouble toString keyToString N T (accountItem e)
            (es.map accountItem).forM (dumpAccount intToDouble toString keyToString N T)) := rfl
    have hrun := dumpAccount_run intToDouble toString keyToString N T e i w
    rw [hcons] at h
    cases hl : accountLine N T w.asked e.1 with
    | error err =>
      rw [hl] at hrun
      rw [run_bind_error hrun] at h
      cases h
    | ok l =>
      rw [hl] at hrun
      rw [run_bind_ok hrun] at h
      obtain ⟨lines, hlines, rfl⟩ := forM_dumpAccount_run h
      exact ⟨l :: lines, .cons hl hlines, by simp⟩

theorem exists_dumped (es : List ((List UInt8 × IdNumber) × Nat)) (i : Interp) (w : PyWorld) :
    ∃ done rest lines out, es.map Prod.fst = done ++ rest ∧ Printed N T w.asked done lines ∧
      ((es.map accountItem).forM (dumpAccount intToDouble toString keyToString N T)).run ⟨i, w⟩ =
        ended out ⟨i, ⟨w.next,
          w.asked ++ (done ++ rest.take 1).map fun e => balancesRequest T e.2,
          w.printed ++ lines⟩⟩ ∧
      (out = .ok () ∧ rest = [] ∨ ∃ e err, rest.head? = some e ∧ out = .error err ∧
        accountLine N T (w.asked ++ done.map fun e => balancesRequest T e.2) e = .error err) := by
  obtain ⟨done, rest, b, hes, hdone, hrest⟩ :=
    exists_forM_run (dumpAccount intToDouble toString keyToString N T) (es.map accountItem) ⟨i, w⟩
  obtain ⟨es₁, es₂, rfl, rfl, rfl⟩ := List.map_eq_append_iff.mp hes
  obtain ⟨lines, hlines, rfl⟩ := forM_dumpAccount_run intToDouble toString keyToString N T hdone
  refine ⟨es₁.map Prod.fst, es₂.map Prod.fst, lines, ?_⟩
  rcases hrest with ⟨hnil, hrun⟩ | ⟨it, rest', err, b', hcons, hit, hrun⟩
  · have hes₂ : es₂ = [] := List.map_eq_nil_iff.mp hnil
    subst hes₂
    exact ⟨.ok (), List.map_append, hlines, by rw [hrun]; simp [ended], .inl ⟨rfl, rfl⟩⟩
  · obtain ⟨e, es₃, rfl, rfl, rfl⟩ := List.map_eq_cons_iff.mp hcons
    rw [dumpAccount_run] at hit
    cases hl : accountLine N T
        (w.asked ++ (es₁.map Prod.fst).map fun e => balancesRequest T e.2) e.1 with
    | ok l =>
      simp only [hl] at hit
      cases hit
    | error err' =>
      simp only [hl] at hit
      cases hit
      exact ⟨.error err, List.map_append, hlines, by rw [hrun]; simp [ended],
        .inr ⟨e.1, err, rfl, rfl, hl⟩⟩

section
variable {i : Interp} {w : PyWorld} {n : Fin (2 ^ 64)}

theorem dumpAccountsBalances_run_bind (hcount : N.accountCount w.asked countRequest = .ok n) :
    (dumpAccountsBalances intToDouble toString keyToString N T).run ⟨i, w⟩ =
      (do let accounts ← lookupAccounts intToDouble toString keyToString N (.str []) (.int n.val)
          accounts.items.forM (dumpAccount intToDouble toString keyToString N T)).run
        ⟨i, { w with asked := w.asked ++ [countRequest] }⟩ := by
  have hcountRun := getAccountCount_run intToDouble toString keyToString N i w
  rw [hcount] at hcountRun
  unfold dumpAccountsBalances
  rw [run_bind_ok hcountRun]

theorem dumpAccountsBalances_run_overflow
    (hcount : N.accountCount w.asked countRequest = .ok n) (hn : 2 ^ 32 ≤ n.val) :
    (dumpAccountsBalances intToDouble toString keyToString N T).run ⟨i, w⟩ =
      .error .overflowError ⟨i, { w with asked := w.asked ++ [countRequest] }⟩ := by
  have hlookup := lookupAccounts_request_error intToDouble toString keyToString N hn i
    { w with asked := w.asked ++ [countRequest] }
  rw [dumpAccountsBalances_run_bind intToDouble toString keyToString N T hcount]
  apply run_bind_error
  unfold lookupAccounts
  exact run_bind_error hlookup

theorem dumpAccountsBalances_run_error {e : PyErr}
    (hcount : N.accountCount w.asked countRequest = .ok n) (hn : n.val < 2 ^ 32)
    (haccounts : N.accounts (w.asked ++ [countRequest]) (lookupRequest n.val) = .error e) :
    (dumpAccountsBalances intToDouble toString keyToString N T).run ⟨i, w⟩ =
      .error e ⟨i, { w with asked := w.asked ++ [countRequest, lookupRequest n.val] }⟩ := by
  have hlookup := lookupAccounts_request_run intToDouble toString keyToString N hn i
    { w with asked := w.asked ++ [countRequest] }
  rw [haccounts, List.append_assoc] at hlookup
  rw [dumpAccountsBalances_run_bind intToDouble toString keyToString N T hcount]
  apply run_bind_error
  unfold lookupAccounts
  exact run_bind_error hlookup

variable {accounts : AccountMap}

theorem lookupAccounts_run_bind (hn : n.val < 2 ^ 32)
    (haccounts : N.accounts (w.asked ++ [countRequest]) (lookupRequest n.val) = .ok accounts) :
    (lookupAccounts intToDouble toString keyToString N (.str []) (.int n.val)).run
        ⟨i, { w with asked := w.asked ++ [countRequest] }⟩ =
      (accountsToDict accounts).run
        ⟨i, { w with asked := w.asked ++ [countRequest, lookupRequest n.val] }⟩ := by
  have hlookup := lookupAccounts_request_run intToDouble toString keyToString N hn i
    { w with asked := w.asked ++ [countRequest] }
  rw [haccounts, List.append_assoc] at hlookup
  unfold lookupAccounts
  rw [run_bind_ok hlookup]
  rfl

theorem dumpAccountsBalances_run_name (hcount : N.accountCount w.asked countRequest = .ok n)
    (hn : n.val < 2 ^ 32)
    (haccounts : N.accounts (w.asked ++ [countRequest]) (lookupRequest n.val) = .ok accounts)
    (hname : ∃ e ∈ accounts.toList, Text.decode e.1 = none) :
    ∃ k, (dumpAccountsBalances intToDouble toString keyToString N T).run ⟨i, w⟩ =
      .error .unicodeDecodeError ⟨i, ⟨w.next + k,
        w.asked ++ [countRequest, lookupRequest n.val], w.printed⟩⟩ := by
  obtain ⟨k, hdict⟩ := foldlM_setdefaultAccount_run_error i accounts.toList PyDict.empty
    { w with asked := w.asked ++ [countRequest, lookupRequest n.val] } hname
  refine ⟨k, ?_⟩
  rw [dumpAccountsBalances_run_bind intToDouble toString keyToString N T hcount]
  apply run_bind_error
  rw [lookupAccounts_run_bind intToDouble toString keyToString N hn haccounts]
  exact hdict

theorem dumpAccountsBalances_eq (hcount : N.accountCount w.asked countRequest = .ok n)
    (hn : n.val < 2 ^ 32)
    (haccounts : N.accounts (w.asked ++ [countRequest]) (lookupRequest n.val) = .ok accounts)
    (hnames : ∀ e ∈ accounts.toList, (Text.decode e.1).isSome) :
    (dumpAccountsBalances intToDouble toString keyToString N T).run ⟨i, w⟩ =
      (((accounts.toList.zipIdx w.next).map accountItem).forM
        (dumpAccount intToDouble toString keyToString N T)).run
          ⟨i, ⟨w.next + accounts.toList.length, w.asked ++ [countRequest, lookupRequest n.val],
            w.printed⟩⟩ := by
  obtain ⟨d, hdict, hitems⟩ := accountsToDict_run accounts hnames i
    { w with asked := w.asked ++ [countRequest, lookupRequest n.val] }
  have hlookup := lookupAccounts_run_bind intToDouble toString keyToString N (i := i) hn haccounts
  rw [hdict] at hlookup
  rw [dumpAccountsBalances_run_bind intToDouble toString keyToString N T hcount,
    run_bind_ok hlookup, hitems]

end

/-- The dump prints the lines of the accounts in the order of their names and
asks for the balances of each once, under a text that stands for its id, until
a listing fails: then that account is the last that was asked for, and the lines
of those before it are printed. Nothing is printed and no balances are asked for
when the count or the lookup fails, when there are more accounts than the limit
can hold, and when a name is no UTF-8. -/
theorem dump_prints_accounts_in_order (w : PyWorld) (i : Interp) :
    (∀ e, N.accountCount w.asked countRequest = .error e →
      (dumpAccountsBalances intToDouble toString keyToString N T).run ⟨i, w⟩ =
        .error e ⟨i, { w with asked := w.asked ++ [countRequest] }⟩) ∧
    ∀ n : Fin (2 ^ 64), N.accountCount w.asked countRequest = .ok n →
    (2 ^ 32 ≤ n.val → (dumpAccountsBalances intToDouble toString keyToString N T).run ⟨i, w⟩ =
      .error .overflowError ⟨i, { w with asked := w.asked ++ [countRequest] }⟩) ∧
    (n.val < 2 ^ 32 →
      (∀ e, N.accounts (w.asked ++ [countRequest]) (lookupRequest n.val) = .error e →
        (dumpAccountsBalances intToDouble toString keyToString N T).run ⟨i, w⟩ =
          .error e ⟨i, { w with asked := w.asked ++ [countRequest, lookupRequest n.val] }⟩) ∧
      ∀ accounts : AccountMap,
        N.accounts (w.asked ++ [countRequest]) (lookupRequest n.val) = .ok accounts →
        ((∃ e ∈ accounts.toList, Text.decode e.1 = none) →
          ∃ k, (dumpAccountsBalances intToDouble toString keyToString N T).run ⟨i, w⟩ =
            .error .unicodeDecodeError ⟨i, ⟨w.next + k,
              w.asked ++ [countRequest, lookupRequest n.val], w.printed⟩⟩) ∧
        ((∀ e ∈ accounts.toList, (Text.decode e.1).isSome) →
          ∃ done rest lines out, accounts.toList = done ++ rest ∧
            Printed N T (w.asked ++ [countRequest, lookupRequest n.val]) done lines ∧
            (dumpAccountsBalances intToDouble toString keyToString N T).run ⟨i, w⟩ =
              ended out ⟨i, ⟨w.next + accounts.toList.length,
                w.asked ++ [countRequest, lookupRequest n.val] ++
                  (done ++ rest.take 1).map fun e => balancesRequest T e.2,
                w.printed ++ lines⟩⟩ ∧
            (out = .ok () ∧ rest = [] ∨ ∃ e err, rest.head? = some e ∧ out = .error err ∧
              accountLine N T (w.asked ++ [countRequest, lookupRequest n.val] ++
                done.map fun e => balancesRequest T e.2) e = .error err) ∧
            ∀ e ∈ accounts.toList, T.ofString (T.toString e.2) = .ok e.2)) := by
  refine ⟨?_, ?_⟩
  · intro e hcount
    have hcountRun := getAccountCount_run intToDouble toString keyToString N i w
    rw [hcount] at hcountRun
    unfold dumpAccountsBalances
    exact run_bind_error hcountRun
  · intro n hcount
    refine ⟨dumpAccountsBalances_run_overflow intToDouble toString keyToString N T hcount, ?_⟩
    intro hn
    refine ⟨fun e => dumpAccountsBalances_run_error intToDouble toString keyToString N T hcount hn, ?_⟩
    intro accounts haccounts
    refine ⟨dumpAccountsBalances_run_name intToDouble toString keyToString N T hcount hn haccounts, ?_⟩
    intro hnames
    obtain ⟨done, rest, lines, out, hsplit, hlines, hrun, hout⟩ :=
      exists_dumped intToDouble toString keyToString N T (accounts.toList.zipIdx w.next) i
        ⟨w.next + accounts.toList.length, w.asked ++ [countRequest, lookupRequest n.val], w.printed⟩
    rw [List.zipIdx_map_fst] at hsplit
    refine ⟨done, rest, lines, out, hsplit, hlines, ?_, hout, fun e _ => ofString_toString T e.2⟩
    rw [dumpAccountsBalances_eq intToDouble toString keyToString N T hcount hn haccounts hnames, hrun]

end

def twoAccounts : AccountMap :=
  (OrderedSet.empty.insert (Text.utf8 "alice".toList, 1)).insert (Text.utf8 "bob".toList, 2)

def twoReplies : AccountReplies where
  accountCount _ _ := .ok 2
  accounts _ _ := .ok twoAccounts
  balances asked _ :=
    if asked.length = 2 then .ok [⟨Text.utf8 "5 DCT".toList⟩] else .error .runtimeError

theorem dump_prints_accounts_in_order_two :
    ∃ done rest lines out, twoAccounts.toList = done ++ rest ∧
      (dumpAccountsBalances (fun _ => .raised .typeError) (fun _ => ⟨0, 0⟩) (fun _ => []) twoReplies
        packedObjectIdType).run ⟨{}, ⟨0, [], []⟩⟩ =
          ended out ⟨{}, ⟨2, [countRequest, lookupRequest 2] ++
            (done ++ rest.take 1).map fun e => balancesRequest packedObjectIdType e.2, lines⟩⟩ := by
  have hnames : ∀ e ∈ twoAccounts.toList, (Text.decode e.1).isSome := by
    have hlist : twoAccounts.toList =
        [(Text.utf8 "alice".toList, 1), (Text.utf8 "bob".toList, 2)] := by decide
    rw [hlist]
    simp only [List.forall_mem_cons, Text.decode_utf8]
    simp
  have hcount := (dump_prints_accounts_in_order (fun _ => .raised .typeError) (fun _ => ⟨0, 0⟩)
    (fun _ => []) twoReplies packedObjectIdType ⟨0, [], []⟩ {}).2 2 rfl
  have haccounts := (hcount.2 (by decide)).2 twoAccounts rfl
  obtain ⟨done, rest, lines, out, hsplit, -, hrun, -⟩ := haccounts.2 hnames
  exact ⟨done, rest, lines, out, hsplit, hrun⟩

end DCore
