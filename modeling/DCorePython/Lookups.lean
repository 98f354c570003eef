import DCorePython.WalletRuns

/-!
# Lookups by lists of ids

Five methods of the wallet look up many objects with one question. When the
interface answers id by id, such a method gives what a loop over the ids gives,
an object or None in the place of each; but it converts all ids before it asks,
and the loop asks for those in front of one that cannot be converted.
-/

namespace DCore

open Loop Call

section
variable {Obj α : Type}

theorem forall₂_values {extract : Obj → Conversion α} :
    ∀ {l : List Obj}, (∀ o ∈ l, convertible extract o = true) →
      List.Forall₂ (fun o n => (extract o).value? = some n) l (values extract l)
  | [], _ => .nil
  | o :: l, h => by
    obtain ⟨ho, hl⟩ := List.forall_mem_cons.mp h
    obtain ⟨n, hn⟩ := exists_value ho
    rw [values_cons hn]
    exact .cons hn (forall₂_values hl)

variable [PyNone Obj]

def toOptionalList (toPython : α → Obj) (container : List (Option α)) : List Obj :=
  container.foldl (fun l v =>
    match v with
    | some x => l ++ [toPython x]
    | none => l ++ [PyNone.none]) []

def orNone (toPython : α → Obj) (v : Option α) : Obj := (v.map toPython).getD PyNone.none

theorem toOptionalList_eq (toPython : α → Obj) (container : List (Option α)) :
    toOptionalList toPython container = container.map (orNone toPython) := by
  have hstep : (fun (l : List Obj) (v : Option α) =>
      match v with
      | some x => l ++ [toPython x]
      | none => l ++ [PyNone.none]) = fun l v => l ++ [orNone toPython v] := by
    funext l v
    cases v <;> rfl
  unfold toOptionalList
  rw [hstep, List.map_eq_flatMap]
  exact List.foldl_append_eq_append (f := fun v => [orNone toPython v])

end

/-! ## The methods -/

structure BatchLookup where
  name : String
  elem : ElementType
  api : DbApi

def batchLookups : List BatchLookup :=
  [⟨"get_accounts", .id .accountId, .getAccounts⟩,
    ⟨"get_assets", .id .assetId, .getAssets⟩,
    ⟨"get_miners", .id .minerId, .getMiners⟩,
    ⟨"list_votes", .voteId, .lookupVoteIds⟩,
    ⟨"get_non_fungible_tokens", .id .nonFungibleTokenId, .getNonFungibleTokens⟩]

namespace BatchLookup

def call (q : BatchLookup) (ids : List WalletItem) : MethodCall := ⟨q.name, [.list ids], []⟩

def request (q : BatchLookup) (ids : List WalletItem) : Request :=
  ⟨.query q.api, [.vector (values q.elem.extract ids)]⟩

variable {q : BatchLookup}

theorem findMethod_name (hq : q ∈ batchLookups) :
    findMethod q.name =
      some ⟨q.name, [MethodParam.required (.vector q.elem) "ids"], .query q.api⟩ := by
  simp only [batchLookups, List.mem_cons, List.not_mem_nil, or_false] at hq
  rcases hq with rfl | rfl | rfl | rfl | rfl <;> rfl

theorem leaves_extract (hq : q ∈ batchLookups) (o : WalletItem) :
    (q.elem.extract o).leaves = none := by
  have hid : ∀ cls, (ElementType.extract (.id cls) o).leaves = none := by
    intro cls
    cases o with
    | value cls' n => rfl
    | py o =>
      cases o with
      | id a c n =>
        simp only [ElementType.extract, PyObj.extractId]
        split_ifs <;> rfl
      | _ => rfl
  have hvote : (ElementType.extract .voteId o).leaves = none := by
    cases o with
    | value cls n => rfl
    | py o => cases o <;> rfl
  simp only [batchLookups, List.mem_cons, List.not_mem_nil, or_false] at hq
  rcases hq with rfl | rfl | rfl | rfl | rfl
  · exact hid .accountId
  · exact hid .assetId
  · exact hid .minerId
  · exact hvote
  · exact hid .nonFungibleTokenId

theorem leaveAll_extract (hq : q ∈ batchLookups) (ids : List WalletItem) (i : Interp) :
    leaveAll q.elem.extract ids i = i := by
  induction ids with
  | nil => rfl
  | cons id ids ih =>
    show (leaveAll q.elem.extract ids i).leave (q.elem.extract id).leaves = i
    rw [ih, leaves_extract hq]
    rfl

section
variable (intToDouble : ℤ → Conversion Double) (toString : Double → Decimal)
  (keyToString : PublicKey → List UInt8)

theorem prepare_run_ok {ids : List WalletItem} {i i' : Interp} {found : List ApiItem}
    (h : (vectorFromList q.elem.extract ids).run i = .ok found i') :
    ((⟨q.name, [.required (.vector q.elem) "ids"], .query q.api⟩ : WalletMethod).prepare
      intToDouble toString keyToString (q.call ids)).run i = .ok [.vector found] i' := by
  have hconvert : (MethodArg.vector q.elem ids).convert.run i = .ok (.vector found) i' := by
    show (ApiArg.vector <$> vectorFromList q.elem.extract ids).run i = _
    rw [← bind_pure_comp, run_bind_ok h]
    rfl
  have hmap : ([MethodArg.vector q.elem ids].mapM MethodArg.convert).run i =
      .ok [.vector found] i' := by
    rw [List.mapM_cons, run_bind_ok hconvert]
    rfl
  exact hmap

theorem prepare_run_error {ids : List WalletItem} {i i' : Interp} {e : PyErr}
    (h : (vectorFromList q.elem.extract ids).run i = .error e i') :
    ((⟨q.name, [.required (.vector q.elem) "ids"], .query q.api⟩ : WalletMethod).prepare
      intToDouble toString keyToString (q.call ids)).run i = .error e i' := by
  have hconvert : (MethodArg.vector q.elem ids).convert.run i = .error e i' := by
    show (ApiArg.vector <$> vectorFromList q.elem.extract ids).run i = _
    rw [← bind_pure_comp, run_bind_error h]
  have hmap : ([MethodArg.vector q.elem ids].mapM MethodArg.convert).run i = .error e i' := by
    rw [List.mapM_cons, run_bind_error hconvert]
  exact hmap

/-! ## One question or many -/

variable {Obj A : Type} [PyNone Obj] (toPython : A → Obj)
  (reply : List Request → Request → Except PyErr (List (Option A)))

/-- `wallet.get_...s(ids)` -/
def getAll (q : BatchLookup) (ids : List WalletItem) : Call (List Request) (List Obj) := do
  let found ← perform intToDouble toString keyToString reply (q.call ids)
  return toOptionalList toPython found

/-- `[o for id in ids for o in wallet.get_...s([id])]` -/
def getEach (q : BatchLookup) : List WalletItem → Call (List Request) (List Obj)
  | [] => pure []
  | id :: ids => do
    let o ← getAll intToDouble toString keyToString toPython reply q [id]
    let os ← getEach q ids
    return o ++ os

/-- The interface answers id by id. -/
def Answers (q : BatchLookup) (f : ApiItem → Option A) : Prop :=
  ∀ asked items, reply asked ⟨.query q.api, [.vector items]⟩ = .ok (items.map f)

variable {reply} {f : ApiItem → Option A}

theorem getAll_run_ok (hq : q ∈ batchLookups) (hf : Answers reply q f) {ids : List WalletItem}
    (hids : ∀ id ∈ ids, convertible q.elem.extract id = true) (asked : List Request) :
    (getAll intToDouble toString keyToString toPython reply q ids).run ⟨{}, asked⟩ =
      .ok ((values q.elem.extract ids).map fun n => orNone toPython (f n))
        ⟨{}, asked ++ [q.request ids]⟩ := by
  have hvector := vectorFromList_run q.elem.extract hids {}
  rw [leaveAll_extract hq] at hvector
  have hrun := perform_run_ok intToDouble toString keyToString reply asked (findMethod_name hq)
    (prepare_run_ok intToDouble toString keyToString hvector)
  rw [hf] at hrun
  unfold getAll
  rw [run_bind_ok hrun, toOptionalList_eq, List.map_map]
  rfl

variable (reply) in
theorem getAll_run_error (hq : q ∈ batchLookups) {ids : List WalletItem}
    (hids : ∃ id ∈ ids, convertible q.elem.extract id = false) (asked : List Request) :
    ∃ e i, (getAll intToDouble toString keyToString toPython reply q ids).run ⟨{}, asked⟩ =
      .error e ⟨i, asked⟩ := by
  obtain ⟨e, i, hvector⟩ := vectorFromList_run_error q.elem.extract hids {}
  have hrun := perform_run_error intToDouble toString keyToString reply asked (findMethod_name hq)
    (prepare_run_error intToDouble toString keyToString hvector)
  exact ⟨e, i, run_bind_error hrun⟩

theorem getEach_run_ok (hq : q ∈ batchLookups) (hf : Answers reply q f) :
    ∀ {ids : List WalletItem}, (∀ id ∈ ids, convertible q.elem.extract id = true) →
      ∀ asked, (getEach intToDouble toString keyToString toPython reply q ids).run ⟨{}, asked⟩ =
        .ok ((values q.elem.extract ids).map fun n => orNone toPython (f n))
          ⟨{}, asked ++ ids.map fun id => q.request [id]⟩
  | [], _, asked => by
    rw [List.map_nil, List.append_nil]
    rfl
  | id :: ids, h, asked => by
    obtain ⟨hid, hids⟩ := List.forall_mem_cons.mp h
    obtain ⟨n, hn⟩ := exists_value hid
    have hone := getAll_run_ok intToDouble toString keyToString toPython hq hf
      (List.forall_mem_singleton.mpr hid) asked
    have ih := getEach_run_ok hq hf hids (asked ++ [q.request [id]])
    unfold getEach
    rw [run_bind_ok hone, run_bind_ok ih, values_cons hn, values_cons hn, List.map_cons,
      List.map_cons, List.append_assoc]
    rfl

theorem getEach_run_error (hq : q ∈ batchLookups) (hf : Answers reply q f) :
    ∀ {ids : List WalletItem}, (∃ id ∈ ids, convertible q.elem.extract id = false) →
      ∀ asked, ∃ e i,
        (getEach intToDouble toString keyToString toPython reply q ids).run ⟨{}, asked⟩ =
          .error e ⟨i, asked ++ (ids.takeWhile (convertible q.elem.extract)).map
            fun id => q.request [id]⟩
  | [], h, _ => by
    obtain ⟨id, hid, -⟩ := h
    cases hid
  | id :: ids, h, asked => by
    unfold getEach
    by_cases hid : convertible q.elem.extract id = true
    · have hids : ∃ id ∈ ids, convertible q.elem.extract id = false := by
        simpa [hid] using h
      have hone := getAll_run_ok intToDouble toString keyToString toPython hq hf
        (List.forall_mem_singleton.mpr hid) asked
      obtain ⟨e, i, ih⟩ := getEach_run_error hq hf hids (asked ++ [q.request [id]])
      refine ⟨e, i, ?_⟩
      rw [run_bind_ok hone, run_bind_error ih, List.takeWhile_cons_of_pos hid, List.map_cons,
        List.append_assoc]
      rfl
    · obtain ⟨e, i, hone⟩ := getAll_run_error intToDouble toString keyToString toPython reply
        hq ⟨id, List.mem_singleton_self id, by simpa using hid⟩ asked
      refine ⟨e, i, ?_⟩
      rw [run_bind_error hone, List.takeWhile_cons_of_neg hid, List.map_nil, List.append_nil]

def outcome {B : Type} (c : Call (List Request) B) (asked : List Request) :
    List Request × Except Fault B :=
  settle ((lift c).run ⟨{}, asked⟩)

/-- One question for all ids gives what a loop over the ids gives, with the
object or None for each id in its place. All ids are converted before the
question; the loop asks for each id in front of one that does not convert. -/
theorem batch_lookup_agrees (hq : q ∈ batchLookups) (hf : Answers reply q f)
    (ids : List WalletItem) (asked : List Request) :
    (∀ l, (outcome (getAll intToDouble toString keyToString toPython reply q ids) asked).2 = .ok l ↔
        (outcome (getEach intToDouble toString keyToString toPython reply q ids) asked).2 = .ok l) ∧
      (∀ l, (outcome (getAll intToDouble toString keyToString toPython reply q ids) asked).2 =
          .ok l →
        List.Forall₂ (fun id o => ∃ n, (q.elem.extract id).value? = some n ∧
          o = orNone toPython (f n)) ids l) ∧
      (outcome (getAll intToDouble toString keyToString toPython reply q ids) asked).1 =
        asked ++ (if ids.all (convertible q.elem.extract) then [q.request ids] else []) ∧
      (outcome (getEach intToDouble toString keyToString toPython reply q ids) asked).1 =
        asked ++ (ids.takeWhile (convertible q.elem.extract)).map fun id => q.request [id] := by
  unfold outcome
  by_cases hids : ∀ id ∈ ids, convertible q.elem.extract id = true
  · rw [lift_run_ok (getAll_run_ok intToDouble toString keyToString toPython hq hf hids asked),
      lift_run_ok (getEach_run_ok intToDouble toString keyToString toPython hq hf hids asked),
      if_pos (List.all_eq_true.mpr hids), List.takeWhile_eq_self_iff.mpr hids]
    refine ⟨fun l => Iff.rfl, ?_, rfl, rfl⟩
    intro l hl
    cases hl
    rw [List.forall₂_map_right_iff]
    refine (forall₂_values hids).imp ?_
    intro id n hn
    exact ⟨n, hn, rfl⟩
  · push Not at hids
    have hfail : ∃ id ∈ ids, convertible q.elem.extract id = false := by simpa using hids
    obtain ⟨e, i, hall⟩ := getAll_run_error intToDouble toString keyToString toPython reply hq
      hfail asked
    obtain ⟨e', i', heach⟩ := getEach_run_error intToDouble toString keyToString toPython hq hf
      hfail asked
    have hnone : ids.all (convertible q.elem.extract) = false := by simpa using hfail
    rw [lift_run_error hall, lift_run_error heach, hnone]
    refine ⟨?_, ?_, (List.append_nil asked).symm, rfl⟩
    · intro l
      exact ⟨nofun, nofun⟩
    · intro l hl
      cases hl

end

end BatchLookup

section

open BatchLookup

def soleAccount : ApiItem → Option ℕ
  | .id n => if n = 1 then some 7 else none
  | _ => none

def soleAccountReply (_ : List Request) (r : Request) : Except PyErr (List (Option ℕ)) :=
  match r.args with
  | [.vector items] => .ok (items.map soleAccount)
  | _ => .error .runtimeError

def getAccounts : BatchLookup := ⟨"get_accounts", .id .accountId, .getAccounts⟩

def accountIdItem (n : IdNumber) : WalletItem := .py (.id 0 .accountId n)

theorem batch_lookup_agrees_accounts :
    (outcome (getEach (fun _ => .raised .overflowError) (fun _ => ⟨0, 0⟩) (fun _ => [])
      (fun n : ℕ => PyObj.int n) soleAccountReply getAccounts
      [accountIdItem 2, accountIdItem 1]) []).2 = .ok [.none, .int 7] :=
  ((batch_lookup_agrees (fun _ => .raised .overflowError) (fun _ => ⟨0, 0⟩) (fun _ => [])
    (fun n : ℕ => PyObj.int n) (q := getAccounts) (f := soleAccount) List.mem_cons_self
    (fun _ _ => rfl) [accountIdItem 2, accountIdItem 1] []).1 _).mp rfl

end

end DCore
