import DCorePython.TokenData

/-!
# The wallet

The wallet's methods convert their arguments and then hand them to the wallet
interface on its own thread. What the conversion lets through is submitted.
-/

namespace DCore

open Loop Call

/-! ## `vector_from_list` -/

section
variable {Obj α : Type} [Inhabited α]

/-- The loop of `decode_list`, on a local vector. -/
def vectorFromList (extract : Obj → Conversion α) (l : List Obj) : EStateM PyErr Interp (List α) :=
  withLocal [] (decodeList extract Member.self l)

theorem vectorFromList_run (extract : Obj → Conversion α) {l : List Obj}
    (hl : ∀ o ∈ l, convertible extract o = true) (i : Interp) :
    (vectorFromList extract l).run i = .ok (values extract l) (leaveAll extract l i) :=
  withLocal_run (decodeList_run extract Member.self hl ⟨i, []⟩)

theorem vectorFromList_run_error (extract : Obj → Conversion α) {l : List Obj}
    (hl : ∃ o ∈ l, convertible extract o = false) (i : Interp) :
    ∃ e i', (vectorFromList extract l).run i = .error e i' := by
  obtain ⟨l₁, o, e, -, -, hrun⟩ := decodeList_failed extract Member.self hl ⟨i, []⟩
  exact ⟨e, _, withLocal_run_error hrun⟩

end

/-! ## Calls to the wallet interface -/

/-- A decimal numeral: its digits as one number and how many of them stand
behind the point. -/
structure Decimal where
  digits : ℤ
  decimals : ℕ

inductive WalletCall
  | transfer (sender receiver : List UInt8) (amount : Decimal) (symbol memo : List UInt8)
      (broadcast : Bool)
  | issueAsset (account : List UInt8) (amount : Decimal) (symbol memo : List UInt8)
      (broadcast : Bool)
  | fundAssetPools (account : List UInt8) (uiaAmount : Decimal) (uiaSymbol : List UInt8)
      (dctAmount : Decimal) (dctSymbol : List UInt8) (broadcast : Bool)
  | reserveAsset (account : List UInt8) (amount : Decimal) (symbol : List UInt8)
      (broadcast : Bool)
  | claimFees (uiaAmount : Decimal) (uiaSymbol : List UInt8) (dctAmount : Decimal)
      (dctSymbol : List UInt8) (broadcast : Bool)
  | withdrawVesting (miner : List UInt8) (amount : Decimal) (symbol : List UInt8)
      (broadcast : Bool)
  | issueNonFungibleToken (account symbol : List UInt8) (data : List Variant)
      (memo : List UInt8) (broadcast : Bool)

structure WalletState where
  interp : Interp := {}
  calls : List WalletCall := []

namespace Wallet

variable {R : Type}

def onInterp {α : Type} (c : EStateM PyErr Interp α) : EStateM PyErr WalletState α := fun w =>
  match c.run w.interp with
  | .ok a i => .ok a { w with interp := i }
  | .error e i => .error e { w with interp := i }

theorem onInterp_run_ok {α : Type} {c : EStateM PyErr Interp α} {w : WalletState} {a : α}
    {i : Interp} (h : c.run w.interp = .ok a i) :
    (onInterp c).run w = .ok a { w with interp := i } := by
  show onInterp c w = _
  unfold onInterp
  rw [h]

theorem onInterp_run_error {α : Type} {c : EStateM PyErr Interp α} {w : WalletState} {e : PyErr}
    {i : Interp} (h : c.run w.interp = .error e i) :
    (onInterp c).run w = .error e { w with interp := i } := by
  show onInterp c w = _
  unfold onInterp
  rw [h]

def exec (api : WalletCall → Except PyErr R) (c : WalletCall) : EStateM PyErr WalletState R := do
  modify fun w => { w with calls := w.calls ++ [c] }
  match api c with
  | .ok r => pure r
  | .error e => throw e

theorem exec_calls (api : WalletCall → Except PyErr R) (c : WalletCall) (w : WalletState) :
    (∃ r w', (exec api c).run w = .ok r w' ∧ w'.calls = w.calls ++ [c]) ∨
      ∃ e w', (exec api c).run w = .error e w' ∧ w'.calls = w.calls ++ [c] := by
  cases h : api c with
  | ok r => exact .inl ⟨r, { w with calls := w.calls ++ [c] }, by rw [exec]; simp only [h]; rfl, rfl⟩
  | error e =>
    exact .inr ⟨e, { w with calls := w.calls ++ [c] }, by rw [exec]; simp only [h]; rfl, rfl⟩

/-! ## `issue_non_fungible_token` -/

def issueNonFungibleToken (api : WalletCall → Except PyErr R) (account symbol : List UInt8)
    (data : List PyObj) (memo : List UInt8) (broadcast : Bool) : EStateM PyErr WalletState R := do
  let v ← onInterp (vectorFromList VariantConverter.extract data)
  exec api (.issueNonFungibleToken account symbol v memo broadcast)

variable (api : WalletCall → Except PyErr R) (account symbol : List UInt8) (memo : List UInt8)
  (broadcast : Bool) {data : List PyObj} (w : WalletState)

theorem issueNonFungibleToken_run
    (h : ∀ o ∈ data, convertible VariantConverter.extract o = true) :
    (issueNonFungibleToken api account symbol data memo broadcast).run w =
      (exec api (.issueNonFungibleToken account symbol (values VariantConverter.extract data) memo
          broadcast)).run
        { w with interp := leaveAll VariantConverter.extract data w.interp } := by
  have hrun := vectorFromList_run VariantConverter.extract h w.interp
  unfold issueNonFungibleToken
  rw [run_bind_ok (onInterp_run_ok hrun)]

theorem issueNonFungibleToken_run_error
    (h : ∃ o ∈ data, convertible VariantConverter.extract o = false) :
    ∃ e w', (issueNonFungibleToken api account symbol data memo broadcast).run w = .error e w' ∧
      w'.calls = w.calls := by
  obtain ⟨e, i, hrun⟩ := vectorFromList_run_error VariantConverter.extract h w.interp
  refine ⟨e, { w with interp := i }, ?_, rfl⟩
  unfold issueNonFungibleToken
  rw [run_bind_error (onInterp_run_error hrun)]

theorem issueNonFungibleToken_stops_iff (data : List PyObj) :
    (∃ e w', (issueNonFungibleToken api account symbol data memo broadcast).run w = .error e w' ∧
      w'.calls = w.calls) ↔ ∃ o ∈ data, Rejected o := by
  simp only [rejected_iff]
  refine ⟨?_, ?_⟩
  · intro h
    obtain ⟨e, w', hrun, hcalls⟩ := h
    by_contra hno
    push Not at hno
    rw [issueNonFungibleToken_run api account symbol memo broadcast w (by simpa using hno)] at hrun
    rcases exec_calls api (.issueNonFungibleToken account symbol
        (values VariantConverter.extract data) memo broadcast)
      { w with interp := leaveAll VariantConverter.extract data w.interp } with
      ⟨r, w₁, h, -⟩ | ⟨e₁, w₁, h, hc⟩
    · rw [h] at hrun
      cases hrun
    · rw [h] at hrun
      cases hrun
      rw [hcalls] at hc
      simpa using congrArg List.length hc
  · exact issueNonFungibleToken_run_error api account symbol memo broadcast w

/-- Issuing a token raises without a call to the wallet interface exactly when
the data have an element whose conversion throws. The converse of the second
part fails: an int out of range is not faithful and stops nothing. -/
theorem issue_stops_iff (data : List PyObj) :
    ((∃ e w', (issueNonFungibleToken api account symbol data memo broadcast).run w = .error e w' ∧
      w'.calls = w.calls) ↔ ∃ o ∈ data, Rejected o) ∧
    ∀ o, Rejected o → ¬ Faithful o :=
  ⟨issueNonFungibleToken_stops_iff api account symbol memo broadcast w data,
    fun _ => not_faithful_of_rejected⟩

end Wallet

theorem issue_submits_other_data :
    ¬ Faithful (.int 18446744073709551616) ∧ ¬ Faithful (.str [97, 0, 98]) ∧
    ∃ w', (Wallet.issueNonFungibleToken (fun _ => .ok ()) [] [] [.int 18446744073709551616, .str [97, 0, 98]]
        [] true).run {} = .ok () w' ∧
      w'.interp.pending = some .overflowError ∧
      w'.calls = [.issueNonFungibleToken [] [] [.uint64 18446744073709551615, .string [97]] [] true] := by
  have hint : ¬ Faithful (.int 18446744073709551616) := by simp [Faithful]
  have hbig := extract_int_of_not_faithful hint
  have hstr : VariantConverter.extract (.str [97, 0, 98]) = .built (.string [97]) none := by rfl
  refine ⟨hint, by simp [Faithful], ?_⟩
  rw [Wallet.issueNonFungibleToken_run]
  · refine ⟨_, rfl, ?_, ?_⟩
    · simp [leaveAll, hbig, hstr, Conversion.leaves, Interp.leave]
    · simp [values, hbig, hstr, Conversion.value?]
  · simp [convertible, hbig, hstr, Conversion.value?]

end DCore
