import DCorePython.Numerals

/-!
# Amounts

The wallet's methods take amounts as doubles and hand them on as decimal
numerals. An amount of smallest units can be sent when the numeral of a double
rounds to it, which the spacing of doubles around the amount decides. The
numeral is itself rounded, to at least the decimals of the asset, so the doubles
sent as one amount are those of an interval that is shifted by half a unit of
the numeral's last decimal.
-/

namespace DCore

open BinaryFloat (spacingExp)

/-- A Python number. Infinities and NaN, which are printed as no numeral, are
left out. -/
inductive PyNumber
  | float (x : Double)
  | int (n : ℤ)

def extractDouble (intToDouble : ℤ → Conversion Double) : PyNumber → Conversion Double
  | .float x => .built x none
  | .int n => intToDouble n

/-! ## The methods -/

namespace Wallet

section
variable {R : Type} (api : WalletCall → Except PyErr R) (toString : Double → Decimal)

def transfer (sender receiver : List UInt8) (amount : Double) (symbol memo : List UInt8)
    (broadcast : Bool) : EStateM PyErr WalletState R :=
  exec api (.transfer sender receiver (toString amount) symbol memo broadcast)

def issueAsset (account : List UInt8) (amount : Double) (symbol memo : List UInt8)
    (broadcast : Bool) : EStateM PyErr WalletState R :=
  exec api (.issueAsset account (toString amount) symbol memo broadcast)

def fundAssetPools (account : List UInt8) (uiaAmount : Double) (uiaSymbol : List UInt8)
    (dctAmount : Double) (dctSymbol : List UInt8) (broadcast : Bool) :
    EStateM PyErr WalletState R :=
  exec api (.fundAssetPools account (toString uiaAmount) uiaSymbol (toString dctAmount) dctSymbol
    broadcast)

def reserveAsset (account : List UInt8) (amount : Double) (symbol : List UInt8)
    (broadcast : Bool) : EStateM PyErr WalletState R :=
  exec api (.reserveAsset account (toString amount) symbol broadcast)

def claimFees (uiaAmount : Double) (uiaSymbol : List UInt8) (dctAmount : Double)
    (dctSymbol : List UInt8) (broadcast : Bool) : EStateM PyErr WalletState R :=
  exec api (.claimFees (toString uiaAmount) uiaSymbol (toString dctAmount) dctSymbol broadcast)

def withdrawVesting (miner : List UInt8) (amount : Double) (symbol : List UInt8)
    (broadcast : Bool) : EStateM PyErr WalletState R :=
  exec api (.withdrawVesting miner (toString amount) symbol broadcast)

end

end Wallet

inductive AmountParam
  | transfer (sender receiver symbol memo : List UInt8) (broadcast : Bool)
  | issueAsset (account symbol memo : List UInt8) (broadcast : Bool)
  | fundAssetPoolsUia (account uiaSymbol : List UInt8) (dctAmount : Double)
      (dctSymbol : List UInt8) (broadcast : Bool)
  | fundAssetPoolsDct (account : List UInt8) (uiaAmount : Double) (uiaSymbol dctSymbol : List UInt8)
      (broadcast : Bool)
  | reserveAsset (account symbol : List UInt8) (broadcast : Bool)
  | claimFeesUia (uiaSymbol : List UInt8) (dctAmount : Double) (dctSymbol : List UInt8)
      (broadcast : Bool)
  | claimFeesDct (uiaAmount : Double) (uiaSymbol dctSymbol : List UInt8) (broadcast : Bool)
  | withdrawVesting (miner symbol : List UInt8) (broadcast : Bool)

namespace AmountParam

section
variable {R : Type} (api : WalletCall → Except PyErr R) (toString : Double → Decimal)

def run : AmountParam → Double → EStateM PyErr WalletState R
  | transfer sender receiver symbol memo broadcast, x =>
    Wallet.transfer api toString sender receiver x symbol memo broadcast
  | issueAsset account symbol memo broadcast, x =>
    Wallet.issueAsset api toString account x symbol memo broadcast
  | fundAssetPoolsUia account uiaSymbol dctAmount dctSymbol broadcast, x =>
    Wallet.fundAssetPools api toString account x uiaSymbol dctAmount dctSymbol broadcast
  | fundAssetPoolsDct account uiaAmount uiaSymbol dctSymbol broadcast, x =>
    Wallet.fundAssetPools api toString account uiaAmount uiaSymbol x dctSymbol broadcast
  | reserveAsset account symbol broadcast, x =>
    Wallet.reserveAsset api toString account x symbol broadcast
  | claimFeesUia uiaSymbol dctAmount dctSymbol broadcast, x =>
    Wallet.claimFees api toString x uiaSymbol dctAmount dctSymbol broadcast
  | claimFeesDct uiaAmount uiaSymbol dctSymbol broadcast, x =>
    Wallet.claimFees api toString uiaAmount uiaSymbol x dctSymbol broadcast
  | withdrawVesting miner symbol broadcast, x =>
    Wallet.withdrawVesting api toString miner x symbol broadcast

def numeral? : AmountParam → WalletCall → Option Decimal
  | transfer .., .transfer _ _ amount _ _ _ => some amount
  | issueAsset .., .issueAsset _ amount _ _ _ => some amount
  | fundAssetPoolsUia .., .fundAssetPools _ uiaAmount _ _ _ _ => some uiaAmount
  | fundAssetPoolsDct .., .fundAssetPools _ _ _ dctAmount _ _ => some dctAmount
  | reserveAsset .., .reserveAsset _ amount _ _ => some amount
  | claimFeesUia .., .claimFees uiaAmount _ _ _ _ => some uiaAmount
  | claimFeesDct .., .claimFees _ _ dctAmount _ _ => some dctAmount
  | withdrawVesting .., .withdrawVesting _ amount _ _ => some amount
  | _, _ => none

theorem run_eq_exec (param : AmountParam) (x : Double) :
    ∃ c, param.run api toString x = Wallet.exec api c ∧ param.numeral? c = some (toString x) := by
  cases param <;> exact ⟨_, rfl, rfl⟩

variable (intToDouble : ℤ → Conversion Double)

/-- Some number, passed for the parameter, reaches the interface as a numeral
of `k` smallest units at precision `p`. -/
def Sends (param : AmountParam) (p : ℕ) (k : ℤ) (w : WalletState) : Prop :=
  ∃ number x leaves, extractDouble intToDouble number = .built x leaves ∧
    ∃ c w', ((∃ r, (param.run api toString x).run w = .ok r w') ∨
        ∃ e, (param.run api toString x).run w = .error e w') ∧
      w'.calls = w.calls ++ [c] ∧ ∃ d, param.numeral? c = some d ∧ units p d.value = k

end

end AmountParam

/-! ## What can be sent -/

namespace AmountParam

/-- `fc::to_string` prints a double to at least `p` decimals, rounded correctly. -/
def Prints (p : ℕ) (toString : Double → Decimal) : Prop :=
  ∀ x, p ≤ (toString x).decimals ∧ (toString x).Rounds x.value

/-- The spacing of doubles around `k` smallest units, in smallest units. -/
def spacing (p : ℕ) (k : ℕ) : ℚ := 10 ^ p * 2 ^ spacingExp 53 (-1074) (k / 10 ^ p)

section
variable {R : Type} (api : WalletCall → Except PyErr R) (toString : Double → Decimal)
  (intToDouble : ℤ → Conversion Double) (p : ℕ)

theorem sends_iff_exists_double (param : AmountParam) (k : ℤ) (w : WalletState) :
    param.Sends api toString intToDouble p k w ↔ ∃ x : Double, units p (toString x).value = k := by
  refine ⟨?_, ?_⟩
  · intro h
    obtain ⟨number, x, leaves, -, c, w', hrun, hcalls, d, hd, hk⟩ := h
    obtain ⟨c', hexec, hd'⟩ := param.run_eq_exec api toString x
    rw [hexec] at hrun
    -- the call that was made is the one of the method
    have hc : c = c' := by
      rcases Wallet.exec_calls api c' w with ⟨r, w₁, h, hw⟩ | ⟨e, w₁, h, hw⟩ <;>
      · rw [h] at hrun
        rcases hrun with ⟨_, hrun⟩ | ⟨_, hrun⟩ <;> cases hrun
        rw [hw] at hcalls
        simpa using hcalls.symm
    rw [hc, hd'] at hd
    cases hd
    exact ⟨x, hk⟩
  · intro h
    obtain ⟨x, hk⟩ := h
    obtain ⟨c, hexec, hd⟩ := param.run_eq_exec api toString x
    refine ⟨.float x, x, none, rfl, c, ?_⟩
    rw [hexec]
    rcases Wallet.exec_calls api c w with ⟨r, w', h, hw⟩ | ⟨e, w', h, hw⟩
    · exact ⟨w', .inl ⟨r, h⟩, hw, _, hd, hk⟩
    · exact ⟨w', .inr ⟨e, h⟩, hw, _, hd, hk⟩

end

theorem spacingExp_lt {k : ℕ} (hk : k < 2 ^ 63) (p : ℕ) :
    spacingExp 53 (-1074) (k / 10 ^ p) < 971 := by
  have hlog : Int.log 2 ((k : ℚ) / 10 ^ p) < 63 := by
    rcases Nat.eq_zero_or_pos k with rfl | hpos
    · simp
    · have h0 : (0 : ℚ) < k / 10 ^ p := by positivity
      rw [← Int.lt_zpow_iff_log_lt (by norm_num) h0]
      have h10 : (1 : ℚ) ≤ 10 ^ p := one_le_pow₀ (by norm_num)
      apply lt_of_le_of_lt (div_le_self (by positivity) h10)
      exact_mod_cast hk
  unfold spacingExp
  omega

/-- The doubles in a convex set of amounts around `k`. -/
theorem exists_double_iff {k : ℕ} (hk : k < 2 ^ 63) (p : ℕ) {J : Set ℚ} (hJ : J.OrdConnected)
    (hmem : (k : ℚ) ∈ J) :
    (∃ x : Double, 10 ^ p * x.value ∈ J) ↔ ∃ n : ℤ, n * spacing p k ∈ J := by
  have h10 : (0 : ℚ) < 10 ^ p := by positivity
  have hpre : (Set.preimage (fun y : ℚ => 10 ^ p * y) J).OrdConnected :=
    hJ.preimage_mono fun _ _ h => mul_le_mul_of_nonneg_left h h10.le
  have hy : (k : ℚ) / 10 ^ p ∈ Set.preimage (fun y : ℚ => 10 ^ p * y) J := by
    rw [Set.mem_preimage, mul_div_cancel₀ _ h10.ne']
    exact hmem
  apply Iff.trans (BinaryFloat.exists_float_iff (by norm_num) hpre hy (by positivity)
    (spacingExp_lt hk p))
  apply exists_congr
  intro n
  have hn : (10 : ℚ) ^ p * (n * 2 ^ spacingExp 53 (-1074) (k / 10 ^ p)) = n * spacing p k := by
    unfold spacing
    ring
  rw [Set.mem_preimage, hn]

theorem spacing_pos (p k : ℕ) : 0 < spacing p k := mul_pos (by positivity) (zpow_pos two_pos _)

theorem spacing_le {p k : ℕ} {c : ℚ} (h0 : 0 < k) (hk : k ≤ 2 ^ 52 * c) (hc : 1 / 2 ≤ c)
    (hp : p ≤ 255) : spacing p k ≤ c := by
  have h10 : (0 : ℚ) < 10 ^ p := by positivity
  have hy : (0 : ℚ) < k / 10 ^ p := by positivity
  unfold spacing spacingExp
  rcases max_choice (Int.log 2 ((k : ℚ) / 10 ^ p) - ((53 : ℕ) - 1)) (-1074) with h | h <;> rw [h]
  · have hlog : ((2 : ℕ) : ℚ) ^ Int.log 2 ((k : ℚ) / 10 ^ p) ≤ k / 10 ^ p :=
      Int.zpow_log_le_self (by norm_num) hy
    rw [zpow_sub₀ two_ne_zero, ← mul_div_assoc, div_le_iff₀ (by positivity)]
    calc (10 : ℚ) ^ p * 2 ^ Int.log 2 ((k : ℚ) / 10 ^ p)
        ≤ 10 ^ p * (k / 10 ^ p) := mul_le_mul_of_nonneg_left hlog h10.le
      _ = k := mul_div_cancel₀ _ h10.ne'
      _ ≤ 2 ^ 52 * c := hk
      _ = c * 2 ^ ((53 : ℕ) - 1 : ℤ) := by norm_num; ring
  · have hpow : (10 : ℚ) ^ p ≤ 2 ^ 1073 := calc
      (10 : ℚ) ^ p ≤ 16 ^ p := pow_le_pow_left₀ (by norm_num) (by norm_num) p
      _ = 2 ^ (4 * p) := by rw [pow_mul]; norm_num
      _ ≤ 2 ^ 1073 := pow_le_pow_right₀ (by norm_num) (by omega)
    calc (10 : ℚ) ^ p * 2 ^ (-1074 : ℤ) ≤ 2 ^ 1073 * 2 ^ (-1074 : ℤ) :=
          mul_le_mul_of_nonneg_right hpow (by positivity)
      _ = 1 / 2 := by
        rw [← zpow_natCast, ← zpow_add₀ two_ne_zero]
        norm_num
      _ ≤ c := hc

/-- Up to 2^52 units a multiple of the spacing is less than half a unit from any
point near `k`. -/
theorem exists_multiple_of_le {p k : ℕ} (hk : k ≤ 2 ^ 52) (hp : p ≤ 255) {t : ℚ}
    (ht : |t| < 1 / 2) :
    ∃ n : ℤ, |n * spacing p k + t - k| < 1 / 2 := by
  rcases Nat.eq_zero_or_pos k with rfl | h0
  · exact ⟨0, by simpa using ht⟩
  have hle : spacing p k ≤ 1 := spacing_le h0 (by rw [mul_one]; exact_mod_cast hk) (by norm_num) hp
  rcases hle.eq_or_lt with heq | hlt
  · exact ⟨k, by rw [heq]; simpa using ht⟩
  · obtain ⟨n, hn⟩ := BinaryFloat.exists_multiple_near (spacing_pos p k) (k - t)
    refine ⟨n, ?_⟩
    rw [sub_sub_eq_add_sub] at hn
    linarith

theorem ordConnected_abs_lt (t k r : ℚ) : {v : ℚ | |v + t - k| < r}.OrdConnected := by
  refine ⟨fun a ha b hb v hv => ?_⟩
  rw [Set.mem_ofPred_eq, abs_lt] at ha hb ⊢
  constructor <;> linarith [hv.1, hv.2]

theorem ordConnected_abs_le (k r : ℚ) : {v : ℚ | |v - k| ≤ r}.OrdConnected := by
  refine ⟨fun a ha b hb v hv => ?_⟩
  rw [Set.mem_ofPred_eq, abs_le] at ha hb ⊢
  constructor <;> linarith [hv.1, hv.2]

theorem exists_double_abs_lt_iff {k : ℕ} (hk : k < 2 ^ 63) (p : ℕ) {t r : ℚ} (ht : |t| < r) :
    (∃ x : Double, |10 ^ p * x.value + t - k| < r) ↔ ∃ n : ℤ, |n * spacing p k + t - k| < r :=
  exists_double_iff hk p (ordConnected_abs_lt t k r) (by simpa using ht)

theorem exists_double_near_iff {k : ℕ} (hk : k < 2 ^ 63) (p : ℕ) {r : ℚ} (hr : 0 < r) :
    (∃ x : Double, |10 ^ p * x.value - k| < r) ↔ ∃ n : ℤ, |n * spacing p k - k| < r := by
  have h := exists_double_abs_lt_iff hk p (t := 0) (r := r) (by simpa using hr)
  simpa only [add_zero] using h

section
variable {R : Type} {api : WalletCall → Except PyErr R} {toString : Double → Decimal}
  {intToDouble : ℤ → Conversion Double} {p k : ℕ} {param : AmountParam} {w : WalletState}

theorem sends_of_near (hprint : Prints p toString) (hk : k < 2 ^ 63)
    (h : ∃ n : ℤ, |n * spacing p k - k| < 9 / 20) :
    param.Sends api toString intToDouble p k w := by
  obtain ⟨x, hx⟩ := (exists_double_near_iff hk p (by norm_num)).mpr h
  rw [sends_iff_exists_double]
  exact ⟨x, units_printed_of_near (hprint x).1 (hprint x).2 hx⟩

theorem near_of_sends (hprint : Prints p toString) (hk : k < 2 ^ 63)
    (h : param.Sends api toString intToDouble p k w) :
    ∃ n : ℤ, |n * spacing p k - k| < 11 / 20 := by
  rw [sends_iff_exists_double] at h
  obtain ⟨x, hx⟩ := h
  have hnear := near_of_units_printed (hprint x).1 (hprint x).2 hx
  exact (exists_double_near_iff hk p (by norm_num)).mp ⟨x, hnear⟩

theorem sends_iff_of_decimals (hprint : Prints p toString) (hk : k < 2 ^ 63) {d : ℕ} (hd : p < d)
    (hfix : ∀ x, (toString x).decimals = d) :
    param.Sends api toString intToDouble p k w ↔
      ∃ n : ℤ, |n * spacing p k + 10 ^ p / 10 ^ d / 2 - k| < 1 / 2 := by
  have hx (x : Double) := units_printed_iff (p := p) (by rw [hfix x]; exact hd) (hprint x).2 k
  simp only [hfix] at hx
  have ht : |(10 : ℚ) ^ p / 10 ^ d / 2| < 1 / 2 := by
    obtain ⟨hpos, hle⟩ := half_unit_mem (d := ⟨0, d⟩) hd
    rw [abs_of_pos hpos]
    linarith
  rw [sends_iff_exists_double, exists_congr hx]
  exact exists_double_abs_lt_iff hk p ht

theorem sends_of_nearest (hprint : Prints p toString) (hk : k < 2 ^ 63)
    (hfix : ∀ x, (toString x).decimals = p) (h : ∃ n : ℤ, |n * spacing p k - k| < 1 / 2) :
    param.Sends api toString intToDouble p k w := by
  obtain ⟨x, hx⟩ := (exists_double_near_iff hk p (by norm_num)).mpr h
  rw [sends_iff_exists_double]
  exact ⟨x, units_printed_of_abs_lt (hfix x).symm (hprint x).2 hx⟩

theorem nearest_of_sends (hprint : Prints p toString) (hk : k < 2 ^ 63)
    (hfix : ∀ x, (toString x).decimals = p) (h : param.Sends api toString intToDouble p k w) :
    ∃ n : ℤ, |n * spacing p k - k| ≤ 1 / 2 := by
  rw [sends_iff_exists_double] at h
  obtain ⟨x, hx⟩ := h
  exact (exists_double_iff hk p (ordConnected_abs_le k (1 / 2)) (by simp)).mp
    ⟨x, abs_le_of_units_printed (hfix x).symm (hprint x).2 hx⟩

theorem sends_iff_of_exact (hk : k < 2 ^ 63) (hexact : ∀ x, (toString x).value = x.value) :
    param.Sends api toString intToDouble p k w ↔
      ∃ n : ℤ, (k : ℚ) - 1 / 2 ≤ n * spacing p k ∧ n * spacing p k < k + 1 / 2 := by
  have hx (x : Double) : units p (toString x).value = k ↔
      10 ^ p * x.value ∈ Set.Ico ((k : ℚ) - 1 / 2) (k + 1 / 2) := by
    unfold units
    rw [hexact, round_eq_iff, Int.cast_natCast]
  rw [sends_iff_exists_double, exists_congr hx]
  exact exists_double_iff hk p Set.ordConnected_Ico ⟨by linarith, by linarith⟩

theorem sends_of_le (hprint : Prints p toString) (hp : p ≤ 255) (hk : k ≤ 2 ^ 51) :
    param.Sends api toString intToDouble p k w := by
  apply sends_of_near hprint (by omega)
  rcases Nat.eq_zero_or_pos k with rfl | h0
  · exact ⟨0, by norm_num⟩
  have hle : spacing p k ≤ 1 / 2 := by
    refine spacing_le h0 ?_ le_rfl hp
    have : (k : ℚ) ≤ 2 ^ 51 := by exact_mod_cast hk
    linarith
  obtain ⟨n, hn⟩ := BinaryFloat.exists_multiple_near (spacing_pos p k) k
  exact ⟨n, by linarith⟩

theorem sends_of_le_of_decimals (hprint : Prints p toString) (hp : p ≤ 255) (hk : k ≤ 2 ^ 52)
    {d : ℕ} (hfix : ∀ x, (toString x).decimals = d) :
    param.Sends api toString intToDouble p k w := by
  have hpd : p ≤ d := hfix ⟨0, 0, by norm_num, by norm_num, by norm_num⟩ ▸ (hprint _).1
  rcases hpd.eq_or_lt with rfl | hlt
  · apply sends_of_nearest hprint (by omega) hfix
    simpa only [add_zero] using exists_multiple_of_le hk hp (t := 0) (by norm_num)
  · rw [sends_iff_of_decimals hprint (by omega) hlt hfix]
    obtain ⟨hpos, hle⟩ := half_unit_mem (d := ⟨0, d⟩) hlt
    exact exists_multiple_of_le hk hp (by rw [abs_of_pos hpos]; linarith)

end

end AmountParam

/-- An amount of `k` smallest units at precision `p` can be sent, by every method
and in every state of the wallet, when a multiple of the spacing of doubles is
near enough to it. How near it has to be depends on how the numerals are
rounded; the bounds differ in ties and in half a unit of the last decimal. -/
theorem sends_amount_iff {R : Type} (api : WalletCall → Except PyErr R)
    (toString : Double → Decimal) (intToDouble : ℤ → Conversion Double) (p k : ℕ)
    (hprint : AmountParam.Prints p toString) (hk : k < 2 ^ 63) (param : AmountParam)
    (w : WalletState) :
    -- whatever the decimals of each numeral
    (((∃ n : ℤ, |n * AmountParam.spacing p k - k| < 9 / 20) →
        param.Sends api toString intToDouble p k w) ∧
      (param.Sends api toString intToDouble p k w →
        ∃ n : ℤ, |n * AmountParam.spacing p k - k| < 11 / 20)) ∧
    -- a fixed number of decimals
    (∀ d > p, (∀ x, (toString x).decimals = d) →
      (param.Sends api toString intToDouble p k w ↔
        ∃ n : ℤ, |n * AmountParam.spacing p k + 10 ^ p / 10 ^ d / 2 - k| < 1 / 2)) ∧
    ((∀ x, (toString x).decimals = p) →
      ((∃ n : ℤ, |n * AmountParam.spacing p k - k| < 1 / 2) →
        param.Sends api toString intToDouble p k w) ∧
      (param.Sends api toString intToDouble p k w →
        ∃ n : ℤ, |n * AmountParam.spacing p k - k| ≤ 1 / 2)) ∧
    -- all decimals
    ((∀ x, (toString x).value = x.value) →
      (param.Sends api toString intToDouble p k w ↔
        ∃ n : ℤ, (k : ℚ) - 1 / 2 ≤ n * AmountParam.spacing p k ∧
          n * AmountParam.spacing p k < k + 1 / 2)) ∧
    -- small amounts
    (p ≤ 255 → k ≤ 2 ^ 51 → param.Sends api toString intToDouble p k w) ∧
    (p ≤ 255 → k ≤ 2 ^ 52 → (∃ d, ∀ x, (toString x).decimals = d) →
      param.Sends api toString intToDouble p k w) :=
  ⟨⟨AmountParam.sends_of_near hprint hk, AmountParam.near_of_sends hprint hk⟩,
    fun _ hd hfix => AmountParam.sends_iff_of_decimals hprint hk hd hfix,
    fun hfix => ⟨AmountParam.sends_of_nearest hprint hk hfix,
      AmountParam.nearest_of_sends hprint hk hfix⟩,
    fun hexact => AmountParam.sends_iff_of_exact hk hexact,
    fun hp hle => AmountParam.sends_of_le hprint hp hle,
    fun hp hle ⟨_, hfix⟩ => AmountParam.sends_of_le_of_decimals hprint hp hle hfix⟩

theorem sends_amount_iff_eight_decimals :
    (AmountParam.transfer [97] [98] [68] [] true).Sends (fun _ => .ok ()) (fixedDecimal 17)
      (fun _ => .raised .typeError) 8 (2 ^ 52 : ℕ) {} :=
  (sends_amount_iff (fun _ => .ok ()) (fixedDecimal 17) (fun _ => .raised .typeError) 8 (2 ^ 52)
    (fun x => ⟨show 8 ≤ 17 by norm_num, rounds_fixedDecimal 17 x⟩) (by norm_num) _ _).2.2.2.2.2
    (by norm_num) le_rfl ⟨17, fun _ => rfl⟩

theorem prints_exactDecimal (p : ℕ) : AmountParam.Prints p (exactDecimal p) := by
  refine fun x => ⟨Nat.le_add_left _ _, ?_⟩
  unfold Decimal.Rounds
  rw [value_exactDecimal, sub_self, abs_zero]
  positivity

theorem amount_not_sent :
    AmountParam.Prints 0 (exactDecimal 0) ∧
    ¬ (AmountParam.transfer [97] [98] [68] [] true).Sends (fun _ => .ok ()) (exactDecimal 0)
      (fun _ => .raised .typeError) 0 (2 ^ 53 + 1 : ℕ) {} := by
  refine ⟨prints_exactDecimal 0, ?_⟩
  rw [AmountParam.sends_iff_of_exact (by norm_num) (value_exactDecimal 0)]
  have hlog : Int.log 2 (((2 ^ 53 + 1 : ℕ) : ℚ) / 10 ^ 0) = 53 := by
    have : Nat.log 2 (2 ^ 53 + 1) = 53 :=
      Nat.log_eq_of_pow_le_of_lt_pow (by norm_num) (by norm_num)
    rw [pow_zero, div_one, Int.log_natCast, this]
    rfl
  have hspacing : AmountParam.spacing 0 (2 ^ 53 + 1) = 2 := by
    unfold AmountParam.spacing BinaryFloat.spacingExp
    rw [hlog]
    norm_num
  rw [hspacing]
  intro h
  obtain ⟨n, h₁, h₂⟩ := h
  push_cast at h₁ h₂
  have hlow : (2 : ℤ) ^ 53 < n * 2 := by
    have : (2 : ℚ) ^ 53 < n * 2 := by linarith
    exact_mod_cast this
  have hhigh : n * 2 < (2 : ℤ) ^ 53 + 2 := by
    have : (n : ℚ) * 2 < 2 ^ 53 + 2 := by linarith
    exact_mod_cast this
  omega

end DCore
