import DCorePython.Amounts
import DCorePython.Lib.Keywords

/-!
# The methods of `Wallet`

Each method of the class converts its arguments, calls one function of the
wallet's interfaces, or of its base class, and waits for it. The table has a row
for each registration in module.cpp: the parameters with their defaults, and the
function that is called with them, in the order of the parameters.

An overload matches when every argument has a type that its parameter takes; the
values are built after that, and lists are converted by the method itself.
-/

namespace DCore

open Loop Call

/-! ## The interfaces -/

inductive WalletApi
  | isNew | isLocked | lock | unlock | setPassword | saveWalletFile | loadWalletFile
  | getWalletFilename | importKey | importSingleKey | getPrivateKey | dumpPrivateKeys
  | listMyAccounts | info | listAccountBalances | createAccountWithBrainKey
  | registerAccountWithKeys | registerMultisigAccount | updateAccountKeys
  | updateAccountKeysToMultisig | transfer | createMonitoredAsset | updateMonitoredAsset
  | createUserIssuedAsset | updateUserIssuedAsset | issueAsset | fundAssetPools | reserveAsset
  | claimFees | publishAssetFeed | createMiner | updateMiner | withdrawVesting | voteForMiner
  | setVotingProxy | setDesiredMinerCount | getNonFungibleTokenBalances | createNonFungibleToken
  | updateNonFungibleToken | issueNonFungibleToken | transferNonFungibleTokenData
  | burnNonFungibleTokenData | updateNonFungibleTokenData
  deriving DecidableEq, Repr

inductive DbApi
  | about | getConfiguration | getChainProperties | getGlobalProperties
  | getDynamicGlobalProperties | getBlock | headBlockTime | getRealSupply | getNewAssetPerBlock
  | getAssetPerBlockByBlockNum | getMinerPayFromFeesByBlockTime | getAccountCount
  | getAccountByName | lookupAccounts | searchAccounts | getAccounts | listAssets | getAssets
  | getMinerCount | lookupMinerAccounts | getMiners | getMinerByAccount | getVestingBalances
  | lookupVoteIds | getActualVotes | searchMinerVoting | listNonFungibleTokens
  | getNonFungibleTokens | listNonFungibleTokenData | getNonFungibleTokenSummary
  deriving DecidableEq, Repr

inductive NetApi
  | broadcastTransaction | broadcastBlock
  deriving DecidableEq, Repr

/-- Functions of the base class, which are called on the caller's thread. -/
inductive ConnectionApi
  | connect | isConnected
  deriving DecidableEq, Repr

inductive Api
  | connection (f : ConnectionApi)
  | exec (f : WalletApi)
  | query (f : DbApi)
  | broadcast (f : NetApi)
  deriving DecidableEq, Repr

/-! ## Arguments -/

/-- Bound classes whose values the methods only hand on. A number stands for
the value. -/
inductive ValueClass
  | objectId | timePointSec | authority | price | priceFeed | signedTransaction | signedBlock
  | nonFungibleTokenDataDefinition | nonFungibleTokenDataValue
  deriving DecidableEq, Repr

inductive WalletItem
  | py (o : PyObj)
  | value (cls : ValueClass) (n : Nat)

/-- A float is finite: infinities and NaN, which a parameter of type `double`
takes as well, are left out. -/
inductive WalletObj
  | item (i : WalletItem)
  | float (x : Double)
  | list (l : List WalletItem)

/-- Element types of `vector_from_list`. -/
inductive ElementType
  | id (cls : IdClass)
  | voteId
  | variant
  | value (cls : ValueClass)
  deriving DecidableEq

inductive ParamType
  | string
  | bool
  | unsigned (w : Nat)
  | double
  | publicKey
  | publicKeyString
  | id (cls : IdClass)
  | value (cls : ValueClass)
  | vector (elem : ElementType)
  | stringSet
  | optionalString
  deriving DecidableEq

inductive ApiItem
  | id (n : IdNumber)
  | voteId (v : VoteId)
  | variant (v : Variant)
  | value (cls : ValueClass) (n : Nat)

/-- `std::set<std::string>`; strings compare by their bytes. -/
abbrev StringSet := OrderedSet fun bs : List UInt8 => bs.map UInt8.toNat

inductive ApiArg
  | string (bs : List UInt8)
  | bool (b : Bool)
  | unsigned (n : Nat)
  | numeral (d : Decimal)
  | publicKey (k : PublicKey)
  | item (i : ApiItem)
  | vector (l : List ApiItem)
  | stringSet (s : StringSet)
  | optionalString (o : Option (List UInt8))

/-- An argument as the method gets it: lists and `bp::object`s are converted in
its body. -/
inductive MethodArg
  | ready (a : ApiArg)
  | vector (elem : ElementType) (l : List WalletItem)
  | stringSet (l : List WalletItem)
  | optionalString (o : WalletObj)

namespace Conversion

variable {α β : Type}

def map (f : α → β) : Conversion α → Conversion β
  | raised e => raised e
  | built a p => built (f a) p

theorem value?_map (f : α → β) (c : Conversion α) : (c.map f).value? = c.value?.map f := by
  cases c <;> rfl

end Conversion

instance : Inhabited ApiItem := ⟨.id 0⟩

instance : PyNone WalletObj where
  none := .item (.py .none)
  isNone
    | .item (.py .none) => true
    | _ => false
  isNone_iff o := by
    cases o with
    | item i =>
      cases i with
      | py o => cases o <;> simp
      | value cls n => simp
    | float x => simp
    | list l => simp

def WalletItem.extractString : WalletItem → Conversion (List UInt8)
  | .py o => PyObj.extractString o
  | .value _ _ => .raised .typeError

def ElementType.extract : ElementType → WalletItem → Conversion ApiItem
  | .id cls, .py o => (PyObj.extractId cls o).map .id
  | .voteId, .py o => (PyObj.extractVoteId o).map .voteId
  | .variant, .py o => (VariantConverter.extract o).map .variant
  | .value cls, .value cls' n =>
    if cls' = cls then .built (.value cls' n) none else .raised .typeError
  | _, _ => .raised .typeError

section
variable (intToDouble : ℤ → Conversion Double) (toString : Double → Decimal)
  (keyToString : PublicKey → List UInt8)

def ParamType.extract : ParamType → WalletObj → Conversion MethodArg
  | .string, .item i => i.extractString.map fun bs => .ready (.string bs)
  | .bool, .item (.py o) => o.extractBool.map fun b => .ready (.bool b)
  | .unsigned w, .item (.py o) => (o.extractUnsigned w).map fun n => .ready (.unsigned n.val)
  | .double, .float x => .built (.ready (.numeral (toString x))) none
  | .double, .item (.py o) =>
    match o.asInt? with
    | some n => (intToDouble n).map fun x => .ready (.numeral (toString x))
    | none => .raised .typeError
  | .publicKey, .item (.py o) => o.extractPublicKey.map fun k => .ready (.publicKey k)
  | .publicKeyString, .item (.py o) =>
    o.extractPublicKey.map fun k => .ready (.string (keyToString k))
  | .id cls, .item (.py o) => (o.extractId cls).map fun n => .ready (.item (.id n))
  | .value cls, .item (.value cls' n) =>
    if cls' = cls then .built (.ready (.item (.value cls' n))) none else .raised .typeError
  | .vector elem, .list l => .built (.vector elem l) none
  | .stringSet, .list l => .built (.stringSet l) none
  | .optionalString, o => .built (.optionalString o) none
  | _, _ => .raised .typeError

end

def setFromList (l : List WalletItem) : EStateM PyErr Interp StringSet :=
  withLocal OrderedSet.empty (decodeSet WalletItem.extractString Member.self l)

def WalletObj.extractString : WalletObj → Conversion (List UInt8)
  | .item i => i.extractString
  | _ => .raised .typeError

def MethodArg.convert : MethodArg → EStateM PyErr Interp ApiArg
  | .ready a => pure a
  | .vector elem l => .vector <$> vectorFromList elem.extract l
  | .stringSet l => .stringSet <$> setFromList l
  | .optionalString o => fun i =>
    match (decodeOptionalValue WalletObj.extractString o : Call Unit _).run ⟨i, ()⟩ with
    | .ok a b => .ok (.optionalString a) b.interp
    | .error e b => .error e b.interp

/-! ## The table -/

structure MethodParam where
  param : Parameter WalletObj
  type : ParamType

structure WalletMethod where
  name : String
  params : List MethodParam
  api : Api

namespace MethodParam

def required (type : ParamType) (name : String) : MethodParam := ⟨⟨name, none⟩, type⟩

def string : String → MethodParam := required .string
def bool : String → MethodParam := required .bool
def uint8 : String → MethodParam := required (.unsigned 8)
def uint16 : String → MethodParam := required (.unsigned 16)
def uint32 : String → MethodParam := required (.unsigned 32)
def uint64 : String → MethodParam := required (.unsigned 64)
def double : String → MethodParam := required .double
def publicKey : String → MethodParam := required .publicKey
def publicKeyString : String → MethodParam := required .publicKeyString
def authority : String → MethodParam := required (.value .authority)
def price : String → MethodParam := required (.value .price)
def accountId : String → MethodParam := required (.id .accountId)
def nftId : String → MethodParam := required (.id .nonFungibleTokenId)
def nftDataId : String → MethodParam := required (.id .nonFungibleTokenDataId)

/-- `bp::arg(name) = ""` -/
def emptyString (name : String) : MethodParam := ⟨⟨name, some (.item (.py (.str [])))⟩, .string⟩

/-- `bp::arg("broadcast") = false` -/
def broadcast : MethodParam := ⟨⟨"broadcast", some (.item (.py (.bool false)))⟩, .bool⟩

end MethodParam

open MethodParam in
/-- The methods of the class, and its properties `locked`, `connected` and
`filename`, which take no arguments. -/
def walletMethods : List WalletMethod :=
  [⟨"__bool__", [], .exec .isNew⟩,
    ⟨"locked", [], .exec .isLocked⟩,
    ⟨"connected", [], .connection .isConnected⟩,
    ⟨"filename", [], .exec .getWalletFilename⟩,
    ⟨"connect",
      [string "wallet_file", emptyString "server", emptyString "user", emptyString "password"],
      .connection .connect⟩,
    ⟨"lock", [], .exec .lock⟩,
    ⟨"unlock", [string "password"], .exec .unlock⟩,
    ⟨"set_password", [string "password"], .exec .setPassword⟩,
    ⟨"save", [emptyString "wallet_file"], .exec .saveWalletFile⟩,
    ⟨"load", [emptyString "wallet_file"], .exec .loadWalletFile⟩,
    ⟨"import_key", [string "account", string "key"], .exec .importKey⟩,
    ⟨"import_single_key", [string "account", string "key"], .exec .importSingleKey⟩,
    ⟨"get_private_key", [publicKey "pubkey"], .exec .getPrivateKey⟩,
    ⟨"dump_private_keys", [], .exec .dumpPrivateKeys⟩,
    ⟨"about", [], .query .about⟩,
    ⟨"list_my_accounts", [], .exec .listMyAccounts⟩,
    ⟨"info", [], .exec .info⟩,
    ⟨"get_configuration", [], .query .getConfiguration⟩,
    ⟨"get_chain_properties", [], .query .getChainProperties⟩,
    ⟨"get_global_properties", [], .query .getGlobalProperties⟩,
    ⟨"get_dynamic_global_properties", [], .query .getDynamicGlobalProperties⟩,
    ⟨"get_block", [uint32 "num"], .query .getBlock⟩,
    ⟨"head_block_time", [], .query .headBlockTime⟩,
    ⟨"get_real_supply", [], .query .getRealSupply⟩,
    ⟨"get_new_asset_per_block", [], .query .getNewAssetPerBlock⟩,
    ⟨"get_new_asset_by_block", [uint32 "block_num"], .query .getAssetPerBlockByBlockNum⟩,
    ⟨"get_miner_pay", [required (.value .timePointSec) "block_time"],
      .query .getMinerPayFromFeesByBlockTime⟩,
    ⟨"get_account_count", [], .query .getAccountCount⟩,
    ⟨"get_account", [string "name"], .query .getAccountByName⟩,
    ⟨"lookup_accounts", [string "lowerbound", uint32 "limit"], .query .lookupAccounts⟩,
    ⟨"search_accounts",
      [string "term", string "order", required (.value .objectId) "id", uint32 "limit"],
      .query .searchAccounts⟩,
    ⟨"list_account_balances", [string "account"], .exec .listAccountBalances⟩,
    ⟨"get_accounts", [required (.vector (.id .accountId)) "ids"], .query .getAccounts⟩,
    ⟨"create_account", [string "brainkey", string "name", string "registrar", broadcast],
      .exec .createAccountWithBrainKey⟩,
    ⟨"register_account",
      [string "name", publicKey "owner", publicKey "active", publicKey "memo", string "registrar",
        broadcast], .exec .registerAccountWithKeys⟩,
    ⟨"register_multisig_account",
      [string "name", authority "owner", authority "active", publicKey "memo", string "registrar",
        broadcast], .exec .registerMultisigAccount⟩,
    ⟨"update_account",
      [string "name", publicKeyString "owner", publicKeyString "active", publicKeyString "memo",
        broadcast], .exec .updateAccountKeys⟩,
    ⟨"update_multisig_account",
      [string "name", authority "owner", authority "active", publicKey "memo", broadcast],
      .exec .updateAccountKeysToMultisig⟩,
    ⟨"transfer",
      [string "from", string "to", double "amount", string "symbol", string "memo", broadcast],
      .exec .transfer⟩,
    ⟨"list_assets", [string "lowerbound", uint32 "limit"], .query .listAssets⟩,
    ⟨"get_assets", [required (.vector (.id .assetId)) "ids"], .query .getAssets⟩,
    ⟨"create_monitored_asset",
      [string "issuer", string "symbol", uint8 "precision", string "description",
        uint32 "feed_lifetime_sec", uint8 "minimum_feeds", broadcast],
      .exec .createMonitoredAsset⟩,
    ⟨"update_monitored_asset",
      [string "symbol", string "description", uint32 "feed_lifetime_sec", uint8 "minimum_feeds",
        broadcast], .exec .updateMonitoredAsset⟩,
    ⟨"create_user_issued_asset",
      [string "issuer", string "symbol", uint8 "precision", string "description",
        uint64 "max_supply", price "core_exchange_rate", bool "exchangeable",
        bool "fixed_max_supply", broadcast], .exec .createUserIssuedAsset⟩,
    ⟨"update_user_issued_asset",
      [string "symbol", string "issuer", string "description", uint64 "max_supply",
        price "core_exchange_rate", bool "exchangeable", broadcast],
      .exec .updateUserIssuedAsset⟩,
    ⟨"issue_asset",
      [string "account", double "amount", string "symbol", string "memo", broadcast],
      .exec .issueAsset⟩,
    ⟨"fund_asset_pools",
      [string "account", double "uia_amount", string "uia_symbol", double "dct_amount",
        string "dct_symbol", broadcast], .exec .fundAssetPools⟩,
    ⟨"reserve_asset", [string "account", double "amount", string "symbol", broadcast],
      .exec .reserveAsset⟩,
    ⟨"claim_fees",
      [double "uia_amount", string "uia_symbol", double "dct_amount", string "dct_symbol",
        broadcast], .exec .claimFees⟩,
    ⟨"publish_asset_feed",
      [string "account", string "symbol", required (.value .priceFeed) "feed", broadcast],
      .exec .publishAssetFeed⟩,
    ⟨"get_miner_count", [], .query .getMinerCount⟩,
    ⟨"list_miners", [string "lowerbound", uint32 "limit"], .query .lookupMinerAccounts⟩,
    ⟨"get_miners", [required (.vector (.id .minerId)) "ids"], .query .getMiners⟩,
    ⟨"get_miner_by_account", [accountId "id"], .query .getMinerByAccount⟩,
    ⟨"get_vesting_balances", [accountId "id"], .query .getVestingBalances⟩,
    ⟨"create_miner", [string "account", string "url", broadcast], .exec .createMiner⟩,
    ⟨"update_miner", [string "miner", string "url", publicKeyString "signing_key", broadcast],
      .exec .updateMiner⟩,
    ⟨"withdraw_vesting", [string "miner", double "amount", string "symbol", broadcast],
      .exec .withdrawVesting⟩,
    ⟨"list_votes", [required (.vector .voteId) "ids"], .query .lookupVoteIds⟩,
    ⟨"get_actual_votes", [], .query .getActualVotes⟩,
    ⟨"search_miner_voting",
      [string "account", string "term", bool "only_my_votes", string "order", string "id",
        uint32 "limit"], .query .searchMinerVoting⟩,
    ⟨"vote_for_miner", [string "account", string "miner", bool "approve", broadcast],
      .exec .voteForMiner⟩,
    ⟨"set_voting_proxy",
      [string "account", required .optionalString "voting_account", broadcast],
      .exec .setVotingProxy⟩,
    ⟨"set_desired_miner_count", [string "account", uint16 "number_of_miners", broadcast],
      .exec .setDesiredMinerCount⟩,
    ⟨"list_non_fungible_tokens", [string "lowerbound", uint32 "limit"],
      .query .listNonFungibleTokens⟩,
    ⟨"get_non_fungible_tokens", [required (.vector (.id .nonFungibleTokenId)) "ids"],
      .query .getNonFungibleTokens⟩,
    ⟨"list_non_fungible_token_data", [nftId "nft"], .query .listNonFungibleTokenData⟩,
    ⟨"get_non_fungible_token_summary", [accountId "account"],
      .query .getNonFungibleTokenSummary⟩,
    ⟨"get_non_fungible_token_balances", [string "account", required .stringSet "nfts"],
      .exec .getNonFungibleTokenBalances⟩,
    ⟨"create_non_fungible_token",
      [string "issuer", string "symbol", string "description",
        required (.vector (.value .nonFungibleTokenDataDefinition)) "definitions",
        uint32 "max_supply", bool "fixed_max_supply", bool "transferable", broadcast],
      .exec .createNonFungibleToken⟩,
    ⟨"update_non_fungible_token",
      [string "issuer", string "symbol", string "description", uint32 "max_supply",
        bool "fixed_max_supply", broadcast], .exec .updateNonFungibleToken⟩,
    ⟨"issue_non_fungible_token",
      [string "account", string "symbol", required (.vector .variant) "data", string "memo",
        broadcast], .exec .issueNonFungibleToken⟩,
    ⟨"transfer_non_fungible_token_data",
      [string "account", nftDataId "nft_data_id", string "memo", broadcast],
      .exec .transferNonFungibleTokenData⟩,
    ⟨"burn_non_fungible_token_data", [nftDataId "nft_data_id", broadcast],
      .exec .burnNonFungibleTokenData⟩,
    ⟨"update_non_fungible_token_data",
      [string "modifier", nftDataId "nft_data_id",
        required (.vector (.value .nonFungibleTokenDataValue)) "data", broadcast],
      .exec .updateNonFungibleTokenData⟩,
    ⟨"broadcast_transaction", [required (.value .signedTransaction) "trx"],
      .broadcast .broadcastTransaction⟩,
    ⟨"broadcast_block", [required (.value .signedBlock) "block"], .broadcast .broadcastBlock⟩]

end DCore
