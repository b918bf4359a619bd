import NeutronTge.CosmWasm.Storage
import NeutronTge.CosmWasm.Message
import NeutronTge.Astroport.Asset
import NeutronTge.Astroport.RewardIndex

/-!
# NeutronTge.Lockdrop.Types

The data of the XYK lockdrop: its storage, its messages, what it asks of other contracts
(`CosmosMsg`) and what it reads from them (`Querier`).
-/

namespace NeutronTge.Lockdrop

open CosmWasm Astroport

/-- The two pools. -/
inductive PoolType
  | usdc
  | atom
  deriving Repr, DecidableEq

/-- All pool types in the ascending order of their storage keys `"atom"` and `"usdc"`. -/
def PoolType.all : List PoolType := [.atom, .usdc]

theorem PoolType.mem_all (p : PoolType) : p ∈ PoolType.all := by
  cases p <;> simp [PoolType.all]

/-- The name of a pool type in an error text. -/
def PoolType.debug : PoolType → String
  | .usdc => "USDC"
  | .atom => "ATOM"

/-- `UNTRN_DENOM`. -/
def untrnDenom : String := "untrn"

/-! ### Storage -/

/-- How much a unit weighs that is locked for a duration. -/
structure LockupRewardsInfo where
  duration : Nat
  coefficient : Decimal256
  deriving Repr, DecidableEq

/-- The configuration of the lockdrop. -/
structure Config where
  owner : Addr
  tokenInfoManager : Addr
  creditsContract : Addr
  auctionContract : Addr
  generator : Option Addr
  initTimestamp : Nat
  lockWindow : Nat
  withdrawalWindow : Nat
  minLockDuration : Nat
  maxLockDuration : Nat
  lockdropIncentives : Nat
  maxPositionsPerUser : Nat
  lockupRewardsInfo : List LockupRewardsInfo
  deriving Repr, DecidableEq

/-- The part of the state that belongs to no pool. -/
structure State where
  totalIncentivesShare : Nat
  deriving Repr, DecidableEq

/-- A pool of LP tokens that are locked. -/
structure PoolInfo where
  lpToken : Addr
  amountInLockups : Nat
  incentivesShare : Nat
  weightedAmount : Nat
  generatorNtrnPerShare : Decimal
  generatorProxyPerShare : RestrictedVector AssetInfo Decimal
  isStaked : Bool
  deriving Repr, DecidableEq

/-- What is known of a user apart from his lockups. -/
structure UserInfo where
  totalNtrnRewards : Nat
  ntrnTransferred : Bool
  lockupPositionsIndex : Nat
  deriving Repr, DecidableEq

/-- `UserInfo::default()`. -/
def UserInfo.default : UserInfo := ⟨0, false, 0⟩

/-- A lockup as the previous version of the contract stored it. -/
structure LockupInfoV1 where
  lpUnitsLocked : Nat
  astroportLpTransferred : Option Nat
  withdrawalFlag : Bool
  ntrnRewards : Nat
  generatorNtrnDebt : Nat
  generatorProxyDebt : Nat
  unlockTimestamp : Nat
  deriving Repr, DecidableEq

/-- A lockup: the units of a user in a pool for a duration. -/
structure LockupInfoV2 where
  lpUnitsLocked : Nat
  astroportLpTransferred : Option Nat
  withdrawalFlag : Bool
  ntrnRewards : Nat
  generatorNtrnDebt : Nat
  generatorProxyDebt : RestrictedVector AssetInfo Nat
  unlockTimestamp : Nat
  deriving Repr, DecidableEq

/-- `LOCKUP_INFO` and `OLD_LOCKUP_INFO` share their storage, so an entry is of one of the
two versions. -/
inductive StoredLockup
  | v1 (info : LockupInfoV1)
  | v2 (info : LockupInfoV2)
  deriving Repr, DecidableEq

/-- What both versions say about a lockup, apart from its rewards. -/
structure LockupCore where
  lpUnitsLocked : Nat
  astroportLpTransferred : Option Nat
  withdrawalFlag : Bool
  generatorNtrnDebt : Nat
  unlockTimestamp : Nat
  deriving Repr, DecidableEq

/-- What both versions of a lockup have in common. -/
def LockupInfoV2.core (info : LockupInfoV2) : LockupCore :=
  ⟨info.lpUnitsLocked, info.astroportLpTransferred, info.withdrawalFlag,
    info.generatorNtrnDebt, info.unlockTimestamp⟩

namespace StoredLockup

/-- What both versions of a lockup have in common. -/
def core : StoredLockup → LockupCore
  | v1 info => ⟨info.lpUnitsLocked, info.astroportLpTransferred, info.withdrawalFlag,
      info.generatorNtrnDebt, info.unlockTimestamp⟩
  | v2 info => info.core

/-- The one-time reward of a lockup, once it is computed. -/
def ntrnRewards : StoredLockup → Nat
  | v1 info => info.ntrnRewards
  | v2 info => info.ntrnRewards

@[simp] theorem core_v2 (info : LockupInfoV2) : (v2 info).core = info.core := rfl

@[simp] theorem ntrnRewards_v2 (info : LockupInfoV2) :
    (v2 info).ntrnRewards = info.ntrnRewards := rfl

end StoredLockup

/-- The key `(pool_type, user_address, duration)` of a lockup. -/
structure LockupKey where
  poolType : PoolType
  user : Addr
  duration : Nat
  deriving Repr, DecidableEq

/-- The storage of the contract. -/
structure Storage where
  config : Config
  state : State
  assetPools : SnapshotMap PoolType PoolInfo
  userInfo : Map Addr UserInfo
  lockupInfo : Map LockupKey StoredLockup
  totalUserLockupAmount : SnapshotMap (PoolType × Addr) Nat
  pclLockdropContract : Option Addr
  ownershipProposal : Option OwnershipProposal

/-! ### Messages -/

/-- The configuration that `instantiate` gets. -/
structure InstantiateMsg where
  owner : Option Addr
  tokenInfoManager : Addr
  creditsContract : Addr
  auctionContract : Addr
  initTimestamp : Nat
  lockWindow : Nat
  withdrawalWindow : Nat
  minLockDuration : Nat
  maxLockDuration : Nat
  maxPositionsPerUser : Nat
  lockupRewardsInfo : List LockupRewardsInfo
  deriving Repr, DecidableEq

/-- The new values of the configuration; a missing one keeps the old. -/
structure UpdateConfigMsg where
  auctionContractAddress : Option Addr
  generatorAddress : Option Addr
  deriving Repr, DecidableEq

/-- The messages that come with LP tokens. -/
inductive Cw20HookMsg
  | initializePool (poolType : PoolType) (incentivesShare : Nat)
  deriving Repr, DecidableEq

/-- A cw20 hook call. `msg` is `none` when the payload does not parse. -/
structure Cw20ReceiveMsg where
  sender : Addr
  amount : Nat
  msg : Option Cw20HookMsg
  deriving Repr, DecidableEq

/-- The messages that the lockdrop sends to itself. -/
inductive CallbackMsg
  | updatePoolOnDualRewardsClaim (poolType : PoolType) (prevNtrnBalance : Nat)
      (prevProxyRewardBalances : List Asset)
  | withdrawUserLockupRewardsCallback (poolType : PoolType) (userAddress : Addr)
      (duration : Nat) (withdrawLpStake : Bool)
  | initMigrateLockupToPCLPoolsCallback (poolType : PoolType) (userAddress : Addr)
      (duration : Nat)
  | transferAllRewardsBeforeMigrationCallback (poolType : PoolType) (userAddress : Addr)
      (duration : Nat)
  | withdrawUserLockupCallback (poolType : PoolType) (userAddress : Addr) (duration : Nat)
      (generator astroportLpToken : Addr) (astroportLpAmount : Nat)
  | migrateUserLockupToPCLPairCallback (poolType : PoolType) (userAddress : Addr)
      (duration : Nat) (ntrnBalance : Nat) (pairedAssetDenom : String)
      (pairedAssetBalance : Nat)
  deriving Repr, DecidableEq

/-- The messages of the contract. -/
inductive ExecuteMsg
  | increaseLockupFor (userAddress : Addr) (poolType : PoolType) (amount duration : Nat)
  | receive (msg : Cw20ReceiveMsg)
  | increaseNTRNIncentives
  | updateConfig (newConfig : UpdateConfigMsg)
  | setTokenInfo (atomToken usdcToken generator : Addr)
  | withdrawFromLockup (userAddress : Addr) (poolType : PoolType) (duration amount : Nat)
  | claimRewardsAndOptionallyUnlock (poolType : PoolType) (duration : Nat)
      (withdrawLpStake : Bool)
  | callback (msg : CallbackMsg)
  | proposeNewOwner (owner : Addr) (expiresIn : Nat)
  | dropOwnershipProposal
  | claimOwnership
  | migrateLiquidityToPCLPools (userAddressRaw : Option Addr)
  deriving Repr, DecidableEq

/-- Which payment of the contract a bank transfer is. -/
inductive Payment
  /-- The base rewards of the generator for a lockup of the pool. -/
  | generatorReward (poolType : PoolType)
  /-- The one-time reward for taking part in the lockdrop. -/
  | lockdropReward
  deriving Repr, DecidableEq

/-- The messages the contract sends. `payment` is not part of a bank message: it records
which line of the source built it. -/
inductive CosmosMsg
  | callback (msg : CallbackMsg)
  | bankSend (payment : Payment) (toAddress : Addr) (amount : Coin)
  | transfer (msg : TransferMsg)
  | increaseAllowance (token spender : Addr) (amount expiresAtHeight : Nat)
  | sendDeposit (token generator : Addr) (amount : Nat)
  | claimRewards (generator : Addr) (lpTokens : List Addr)
  | generatorWithdraw (generator lpToken : Addr) (amount : Nat)
  | lpTransfer (lpToken recipient : Addr) (amount : Nat)
  | withdrawLiquidity (lpToken pool : Addr) (amount : Nat)
  | burnFrom (creditsContract owner : Addr) (amount : Nat)
  | migrateXYKLiquidity (pclLockdrop : Addr) (funds : List Coin) (poolType : PoolType)
      (userAddressRaw : Addr) (duration : Nat) (userInfo : UserInfo)
      (lockupInfo : LockupInfoV2) (stake : Bool)
  deriving Repr, DecidableEq

/-! ### Queries -/

/-- What the generator answers about pending rewards. -/
structure PendingTokenResponse where
  pending : Nat
  pendingOnProxy : Option (List Asset)
  deriving Repr, DecidableEq

/-- What the contract can read from the other contracts. The contract only asks for its
own deposits and balances, so its address is not an argument. -/
structure Querier where
  /-- `PendingToken` of a generator, for an LP token. -/
  pendingToken : Addr → Addr → Except StdError PendingTokenResponse
  /-- `RewardInfo`: the denom of the base reward. -/
  baseRewardToken : Addr → Addr → Except StdError String
  /-- `Deposit`. -/
  deposit : Addr → Addr → Except StdError Nat
  /-- `raw_generator_deposit`. -/
  rawGeneratorDeposit : Addr → Addr → Except StdError Nat
  /-- `PoolInfo`: the proxies of `accumulated_proxy_rewards_per_share`. -/
  rewardProxies : Addr → Addr → Except StdError (List Addr)
  /-- `raw_proxy_asset`. -/
  rawProxyAsset : Addr → Addr → Except StdError AssetInfo
  /-- The cw20 `Balance` of a token. -/
  tokenBalance : Addr → Except StdError Nat
  /-- `raw_balance`. -/
  rawBalance : Addr → Except StdError Nat
  /-- The cw20 `Minter` of a token. -/
  minter : Addr → Except StdError Addr
  /-- `Pool` of a pair: its assets. -/
  poolAssets : Addr → Except StdError (List AssetInfo)
  /-- `query_balance` of the bank. -/
  bankBalance : String → Except StdError Nat
  /-- `query_pool` of an asset. -/
  queryPool : AssetInfo → Except StdError Nat
  /-- `Balance` of a user in the credits contract. -/
  creditsBalance : Addr → Addr → Except StdError Nat
  /-- `WithdrawableAmount` of a user in the credits contract. -/
  withdrawableAmount : Addr → Addr → Except StdError Nat
  /-- `VestedAmount` of a user in the credits contract. -/
  vestedAmount : Addr → Addr → Except StdError Nat

end NeutronTge.Lockdrop
