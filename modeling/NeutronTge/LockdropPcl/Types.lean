import NeutronTge.Lockdrop.Types

/-!
# NeutronTge.LockdropPcl.Types

The data of the PCL lockdrop, which takes over the lockups of the XYK lockdrop: its
storage, its messages, what it asks of other contracts and what it reads from them. Pool
types, lockup keys and reward coefficients are those of the XYK lockdrop.
-/

namespace NeutronTge.LockdropPcl

open CosmWasm Astroport
open Lockdrop (PoolType LockupKey LockupRewardsInfo)

/-! ### Storage -/

/-- The configuration of the PCL lockdrop. -/
structure Config where
  owner : Addr
  xykLockdropContract : Addr
  creditsContract : Addr
  auctionContract : Addr
  incentives : Addr
  lockdropIncentives : Nat
  lockupRewardsInfo : List LockupRewardsInfo
  deriving Repr, DecidableEq

/-- The part of the state that belongs to no pool. -/
structure State where
  totalIncentivesShare : Nat
  deriving Repr, DecidableEq

/-- A pool of LP tokens that came from the XYK lockdrop. -/
structure PoolInfo where
  lpToken : Addr
  amountInLockups : Nat
  incentivesShare : Nat
  weightedAmount : Nat
  incentivesRewardsPerShare : RestrictedVector AssetInfo Decimal
  isStaked : Bool
  deriving Repr, DecidableEq

/-- What is known of a user apart from his lockups. -/
structure UserInfo where
  totalNtrnRewards : Nat
  ntrnTransferred : Bool
  lockupPositionsIndex : Nat
  deriving Repr, DecidableEq

/-- `UserInfo::default()`. -/
def UserInfo.default : UserInfo := ⟨0, false, 0⟩

/-- `From<LockdropXYKUserInfo>`. -/
def UserInfo.ofXyk (i : Lockdrop.UserInfo) : UserInfo where
  totalNtrnRewards := i.totalNtrnRewards
  ntrnTransferred := i.ntrnTransferred
  lockupPositionsIndex := i.lockupPositionsIndex

/-- A lockup that came from the XYK lockdrop. -/
structure LockupInfo where
  lpUnitsLocked : Nat
  astroportLpTransferred : Option Nat
  withdrawalFlag : Bool
  ntrnRewards : Nat
  incentivesDebt : RestrictedVector AssetInfo Nat
  unlockTimestamp : Nat
  deriving Repr, DecidableEq

/-- `LockupInfo::from_xyk_lockup_info`: the units are the LP tokens that the PCL pool
minted. -/
def LockupInfo.fromXykLockupInfo (i : Lockdrop.LockupInfoV2) (lpUnitsLocked : Nat) :
    LockupInfo where
  lpUnitsLocked := lpUnitsLocked
  astroportLpTransferred := none
  withdrawalFlag := i.withdrawalFlag
  ntrnRewards := i.ntrnRewards
  incentivesDebt := []
  unlockTimestamp := i.unlockTimestamp

/-- The storage of the contract. -/
structure Storage where
  config : Config
  state : State
  assetPools : SnapshotMap PoolType PoolInfo
  userInfo : Map Addr UserInfo
  lockupInfo : Map LockupKey LockupInfo
  totalUserLockupAmount : SnapshotMap (PoolType × Addr) Nat
  ownershipProposal : Option OwnershipProposal

/-! ### Messages -/

/-- The configuration and the pools that `instantiate` gets. -/
structure InstantiateMsg where
  owner : Option Addr
  xykLockdropContract : Addr
  creditsContract : Addr
  auctionContract : Addr
  incentives : Addr
  lockupRewardsInfo : List LockupRewardsInfo
  usdcToken : Addr
  atomToken : Addr
  lockdropIncentives : Nat
  usdcIncentivesShare : Nat
  usdcWeightedAmount : Nat
  atomIncentivesShare : Nat
  atomWeightedAmount : Nat
  deriving Repr, DecidableEq

/-- The messages that the lockdrop sends to itself. -/
inductive CallbackMsg
  | updatePoolOnDualRewardsClaim (poolType : PoolType) (prevRewardBalances : List Asset)
  | withdrawUserLockupRewardsCallback (poolType : PoolType) (userAddress : Addr)
      (duration : Nat) (withdrawLpStake : Bool)
  | finishLockupMigrationCallback (poolType : PoolType) (userAddress : Addr) (duration : Nat)
      (lpToken : Addr) (prevLpTokenAmount : Nat) (userInfo : Lockdrop.UserInfo)
      (lockupInfo : Lockdrop.LockupInfoV2) (stake : Bool)
  deriving Repr, DecidableEq

/-- The messages of the contract. -/
inductive ExecuteMsg
  | updateConfig (incentivesAddress : Option Addr)
  | claimRewardsAndOptionallyUnlock (poolType : PoolType) (duration : Nat)
      (withdrawLpStake : Bool)
  | callback (msg : CallbackMsg)
  | proposeNewOwner (owner : Addr) (expiresIn : Nat)
  | dropOwnershipProposal
  | claimOwnership
  | migrateXYKLiquidity (poolType : PoolType) (userAddressRaw : Addr) (duration : Nat)
      (userInfo : Lockdrop.UserInfo) (lockupInfo : Lockdrop.LockupInfoV2) (stake : Bool)
  deriving Repr, DecidableEq

/-- The messages the contract sends. -/
inductive CosmosMsg
  | callback (msg : CallbackMsg)
  /-- The one-time reward. -/
  | bankSend (toAddress : Addr) (amount : Coin)
  /-- A reward of the incentives contract. -/
  | transfer (msg : TransferMsg)
  | claimRewards (incentives : Addr) (lpTokens : List Addr)
  | incentivesWithdraw (incentives lpToken : Addr) (amount : Nat)
  | lpTransfer (lpToken recipient : Addr) (amount : Nat)
  /-- `ProvideLiquidity` without receiver: the LP tokens are minted to the contract. -/
  | provideLiquidity (pool : Addr) (assets : List Asset) (funds : List Coin)
  | sendDeposit (token incentives : Addr) (amount : Nat)
  | burnFrom (creditsContract owner : Addr) (amount : Nat)
  deriving Repr, DecidableEq

/-! ### Queries -/

/-- `RewardType`: an internal or an external reward of the incentives contract. -/
inductive RewardType
  | int (info : AssetInfo)
  | ext (info : AssetInfo) (nextUpdateTs : Nat)
  deriving Repr, DecidableEq

/-- The reward's asset. -/
def RewardType.asset : RewardType → AssetInfo
  | .int info => info
  | .ext info _ => info

/-- What the contract can read from the other contracts, about itself. -/
structure Querier where
  /-- `Deposit` of an incentives contract, for an LP token. -/
  deposit : Addr → Addr → Except StdError Nat
  /-- `PendingRewards`. -/
  pendingRewards : Addr → Addr → Except StdError (List Asset)
  /-- `RewardInfo`: the rewards of an LP token. -/
  rewardInfo : Addr → Addr → Except StdError (List RewardType)
  /-- `raw_incentives_deposit`. -/
  rawIncentivesDeposit : Addr → Addr → Except StdError Nat
  /-- The cw20 `Balance` of a token. -/
  tokenBalance : Addr → Except StdError Nat
  /-- `raw_balance`. -/
  rawBalance : Addr → Except StdError Nat
  /-- The cw20 `Minter` of a token. -/
  minter : Addr → Except StdError Addr
  /-- `query_pool` of an asset. -/
  queryPool : AssetInfo → Except StdError Nat
  /-- `Balance` of a user in the credits contract. -/
  creditsBalance : Addr → Addr → Except StdError Nat
  /-- `WithdrawableAmount` of a user in the credits contract. -/
  withdrawableAmount : Addr → Addr → Except StdError Nat
  /-- `VestedAmount` of a user in the credits contract. -/
  vestedAmount : Addr → Addr → Except StdError Nat

end NeutronTge.LockdropPcl
