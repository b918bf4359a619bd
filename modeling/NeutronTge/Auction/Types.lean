import NeutronTge.Lockdrop.Types
import NeutronTge.Vesting.Base

/-!
# NeutronTge.Auction.Types

The data of the auction: its storage, its messages, what it asks of other contracts and what
it reads from them. The source has two fields for almost everything, one for USDC and one for
ATOM; `State.totalDeposited`, `UserInfo.lpLocked` and the like select one of them by the
pool type of the lockdrop.
-/

namespace NeutronTge.Auction

open CosmWasm Astroport
open Lockdrop (PoolType)
open Vesting (VestingAccount VestingSchedule VestingSchedulePoint)

/-! ### Storage -/

/-- The pairs for the two deposited assets, and their LP tokens. -/
structure PoolInfo where
  ntrnUsdcPoolAddress : Addr
  ntrnAtomPoolAddress : Addr
  ntrnUsdcLpTokenAddress : Addr
  ntrnAtomLpTokenAddress : Addr
  deriving Repr, DecidableEq

/-- The configuration of the auction. -/
structure Config where
  owner : Addr
  tokenInfoManager : Addr
  reserveContractAddress : Addr
  vestingUsdcContractAddress : Addr
  vestingAtomContractAddress : Addr
  lockdropContractAddress : Option Addr
  priceFeedContract : Addr
  poolInfo : Option PoolInfo
  initTimestamp : Nat
  depositWindow : Nat
  withdrawalWindow : Nat
  lpTokensLockWindow : Nat
  ntrnDenom : String
  usdcDenom : Option String
  atomDenom : Option String
  minNtrnAmount : Nat
  maxExchangeRateAge : Nat
  vestingMigrationPackSize : Nat
  vestingLpDuration : Nat
  deriving Repr, DecidableEq

/-- The totals of the auction, and the sizes of the two pools once they are set. -/
structure State where
  totalUsdcDeposited : Nat
  totalAtomDeposited : Nat
  lpUsdcSharesMinted : Option Nat
  lpAtomSharesMinted : Option Nat
  poolInitTimestamp : Nat
  usdcNtrnSize : Nat
  atomNtrnSize : Nat
  usdcLpSize : Nat
  atomLpSize : Nat
  usdcLpLocked : Nat
  atomLpLocked : Nat
  deriving Repr, DecidableEq

/-- `State::default()`. -/
def State.default : State := ⟨0, 0, none, none, 0, 0, 0, 0, 0, 0, 0⟩

/-- What a user has deposited and locked. -/
structure UserInfo where
  usdcDeposited : Nat
  atomDeposited : Nat
  withdrawn : Bool
  usdcLpLocked : Nat
  atomLpLocked : Nat
  isVested : Bool
  deriving Repr, DecidableEq

/-- `UserInfo::default()`. -/
def UserInfo.default : UserInfo := ⟨0, 0, false, 0, 0, false⟩

/-- The storage of the contract. -/
structure Storage where
  config : Config
  state : State
  users : Map Addr UserInfo

/-! ### Fields by asset -/

section Fields

variable (p : PoolType)

/-- What all users have deposited of an asset. -/
def State.totalDeposited (s : State) : Nat :=
  match p with
  | .usdc => s.totalUsdcDeposited
  | .atom => s.totalAtomDeposited

/-- The NTRN for the pool of an asset, once the pool sizes are set. -/
def State.ntrnSize (s : State) : Nat :=
  match p with
  | .usdc => s.usdcNtrnSize
  | .atom => s.atomNtrnSize

/-- The LP tokens for the users of a pool, once the pool sizes are set. -/
def State.lpSize (s : State) : Nat :=
  match p with
  | .usdc => s.usdcLpSize
  | .atom => s.atomLpSize

/-- The LP tokens that a pair has minted, once the pools are made. -/
def State.lpSharesMinted (s : State) : Option Nat :=
  match p with
  | .usdc => s.lpUsdcSharesMinted
  | .atom => s.lpAtomSharesMinted

/-- The LP tokens of a pool that all users have locked. -/
def State.lpLocked (s : State) : Nat :=
  match p with
  | .usdc => s.usdcLpLocked
  | .atom => s.atomLpLocked

/-- Another number of locked LP tokens of a pool. -/
def State.withLpLocked (s : State) (amount : Nat) : State :=
  match p with
  | .usdc => { s with usdcLpLocked := amount }
  | .atom => { s with atomLpLocked := amount }

/-- What the user has deposited of an asset. -/
def UserInfo.deposited (u : UserInfo) : Nat :=
  match p with
  | .usdc => u.usdcDeposited
  | .atom => u.atomDeposited

/-- The LP tokens of a pool that the user has locked. -/
def UserInfo.lpLocked (u : UserInfo) : Nat :=
  match p with
  | .usdc => u.usdcLpLocked
  | .atom => u.atomLpLocked

/-- Another number of locked LP tokens of the user. -/
def UserInfo.withLpLocked (u : UserInfo) (amount : Nat) : UserInfo :=
  match p with
  | .usdc => { u with usdcLpLocked := amount }
  | .atom => { u with atomLpLocked := amount }

end Fields

/-! ### Messages -/

/-- The configuration that `instantiate` gets. The windows are lengths in seconds. -/
structure InstantiateMsg where
  owner : Option Addr
  tokenInfoManager : Addr
  priceFeedContract : Addr
  lockdropContractAddress : Option Addr
  reserveContractAddress : Addr
  vestingUsdcContractAddress : Addr
  vestingAtomContractAddress : Addr
  lpTokensLockWindow : Nat
  initTimestamp : Nat
  depositWindow : Nat
  withdrawalWindow : Nat
  maxExchangeRateAge : Nat
  minNtrnAmount : Nat
  vestingMigrationPackSize : Nat
  vestingLpDuration : Nat
  deriving Repr, DecidableEq

/-- The new values of the configuration; a missing one keeps the old. -/
structure UpdateConfigMsg where
  owner : Option Addr
  priceFeedContract : Option Addr
  lockdropContractAddress : Option Addr
  vestingMigrationPackSize : Option Nat
  poolInfo : Option PoolInfo
  deriving Repr, DecidableEq

/-- The LP balances of the auction in both pools. -/
structure PoolBalance where
  atom : Nat
  usdc : Nat
  deriving Repr, DecidableEq

/-- The messages that the auction sends to itself. -/
inductive CallbackMsg
  | finalizePoolInitialization (prevLpBalance : PoolBalance)
  deriving Repr, DecidableEq

/-- The messages of the contract. -/
inductive ExecuteMsg
  | updateConfig (newConfig : UpdateConfigMsg)
  | setTokenInfo (usdcDenom atomDenom : Option String) (poolInfo : Option PoolInfo)
  | deposit
  | withdraw (amountUsdc amountAtom : Nat)
  | initPool
  | setPoolSize
  | lockLp (asset : PoolType) (amount duration : Nat)
  | withdrawLp (asset : PoolType) (amount duration : Nat)
  | migrateToVesting
  | callback (msg : CallbackMsg)
  deriving Repr, DecidableEq

/-- What LP tokens are sent with: `Cw20HookMsg::InitializePool` of the lockdrop, or
`RegisterVestingAccounts` of a vesting contract. -/
inductive SendHook
  | initializePool (poolType : PoolType) (incentivesShare : Nat)
  | registerVestingAccounts (vestingAccounts : List VestingAccount)
  deriving Repr, DecidableEq

/-- The messages the contract sends. -/
inductive CosmosMsg
  | callback (msg : CallbackMsg)
  | bankSend (toAddress : Addr) (amount : Coin)
  | provideLiquidity (pool : Addr) (assets : List Asset) (funds : List Coin)
  | lpTransfer (lpToken recipient : Addr) (amount : Nat)
  | lpSend (lpToken contract : Addr) (amount : Nat) (msg : SendHook)
  | executeLockdrop (lockdrop : Addr) (msg : Lockdrop.ExecuteMsg)
  deriving Repr, DecidableEq

/-! ### Queries -/

/-- A rate as the price feed answers it. -/
structure PriceFeedRate where
  rate : Nat
  resolveTime : Nat
  requestId : Nat
  deriving Repr, DecidableEq

/-- What the contract can read from the chain, about itself, and from the price feed. -/
structure Querier where
  /-- `query_balance` of the bank. -/
  bankBalance : String → Except StdError Nat
  /-- The cw20 `Balance` of a token. -/
  tokenBalance : Addr → Except StdError Nat
  /-- `GetRate` of a price feed. -/
  getRate : Addr → Except StdError (List PriceFeedRate)

/-- The LP tokens of a user in both pools. -/
structure UserLpInfo where
  atomLpAmount : Nat
  usdcLpAmount : Nat
  deriving Repr, DecidableEq

/-- The LP tokens of the user in one of the pools. -/
def UserLpInfo.of (p : PoolType) (i : UserLpInfo) : Nat :=
  match p with
  | .usdc => i.usdcLpAmount
  | .atom => i.atomLpAmount

end NeutronTge.Auction
