import Mathlib.Data.List.Sort
import NeutronTge.Auction.Types

/-!
# NeutronTge.Auction.Contract

The handlers of the auction. Users deposit USDC and ATOM, `SetPoolSize` divides the
contract's NTRN between two pools by the value of the deposits, `InitPool` provides the
liquidity, and the LP tokens go to the reserve, to the lockdrop and to the vesting contracts.
-/

namespace NeutronTge.Auction

open CosmWasm Astroport
open Lockdrop (PoolType untrnDenom)
open Vesting (VestingAccount)

/-- What a call returns. -/
structure Response where
  storage : Storage
  messages : List CosmosMsg

/-- The storage `instantiate` writes for a message it accepts. -/
def InstantiateMsg.storage (msg : InstantiateMsg) (info : MessageInfo) : Storage where
  config :=
    { owner := msg.owner.getD info.sender
      tokenInfoManager := msg.tokenInfoManager
      reserveContractAddress := msg.reserveContractAddress
      vestingUsdcContractAddress := msg.vestingUsdcContractAddress
      vestingAtomContractAddress := msg.vestingAtomContractAddress
      lockdropContractAddress := msg.lockdropContractAddress
      priceFeedContract := msg.priceFeedContract
      -- set later by `SetTokenInfo`, as the denoms are, or by `UpdateConfig`
      poolInfo := none
      initTimestamp := msg.initTimestamp
      depositWindow := msg.depositWindow
      withdrawalWindow := msg.withdrawalWindow
      lpTokensLockWindow := msg.lpTokensLockWindow
      ntrnDenom := untrnDenom
      usdcDenom := none
      atomDenom := none
      minNtrnAmount := msg.minNtrnAmount
      maxExchangeRateAge := msg.maxExchangeRateAge
      vestingMigrationPackSize := msg.vestingMigrationPackSize
      vestingLpDuration := msg.vestingLpDuration }
  state := .default
  users := ∅

/-- `instantiate`. -/
def instantiate (env : Env) (info : MessageInfo) (msg : InstantiateMsg) :
    Except StdError Storage := do
  rejectIf (msg.initTimestamp < env.time)
    (.genericErr ("Invalid init_timestamp. Current timestamp : " ++ toString env.time))
  .ok (msg.storage info)

/-! ### Windows -/

/-- `init_timestamp + deposit_window`. -/
def depositWindowEnd (config : Config) : Except StdError Nat :=
  Uint.add 64 config.initTimestamp config.depositWindow

/-- `is_deposit_open`. -/
def isDepositOpen (currentTimestamp : Nat) (config : Config) : Except StdError Bool :=
  if currentTimestamp < config.initTimestamp then .ok false
  else do
    let windowEnd ← depositWindowEnd config
    .ok (decide (currentTimestamp < windowEnd))

/-- `init_timestamp + deposit_window + withdrawal_window`. -/
def windowsEnd (config : Config) : Except StdError Nat := do
  let depositEnd ← depositWindowEnd config
  Uint.add 64 depositEnd config.withdrawalWindow

/-- `are_windows_closed`. -/
def areWindowsClosed (currentTimestamp : Nat) (config : Config) : Except StdError Bool := do
  let windowEnd ← windowsEnd config
  .ok (decide (windowEnd ≤ currentTimestamp))

/-- `is_lock_window_closed`. -/
def isLockWindowClosed (currentTimestamp : Nat) (config : Config) : Except StdError Bool := do
  let windowEnd ← windowsEnd config
  let lockWindowEnd ← Uint.add 64 windowEnd config.lpTokensLockWindow
  .ok (decide (lockWindowEnd ≤ currentTimestamp))

/-- `allowed_withdrawal_percent`. -/
def allowedWithdrawalPercent (currentTimestamp : Nat) (config : Config) :
    Except StdError Decimal := do
  let cutoffInitPoint ← depositWindowEnd config
  -- deposit window: all of it
  if currentTimestamp < cutoffInitPoint then FixedPoint.fromRatio 128 100 100
  else do
    -- first half of the withdrawal window, its last second included: 50%
    let cutoffSecondPoint ← Uint.add 64 cutoffInitPoint (config.withdrawalWindow / 2)
    if currentTimestamp ≤ cutoffSecondPoint then FixedPoint.fromRatio 128 50 100
    else do
      -- second half: from 50% linearly down to 0%
      let cutoffFinal ← Uint.add 64 cutoffInitPoint config.withdrawalWindow
      if currentTimestamp < cutoffFinal then do
        let timeLeft ← Uint.sub cutoffFinal currentTimestamp
        let num ← Uint.mul 64 50 timeLeft
        let rest ← Uint.sub cutoffFinal cutoffSecondPoint
        let den ← Uint.mul 64 100 rest
        FixedPoint.fromRatio 128 num den
      else FixedPoint.fromRatio 128 0 100

/-- `get_denoms`. -/
def getDenoms (config : Config) : Except StdError (String × String) := do
  let usdcDenom ← okOr config.usdcDenom
    (.genericErr "USDC Denom is not set yet. Please set it first.")
  let atomDenom ← okOr config.atomDenom
    (.genericErr "ATOM Denom is not set yet. Please set it first.")
  .ok (usdcDenom, atomDenom)

/-! ### Administration -/

/-- `execute_update_config`. -/
def executeUpdateConfig (s : Storage) (info : MessageInfo) (newConfig : UpdateConfigMsg) :
    Except StdError Response := do
  rejectIf (info.sender ≠ s.config.owner) (.genericErr "Only owner can update configuration")
  -- a field that is not given keeps its value
  let config :=
    { s.config with
      owner := newConfig.owner.getD s.config.owner
      lockdropContractAddress :=
        newConfig.lockdropContractAddress <|> s.config.lockdropContractAddress
      priceFeedContract := newConfig.priceFeedContract.getD s.config.priceFeedContract
      vestingMigrationPackSize :=
        newConfig.vestingMigrationPackSize.getD s.config.vestingMigrationPackSize
      poolInfo := newConfig.poolInfo <|> s.config.poolInfo }
  .ok ⟨{ s with config := config }, []⟩

/-- `execute_set_token_info`. -/
def executeSetTokenInfo (s : Storage) (info : MessageInfo) (usdcDenom atomDenom : Option String)
    (poolInfo : Option PoolInfo) : Except StdError Response := do
  rejectIf (info.sender ≠ s.config.tokenInfoManager ∧ info.sender ≠ s.config.owner)
    (.genericErr "Only owner and denom_manager can update denoms")
  let config :=
    { s.config with
      usdcDenom := usdcDenom <|> s.config.usdcDenom
      atomDenom := atomDenom <|> s.config.atomDenom
      poolInfo := poolInfo <|> s.config.poolInfo }
  .ok ⟨{ s with config := config }, []⟩

/-! ### Deposits and withdrawals -/

/-- The amounts of a deposit, by denom. -/
def depositAmounts (usdcDenom atomDenom : String) (funds : List Coin) :
    Except StdError (Nat × Nat) :=
  funds.foldlM
    (fun (usdcAmount, atomAmount) fund =>
      if fund.denom = usdcDenom then .ok (fund.amount, atomAmount)
      else if fund.denom = atomDenom then .ok (usdcAmount, fund.amount)
      else .error (.genericErr
        ("Invalid denom. Expected " ++ usdcDenom ++ " or " ++ atomDenom)))
    (0, 0)

/-- `execute_deposit`. -/
def executeDeposit (s : Storage) (env : Env) (info : MessageInfo) :
    Except StdError Response := do
  let (usdcDenom, atomDenom) ← getDenoms s.config
  let isOpen ← isDepositOpen env.time s.config
  rejectIf (isOpen = false) (.genericErr "Deposit window closed")
  let (usdcAmount, atomAmount) ← depositAmounts usdcDenom atomDenom info.funds
  rejectIf (usdcAmount = 0 ∧ atomAmount = 0)
    (.genericErr ("You must send at least one of " ++ usdcDenom ++ " or " ++ atomDenom))
  -- the first deposit creates the user
  let user := (s.users.mayLoad info.sender).getD .default
  let totalUsdcDeposited ← Uint.add 128 s.state.totalUsdcDeposited usdcAmount
  let totalAtomDeposited ← Uint.add 128 s.state.totalAtomDeposited atomAmount
  let usdcDeposited ← Uint.add 128 user.usdcDeposited usdcAmount
  let atomDeposited ← Uint.add 128 user.atomDeposited atomAmount
  .ok
    { storage :=
        { s with
          state :=
            { s.state with
              totalUsdcDeposited := totalUsdcDeposited
              totalAtomDeposited := totalAtomDeposited }
          users := s.users.save info.sender
            { user with usdcDeposited := usdcDeposited, atomDeposited := atomDeposited } }
      messages := [] }

/-- A payment of a positive amount to the user. -/
def withdrawMsg (user : Addr) (denom : String) (amount : Nat) : List CosmosMsg :=
  if 0 < amount then [.bankSend user ⟨denom, amount⟩] else []

/-- `execute_withdraw`. -/
def executeWithdraw (s : Storage) (env : Env) (info : MessageInfo)
    (amountUsdc amountAtom : Nat) : Except StdError Response := do
  let (usdcDenom, atomDenom) ← getDenoms s.config
  let user ← s.users.load info.sender
  rejectIf (user.withdrawn = true) (.genericErr "Max 1 withdrawal allowed")
  let maxWithdrawalPercent ← allowedWithdrawalPercent env.time s.config
  -- the limit is a part of what is deposited now, per denom
  let maxAllowedUsdc ← FixedPoint.mulUint user.usdcDeposited maxWithdrawalPercent
  let maxAllowedAtom ← FixedPoint.mulUint user.atomDeposited maxWithdrawalPercent
  rejectIf (maxAllowedUsdc < amountUsdc ∨ maxAllowedAtom < amountAtom)
    (.genericErr ("Amount exceeds maximum allowed withdrawal limit of " ++
      maxWithdrawalPercent.display))
  rejectIf (amountUsdc = 0 ∧ amountAtom = 0)
    (.genericErr "At least one token must be withdrawn")
  let depositEnd ← depositWindowEnd s.config
  let totalUsdcDeposited ← Uint.sub s.state.totalUsdcDeposited amountUsdc
  let totalAtomDeposited ← Uint.sub s.state.totalAtomDeposited amountAtom
  let usdcDeposited ← Uint.sub user.usdcDeposited amountUsdc
  let atomDeposited ← Uint.sub user.atomDeposited amountAtom
  .ok
    { storage :=
        { s with
          state :=
            { s.state with
              totalUsdcDeposited := totalUsdcDeposited
              totalAtomDeposited := totalAtomDeposited }
          users := s.users.save info.sender
            { user with
              usdcDeposited := usdcDeposited
              atomDeposited := atomDeposited
              -- after the deposit window only one withdrawal is allowed
              withdrawn := user.withdrawn || decide (depositEnd ≤ env.time) } }
      messages := withdrawMsg info.sender usdcDenom amountUsdc ++
        withdrawMsg info.sender atomDenom amountAtom }

/-! ### The pool size -/

/-- `MINIMUM_LIQUIDITY_AMOUNT`. -/
def minimumLiquidityAmount : Nat := 1000

/-- `get_lp_size`. -/
def getLpSize (token1 token2 : Nat) : Except StdError Nat :=
  (Uint.checkedSub (Nat.sqrt (token1 * token2)) minimumLiquidityAmount).mapError fun _ =>
    .genericErr "LP size is too big"

/-- What part of the contract's NTRN goes to the USDC pool, from the two rates relative to
the dollar. -/
def usdcRatio (usdcAmount atomAmount atomRate usdcRate : Nat) : Except StdError Decimal := do
  let usdcToAtomRate ← FixedPoint.fromRatio 128 usdcRate atomRate
  let atoms ← FixedPoint.parseWhole atomAmount
  let atomInUsdc ← atoms.div usdcToAtomRate
  let allInUsdc ← Uint.checkedAdd 128 usdcAmount atomInUsdc.toUintFloor
  FixedPoint.fromRatio 128 usdcAmount allInUsdc

/-- `execute_set_pool_size`. -/
def executeSetPoolSize (q : Querier) (s : Storage) (env : Env) : Except StdError Response := do
  rejectIf (s.state.lpUsdcSharesMinted.isSome = true ∨ s.state.lpAtomSharesMinted.isSome = true)
    (.genericErr "Liquidity already added")
  -- anybody may call it once the windows are over
  let closed ← areWindowsClosed env.time s.config
  rejectIf (closed = false) (.genericErr "Deposit/withdrawal windows are still open")
  rejectIf (s.state.usdcNtrnSize ≠ 0 ∨ s.state.atomNtrnSize ≠ 0)
    (.genericErr "Pool size has already been set")
  let ntrnAmount ← q.bankBalance s.config.ntrnDenom
  let exchangeData ← q.getRate s.config.priceFeedContract
  -- the price feed lists its rates by ascending symbol: ATOM, then USDC
  match exchangeData with
  | [atom, usdc] => do
      -- only the age of the first rate is checked
      let oldest ← Uint.sub env.time s.config.maxExchangeRateAge
      rejectIf (atom.resolveTime < oldest) (.genericErr "Price feed data is too old")
      rejectIf (ntrnAmount < s.config.minNtrnAmount)
        (.genericErr ("Not enough NTRN in the contract. Min NTRN amount: " ++
          toString s.config.minNtrnAmount))
      -- the USDC pool takes its part of the NTRN by value, the ATOM pool the rest
      let divRatio ← usdcRatio s.state.totalUsdcDeposited s.state.totalAtomDeposited atom.rate
        usdc.rate
      let usdcNtrnSize ← FixedPoint.mulUint ntrnAmount divRatio
      let atomNtrnSize ← Uint.sub ntrnAmount usdcNtrnSize
      let atomLpSize ← getLpSize atomNtrnSize s.state.totalAtomDeposited
      let usdcLpSize ← getLpSize usdcNtrnSize s.state.totalUsdcDeposited
      let state :=
        { s.state with
          usdcNtrnSize := usdcNtrnSize
          atomNtrnSize := atomNtrnSize
          atomLpSize := atomLpSize
          usdcLpSize := usdcLpSize }
      .ok ⟨{ s with state := state }, []⟩
  | _ => .error (.genericErr "Invalid price feed data")

/-! ### The pools -/

/-- `get_lp_balances`. -/
def getLpBalances (q : Querier) (poolInfo : PoolInfo) : Except StdError PoolBalance := do
  let usdc ← q.tokenBalance poolInfo.ntrnUsdcLpTokenAddress
  let atom ← q.tokenBalance poolInfo.ntrnAtomLpTokenAddress
  .ok ⟨atom, usdc⟩

/-- `build_provide_liquidity_to_lp_pool_msg`. The funds are sorted by denom. -/
def buildProvideLiquidityToLpPoolMsg (poolAddress : Addr) (baseAmount : Nat)
    (baseDenom : String) (otherAmount : Nat) (otherDenom : String) : CosmosMsg :=
  let base : Coin := ⟨baseDenom, baseAmount⟩
  let other : Coin := ⟨otherDenom, otherAmount⟩
  .provideLiquidity poolAddress
    [⟨.nativeToken baseDenom, baseAmount⟩, ⟨.nativeToken otherDenom, otherAmount⟩]
    (if otherDenom < baseDenom then [other, base] else [base, other])

/-- `execute_init_pool`. -/
def executeInitPool (q : Querier) (s : Storage) (env : Env) : Except StdError Response := do
  let (usdcDenom, atomDenom) ← getDenoms s.config
  rejectIf (s.state.lpUsdcSharesMinted.isSome = true ∨ s.state.lpAtomSharesMinted.isSome = true)
    (.genericErr "Liquidity already added")
  -- refused only when both sizes are zero: one pool may stay empty
  rejectIf (s.state.usdcLpSize = 0 ∧ s.state.atomLpSize = 0)
    (.genericErr "Pool size has not been set")
  let closed ← isLockWindowClosed env.time s.config
  rejectIf (closed = false) (.genericErr "Lock window is still open!")
  let poolInfo ← okOr s.config.poolInfo (.genericErr "Pool info isn't set yet!")
  -- what is minted is the difference to these balances, taken in the callback
  let prevLpBalance ← getLpBalances q poolInfo
  .ok
    { storage := s
      messages :=
        [buildProvideLiquidityToLpPoolMsg poolInfo.ntrnUsdcPoolAddress s.state.usdcNtrnSize
            s.config.ntrnDenom s.state.totalUsdcDeposited usdcDenom,
          buildProvideLiquidityToLpPoolMsg poolInfo.ntrnAtomPoolAddress s.state.atomNtrnSize
            s.config.ntrnDenom s.state.totalAtomDeposited atomDenom,
          .callback (.finalizePoolInitialization prevLpBalance)] }

/-- The locked LP tokens of a pool go to the lockdrop, which stakes them. -/
def lockedLpMsg (lockdrop lpToken : Addr) (poolType : PoolType) (amount incentivesShare : Nat) :
    List CosmosMsg :=
  if amount = 0 then []
  else [.lpSend lpToken lockdrop amount (.initializePool poolType incentivesShare)]

/-- `execute_finalize_init_pool`. Half of the minted LP tokens go to the reserve. -/
def executeFinalizeInitPool (q : Querier) (s : Storage) (env : Env)
    (prevLpBalance : PoolBalance) : Except StdError Response := do
  let lockdrop ← okOr s.config.lockdropContractAddress
    (.genericErr "Lockdrop address is not set yet. Please set it first.")
  let poolInfo ← okOr s.config.poolInfo (.genericErr "Pool info isn't set yet!")
  let curLpBalance ← getLpBalances q poolInfo
  -- both pools have been provided by now
  let usdcMinted ← Uint.sub curLpBalance.usdc prevLpBalance.usdc
  let atomMinted ← Uint.sub curLpBalance.atom prevLpBalance.atom
  let usdcLpToReserve := usdcMinted / 2
  let atomLpToReserve := atomMinted / 2
  .ok
    { storage :=
        { s with state :=
          { s.state with
            lpAtomSharesMinted := some atomMinted
            lpUsdcSharesMinted := some usdcMinted
            poolInitTimestamp := env.time } }
      messages :=
        -- the transfers to the reserve go out even for an amount of zero, those to the
        -- lockdrop only for a positive one
        [.lpTransfer poolInfo.ntrnUsdcLpTokenAddress s.config.reserveContractAddress
            usdcLpToReserve,
          .lpTransfer poolInfo.ntrnAtomLpTokenAddress s.config.reserveContractAddress
            atomLpToReserve] ++
          lockedLpMsg lockdrop poolInfo.ntrnAtomLpTokenAddress .atom s.state.atomLpLocked
            s.state.atomNtrnSize ++
          lockedLpMsg lockdrop poolInfo.ntrnUsdcLpTokenAddress .usdc s.state.usdcLpLocked
            s.state.usdcNtrnSize }

/-! ### LP tokens of the users -/

/-- A user's part of the LP tokens of a pool, before half of it goes to the reserve. -/
def userLpAmount (userDeposited totalDeposited totalLpTokens : Nat) : Except StdError Nat :=
  if totalDeposited = 0 then .ok 0
  else do
    let ratio ← FixedPoint.fromRatio 128 userDeposited totalDeposited
    FixedPoint.mulUint totalLpTokens ratio

/-- `get_user_lp_info`, for a user and the state of the contract. -/
def getUserLpInfo (user : UserInfo) (state : State) : Except StdError UserLpInfo := do
  let atomLpAmount ← userLpAmount user.atomDeposited state.totalAtomDeposited state.atomLpSize
  let usdcLpAmount ← userLpAmount user.usdcDeposited state.totalUsdcDeposited state.usdcLpSize
  .ok ⟨atomLpAmount / 2, usdcLpAmount / 2⟩

/-- What `execute_lock_lp_tokens` and `execute_withdraw_lp_tokens` check first: the address
of the lockdrop. -/
def lockdropInLockWindow (s : Storage) (env : Env) : Except StdError Addr := do
  rejectIf (s.state.atomNtrnSize = 0 ∨ s.state.usdcNtrnSize = 0)
    (.genericErr "Pool size isn't set yet!")
  let closed ← isLockWindowClosed env.time s.config
  rejectIf (closed = true) (.genericErr "Lock window is closed!")
  okOr s.config.lockdropContractAddress
    (.genericErr "Lockdrop address is not set yet. Please set it first.")

/-- `execute_lock_lp_tokens`. -/
def executeLockLpTokens (s : Storage) (env : Env) (info : MessageInfo) (asset : PoolType)
    (amount duration : Nat) : Except StdError Response := do
  let user ← s.users.load info.sender
  let lockdrop ← lockdropInLockWindow s env
  let userLp ← getUserLpInfo user s.state
  -- `amount = 0` passes this and every later check
  rejectIf (user.deposited asset = 0) (.genericErr ("No " ++ asset.debug ++ " deposited!"))
  let free ← Uint.sub (userLp.of asset) (user.lpLocked asset)
  rejectIf (free < amount) (.genericErr ("Not enough " ++ asset.debug ++ " LP!"))
  let userLocked ← Uint.checkedAdd 128 (user.lpLocked asset) amount
  let locked ← Uint.checkedAdd 128 (s.state.lpLocked asset) amount
  .ok
    { storage :=
        { s with
          state := s.state.withLpLocked asset locked
          users := s.users.save info.sender (user.withLpLocked asset userLocked) }
      messages :=
        [.executeLockdrop lockdrop (.increaseLockupFor info.sender asset amount duration)] }

/-- `execute_withdraw_lp_tokens`. -/
def executeWithdrawLpTokens (s : Storage) (env : Env) (info : MessageInfo) (asset : PoolType)
    (amount duration : Nat) : Except StdError Response := do
  let user ← s.users.load info.sender
  let lockdrop ← lockdropInLockWindow s env
  let userLocked ← Uint.checkedSub (user.lpLocked asset) amount
  let locked ← Uint.checkedSub (s.state.lpLocked asset) amount
  .ok
    { storage :=
        { s with
          state := s.state.withLpLocked asset locked
          users := s.users.save info.sender (user.withLpLocked asset userLocked) }
      messages :=
        -- the lockdrop checks its own limits and fails the whole transaction if they are broken
        [.executeLockdrop lockdrop (.withdrawFromLockup info.sender asset duration amount)] }

/-! ### Vesting -/

/-- The vesting account of a user whose LP tokens vest from now on, if there are any. -/
def vestingAccount (env : Env) (config : Config) (user : Addr) (amount : Nat) :
    Except StdError (List VestingAccount) :=
  if amount = 0 then .ok []
  else do
    let endTime ← Uint.add 64 env.time config.vestingLpDuration
    .ok [⟨user, [⟨⟨env.time, 0⟩, some ⟨endTime, amount⟩⟩]⟩]

/-- What `execute_migrate_to_vesting` has collected: the accounts and their sums. -/
structure MigrationPack where
  users : Map Addr UserInfo
  atomUsers : List VestingAccount
  usdcUsers : List VestingAccount
  atomLpAmount : Nat
  usdcLpAmount : Nat

/-- One user of the loop of `execute_migrate_to_vesting`. -/
def migrateUser (s : Storage) (env : Env) (pack : MigrationPack) (entry : Addr × UserInfo) :
    Except StdError MigrationPack := do
  let (userAddr, user) := entry
  let userLp ← getUserLpInfo user s.state
  -- locked tokens stay with the lockdrop; the rest vests
  let vestAtomLpAmount ← Uint.sub userLp.atomLpAmount user.atomLpLocked
  let vestUsdcLpAmount ← Uint.sub userLp.usdcLpAmount user.usdcLpLocked
  let atomUser ← vestingAccount env s.config userAddr vestAtomLpAmount
  let atomLpAmount ← Uint.add 128 pack.atomLpAmount vestAtomLpAmount
  let usdcUser ← vestingAccount env s.config userAddr vestUsdcLpAmount
  let usdcLpAmount ← Uint.add 128 pack.usdcLpAmount vestUsdcLpAmount
  .ok
    -- a user without unlocked tokens is marked too, so the batches come to an end
    { users := pack.users.save userAddr { user with isVested := true }
      atomUsers := pack.atomUsers ++ atomUser
      usdcUsers := pack.usdcUsers ++ usdcUser
      atomLpAmount := atomLpAmount
      usdcLpAmount := usdcLpAmount }

/-- The users of the index `vested` under `0`, in the ascending order of their addresses. -/
def unvestedUsers (users : Map Addr UserInfo) : List (Addr × UserInfo) :=
  let addrs := users.keys.insertionSort (· ≤ ·)
  addrs.filterMap fun addr =>
    (users.mayLoad addr).bind fun user =>
      if user.isVested then none else some (addr, user)

/-- The LP tokens of a pool that go to its vesting contract. -/
def vestingMsg (lpToken vesting : Addr) (amount : Nat) (accounts : List VestingAccount) :
    List CosmosMsg :=
  if amount = 0 then []
  else [.lpSend lpToken vesting amount (.registerVestingAccounts accounts)]

/-- `execute_migrate_to_vesting`. -/
def executeMigrateToVesting (s : Storage) (env : Env) : Except StdError Response := do
  let users := (unvestedUsers s.users).take s.config.vestingMigrationPackSize
  let poolInfo ← okOr s.config.poolInfo
    (.genericErr "Pool info isn't set yet. Please set it first.")
  rejectIf (s.state.poolInitTimestamp = 0) (.genericErr "Pool isn't initialized yet!")
  rejectIf (users = []) (.genericErr "No users to migrate!")
  let pack ← users.foldlM (migrateUser s env) ⟨s.users, [], [], 0, 0⟩
  .ok
    { storage := { s with users := pack.users }
      messages :=
        vestingMsg poolInfo.ntrnAtomLpTokenAddress s.config.vestingAtomContractAddress
            pack.atomLpAmount pack.atomUsers ++
          vestingMsg poolInfo.ntrnUsdcLpTokenAddress s.config.vestingUsdcContractAddress
            pack.usdcLpAmount pack.usdcUsers }

/-! ### Entry points -/

/-- `execute_callback`, which only the contract itself may call. -/
def executeCallback (q : Querier) (s : Storage) (env : Env) (info : MessageInfo) :
    CallbackMsg → Except StdError Response
  | .finalizePoolInitialization prevLpBalance => do
      rejectIf (info.sender ≠ env.contract) (.genericErr "Unauthorized")
      executeFinalizeInitPool q s env prevLpBalance

/-- `execute`. -/
def execute (q : Querier) (s : Storage) (env : Env) (info : MessageInfo) :
    ExecuteMsg → Except StdError Response
  | .updateConfig newConfig => executeUpdateConfig s info newConfig
  | .setTokenInfo usdcDenom atomDenom poolInfo =>
      executeSetTokenInfo s info usdcDenom atomDenom poolInfo
  | .deposit => executeDeposit s env info
  | .withdraw amountUsdc amountAtom => executeWithdraw s env info amountUsdc amountAtom
  | .setPoolSize => executeSetPoolSize q s env
  | .initPool => executeInitPool q s env
  | .lockLp asset amount duration => executeLockLpTokens s env info asset amount duration
  | .withdrawLp asset amount duration => executeWithdrawLpTokens s env info asset amount duration
  | .migrateToVesting => executeMigrateToVesting s env
  | .callback msg => executeCallback q s env info msg

end NeutronTge.Auction
