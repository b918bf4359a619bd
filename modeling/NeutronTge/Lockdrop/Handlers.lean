import NeutronTge.Lockdrop.Rewards

/-!
# NeutronTge.Lockdrop.Handlers

The messages of the lockdrop that users, the auction and the owner send. A handler takes
the storage to the storage it leaves and the messages it sends.
-/

namespace NeutronTge.Lockdrop

open CosmWasm Astroport

/-- What a call returns. Of the event attributes only the received base reward is kept,
which `update_pool_on_dual_rewards_claim` reports with its pool. -/
structure Response where
  storage : Storage
  messages : List CosmosMsg
  ntrnRewardReceived : Option (PoolType × Nat)

/-- A response without messages. -/
def Response.quiet (s : Storage) : Response := ⟨s, [], none⟩

/-- `MIN_POSITIONS_PER_USER`. -/
def minPositionsPerUser : Nat := 1

/-- The storage `instantiate` writes for a message it accepts. -/
def InstantiateMsg.storage (msg : InstantiateMsg) (info : MessageInfo) : Storage where
  config :=
    { owner := msg.owner.getD info.sender
      tokenInfoManager := msg.tokenInfoManager
      creditsContract := msg.creditsContract
      auctionContract := msg.auctionContract
      generator := none
      initTimestamp := msg.initTimestamp
      lockWindow := msg.lockWindow
      withdrawalWindow := msg.withdrawalWindow
      minLockDuration := msg.minLockDuration
      maxLockDuration := msg.maxLockDuration
      lockdropIncentives := 0
      maxPositionsPerUser := msg.maxPositionsPerUser
      lockupRewardsInfo := msg.lockupRewardsInfo }
  state := ⟨0⟩
  assetPools := SnapshotMap.empty
  userInfo := ∅
  lockupInfo := ∅
  totalUserLockupAmount := SnapshotMap.empty
  pclLockdropContract := none
  ownershipProposal := none

/-- `instantiate`. -/
def instantiate (env : Env) (info : MessageInfo) (msg : InstantiateMsg) :
    Except StdError Storage := do
  rejectIf (msg.initTimestamp < env.time)
    (.genericErr ("Invalid init_timestamp. Current timestamp : " ++ toString env.time))
  rejectIf (msg.maxLockDuration < msg.minLockDuration ∨ msg.minLockDuration = 0)
    (.genericErr "Invalid Lockup durations")
  rejectIf (msg.lockupRewardsInfo = []) (.genericErr "Invalid lockup rewards info")
  rejectIf (∃ i ∈ msg.lockupRewardsInfo, i.duration = 0)
    (.genericErr "Invalid Lockup info rewards duration")
  rejectIf (msg.maxPositionsPerUser < minPositionsPerUser)
    (.genericErr ("The maximum number of locked positions per user cannot be lower than a " ++
      "minimum acceptable value."))
  .ok (msg.storage info)

/-- `migrate`, which names the PCL lockdrop. -/
def migrate (s : Storage) (pclLockdropContract : Addr) : Storage :=
  { s with pclLockdropContract := some pclLockdropContract }

/-! ### Administration -/

/-- `handle_update_config`. The generator stays as long as some pool is staked. -/
def handleUpdateConfig (s : Storage) (info : MessageInfo) (newConfig : UpdateConfigMsg) :
    Except StdError Response := do
  rejectIf (info.sender ≠ s.config.owner) (.genericErr "Unauthorized")
  let staked := (poolTypes s).find? fun p => (s.assetPools.mayLoad p).any PoolInfo.isStaked
  rejectIf (newConfig.generatorAddress.isSome = true ∧ s.config.generator.isSome = true ∧
      staked.isSome = true)
    (.genericErr ((staked.map PoolType.debug).getD "" ++
      " astro LP tokens already staked. Unstake them before updating generator"))
  .ok (.quiet { s with config :=
    { s.config with
      auctionContract := newConfig.auctionContractAddress.getD s.config.auctionContract
      generator := newConfig.generatorAddress <|> s.config.generator } })

/-- A pool as `handle_set_token_info` creates it. -/
def PoolInfo.initial (lpToken : Addr) : PoolInfo where
  lpToken := lpToken
  amountInLockups := 0
  incentivesShare := 0
  weightedAmount := 0
  generatorNtrnPerShare := FixedPoint.zero
  generatorProxyPerShare := []
  isStaked := false

/-- `handle_set_token_info`: both pools start from scratch. -/
def handleSetTokenInfo (s : Storage) (env : Env) (info : MessageInfo)
    (usdcToken atomToken generator : Addr) : Except StdError Response := do
  rejectIf (info.sender ≠ s.config.owner ∧ info.sender ≠ s.config.tokenInfoManager)
    (.genericErr "Unauthorized")
  -- nothing asks whether the pools exist or are staked already
  let assetPools := s.assetPools.save .atom (.initial atomToken) env.height
  let assetPools := assetPools.save .usdc (.initial usdcToken) env.height
  .ok (.quiet { s with
    assetPools := assetPools
    config := { s.config with generator := some generator } })

/-- `handle_increasing_ntrn_incentives`. -/
def handleIncreasingNtrnIncentives (s : Storage) (env : Env) (info : MessageInfo) :
    Except StdError Response := do
  let closed ← windowsEnd s.config
  rejectIf (closed ≤ env.time) (.genericErr "Lock window is closed")
  -- only the first `untrn` coin counts
  let coin ← okOr (info.funds.find? fun c => c.denom = untrnDenom)
    (.genericErr "untrn is not found")
  let lockdropIncentives ← Uint.checkedAdd 128 s.config.lockdropIncentives coin.amount
  .ok (.quiet { s with config := { s.config with lockdropIncentives := lockdropIncentives } })

/-! ### Staking -/

/-- `stake_messages`. -/
def stakeMessages (config : Config) (height : Nat) (lpTokenAddress : Addr) (amount : Nat) :
    Except StdError (List CosmosMsg) := do
  let generator ← okOr config.generator (.genericErr "Generator address hasn't set yet!")
  .ok [.increaseAllowance lpTokenAddress generator amount height,
    .sendDeposit lpTokenAddress generator amount]

/-- `handle_initialize_pool`. -/
def handleInitializePool (s : Storage) (env : Env) (info : MessageInfo) (poolType : PoolType)
    (cw20SenderAddr : Addr) (incentivesShare amount : Nat) : Except StdError Response := do
  rejectIf (cw20SenderAddr ≠ s.config.auctionContract) (.genericErr "Unauthorized")
  let pool ← s.assetPools.load poolType
  rejectIf (info.sender ≠ pool.lpToken) (.genericErr "Unknown cw20 token address")
  -- the allowance ends with this block
  let height ← Uint.add 64 env.height 1
  let stakeMsgs ← stakeMessages s.config height pool.lpToken amount
  let totalIncentivesShare ←
    Uint.checkedAdd 128 s.state.totalIncentivesShare incentivesShare
  let pool := { pool with incentivesShare := incentivesShare, isStaked := true }
  .ok ⟨{ s with
    assetPools := s.assetPools.save poolType pool env.height
    state := ⟨totalIncentivesShare⟩ }, stakeMsgs, none⟩

/-- `receive_cw20`. -/
def receiveCw20 (s : Storage) (env : Env) (info : MessageInfo) (cw20Msg : Cw20ReceiveMsg) :
    Except StdError Response := do
  rejectIf (cw20Msg.amount = 0) (.genericErr "Number of tokens sent should be > 0 ")
  match ← okOr cw20Msg.msg (.genericErr "Error parsing into type Cw20HookMsg") with
  | .initializePool poolType incentivesShare =>
      handleInitializePool s env info poolType cw20Msg.sender incentivesShare cw20Msg.amount

/-! ### Lockups -/

section Lockups

variable (q : Querier)

/-- The position `handle_increase_lockup` stores and the user it belongs to: an existing
position grows, a new one counts against `max_positions_per_user`. -/
def increasePosition (s : Storage) (key : LockupKey) (userInfo : UserInfo) (amount : Nat) :
    Except StdError (LockupInfoV2 × UserInfo) := do
  match ← compatibleMayLoad q s key with
  | some li => do
      let lpUnitsLocked ← Uint.checkedAdd 128 li.lpUnitsLocked amount
      .ok ({ li with lpUnitsLocked := lpUnitsLocked }, userInfo)
  | none => do
      rejectIf (s.config.maxPositionsPerUser = userInfo.lockupPositionsIndex)
        (.genericErr ("Users can only have max " ++ toString s.config.maxPositionsPerUser ++
          " lockup positions"))
      let index ← Uint.add 32 userInfo.lockupPositionsIndex 1
      -- the duration is added as a number of seconds, after the end of the lock and of the
      -- withdrawal window
      let lockEnd ← lockWindowEnd s.config
      let unlock ← Uint.add 64 lockEnd key.duration
      let unlockTimestamp ← Uint.add 64 unlock s.config.withdrawalWindow
      .ok (
        { lpUnitsLocked := amount
          astroportLpTransferred := none
          withdrawalFlag := false
          ntrnRewards := 0
          generatorNtrnDebt := 0
          generatorProxyDebt := []
          unlockTimestamp := unlockTimestamp },
        { userInfo with lockupPositionsIndex := index })

/-- `TOTAL_USER_LOCKUP_AMOUNT.update` after an increase. -/
def increasedTotal (total : Option Nat) (amount : Nat) : Except StdError Nat :=
  match total with
  | some la => Uint.checkedAdd 128 la amount
  | none => .ok amount

/-- `TOTAL_USER_LOCKUP_AMOUNT.update` after a decrease. -/
def decreasedTotal (total : Option Nat) (amount : Nat) : Except StdError Nat :=
  match total with
  | some la => Uint.checkedSub la amount
  | none => .ok 0

/-- `handle_increase_lockup`. -/
def handleIncreaseLockup (s : Storage) (env : Env) (info : MessageInfo) (userAddress : Addr)
    (poolType : PoolType) (duration amount : Nat) : Except StdError Response := do
  rejectIf (info.sender ≠ s.config.auctionContract) (.genericErr "Unauthorized")
  let closed ← lockWindowEnd s.config
  rejectIf (closed ≤ env.time) (.genericErr "Lock window is closed")
  rejectIf (¬ ∃ i ∈ s.config.lockupRewardsInfo, i.duration = duration)
    (.genericErr "invalid duration")
  let pool ← s.assetPools.load poolType
  let userInfo := (s.userInfo.mayLoad userAddress).getD UserInfo.default
  rejectIf (s.config.maxLockDuration < duration ∨ duration < s.config.minLockDuration)
    (.genericErr ("Lockup duration needs to be between " ++
      toString s.config.minLockDuration ++ " and " ++ toString s.config.maxLockDuration))
  -- the weight of the increase alone is added: several increases may round to less than
  -- the weight of the position
  let weight ← calculateWeight amount duration s.config
  let weightedAmount ← Uint.checkedAdd 256 pool.weightedAmount weight
  let amountInLockups ← Uint.checkedAdd 128 pool.amountInLockups amount
  let key : LockupKey := ⟨poolType, userAddress, duration⟩
  let (lockup, userInfo) ← increasePosition q s key userInfo amount
  let total ← increasedTotal (s.totalUserLockupAmount.mayLoad (poolType, userAddress)) amount
  let pool := { pool with weightedAmount := weightedAmount, amountInLockups := amountInLockups }
  .ok (.quiet { s with
    lockupInfo := s.lockupInfo.save key (.v2 lockup)
    totalUserLockupAmount :=
      s.totalUserLockupAmount.save (poolType, userAddress) total env.height
    assetPools := s.assetPools.save poolType pool env.height
    userInfo := s.userInfo.save userAddress userInfo })

/-- The part of `handle_withdraw_from_lockup` that stores what is left of a position: an
empty position is deleted and no longer counts. -/
def storeRemaining (s : Storage) (key : LockupKey) (lockup : LockupInfoV2) :
    Except StdError Storage :=
  if lockup.lpUnitsLocked = 0 then do
    let userInfo := (s.userInfo.mayLoad key.user).getD UserInfo.default
    let index ← Uint.sub userInfo.lockupPositionsIndex 1
    .ok { s with
      lockupInfo := s.lockupInfo.remove key
      userInfo := s.userInfo.save key.user { userInfo with lockupPositionsIndex := index } }
  else .ok { s with lockupInfo := s.lockupInfo.save key (.v2 lockup) }

/-- `handle_withdraw_from_lockup`. -/
def handleWithdrawFromLockup (s : Storage) (env : Env) (info : MessageInfo)
    (userAddress : Addr) (poolType : PoolType) (duration amount : Nat) :
    Except StdError Response := do
  rejectIf (info.sender ≠ s.config.auctionContract) (.genericErr "Unauthorized")
  let closed ← windowsEnd s.config
  rejectIf (closed ≤ env.time) (.genericErr "Withdrawal window is closed")
  rejectIf (amount = 0) (.genericErr "Invalid withdrawal request")
  let pool ← s.assetPools.load poolType
  let key : LockupKey := ⟨poolType, userAddress, duration⟩
  let lockup ← compatibleLoad q s key
  rejectIf (lockup.withdrawalFlag = true)
    (.genericErr "Withdrawal already happened. No more withdrawals accepted")
  -- the limit is a part of what the position holds now
  let maxWithdrawalPercent ← calculateMaxWithdrawalPercentAllowed env.time s.config
  let units ← FixedPoint.ofUint lockup.lpUnitsLocked
  let maxWithdrawalAllowed ← units.checkedMul maxWithdrawalPercent
  rejectIf (maxWithdrawalAllowed.toUintFloor < amount)
    (.genericErr ("Amount exceeds maximum allowed withdrawal limit of " ++
      toString maxWithdrawalAllowed.toUintFloor))
  -- once the lock window is over only one withdrawal is allowed
  let lockEnd ← lockWindowEnd s.config
  let withdrawalFlag := lockup.withdrawalFlag || decide (lockEnd ≤ env.time)
  let lpUnitsLocked ← Uint.checkedSub lockup.lpUnitsLocked amount
  -- the weight of the withdrawn amount is taken off; it may be more than what
  -- the increases added
  let weight ← calculateWeight amount duration s.config
  let weightedAmount ← Uint.checkedSub pool.weightedAmount weight
  let amountInLockups ← Uint.checkedSub pool.amountInLockups amount
  let s ← storeRemaining s key
    { lockup with lpUnitsLocked := lpUnitsLocked, withdrawalFlag := withdrawalFlag }
  let total ← decreasedTotal (s.totalUserLockupAmount.mayLoad (poolType, userAddress)) amount
  let pool := { pool with weightedAmount := weightedAmount, amountInLockups := amountInLockups }
  .ok (.quiet { s with
    totalUserLockupAmount :=
      s.totalUserLockupAmount.save (poolType, userAddress) total env.height
    assetPools := s.assetPools.save poolType pool env.height })

end Lockups

/-! ### Claims and migration -/

section Claims

variable (q : Querier)

/-- The total reward of a user and the storage after it was computed: it is computed
when no total is stored, and zero stands for "not stored". -/
def userNtrnRewards (s : Storage) (user : Addr) (userInfo : UserInfo) :
    Except StdError (Nat × Storage) :=
  if userInfo.totalNtrnRewards = 0 then updateUserLockupPositionsAndCalcRewards q s user
  else .ok (userInfo.totalNtrnRewards, s)

/-- The messages that collect the generator's rewards before a claim. -/
def claimMessages (s : Storage) (poolType : PoolType) (pool : PoolInfo) (userInfo : UserInfo)
    (withdrawLpStake : Bool) : Except StdError (List CosmosMsg) :=
  if pool.isStaked then claimGeneratorRewards q s.config poolType pool.lpToken
  else do
    rejectIf (userInfo.ntrnTransferred = true ∧ withdrawLpStake = false)
      (.genericErr "No rewards available to claim!")
    .ok []

/-- `handle_claim_rewards_and_unlock_for_lockup`. -/
def handleClaimRewardsAndUnlockForLockup (s : Storage) (env : Env) (info : MessageInfo)
    (poolType : PoolType) (duration : Nat) (withdrawLpStake : Bool) :
    Except StdError Response := do
  let closed ← windowsEnd s.config
  rejectIf (env.time < closed) (.genericErr "Lock/withdrawal window is still open")
  let pool ← s.assetPools.load poolType
  let userInfo ← s.userInfo.load info.sender
  -- the one-time rewards of all lockups of the user are fixed here, by the first claim
  -- for any of them
  let (totalNtrnRewards, s) ← userNtrnRewards q s info.sender userInfo
  let userInfo := { userInfo with totalNtrnRewards := totalNtrnRewards }
  let s := { s with userInfo := s.userInfo.save info.sender userInfo }
  let lockup ← compatibleLoad q s ⟨poolType, info.sender, duration⟩
  rejectIf (withdrawLpStake = true ∧ env.time < lockup.unlockTimestamp)
    (.genericErr (toString (lockup.unlockTimestamp - env.time) ++ " seconds to unlock"))
  rejectIf (lockup.astroportLpTransferred.isSome = true)
    (.genericErr "Astro LP Tokens have already been claimed!")
  let msgs ← claimMessages q s poolType pool userInfo withdrawLpStake
  -- the callback runs after the generator's rewards have been booked
  .ok ⟨s, msgs ++ [.callback (.withdrawUserLockupRewardsCallback poolType info.sender duration
    withdrawLpStake)], none⟩

/-- The total reward is computed and stored for a user who has none stored. -/
def storeNtrnRewards (s : Storage) (user : Addr) (userInfo : UserInfo) :
    Except StdError Storage :=
  if userInfo.totalNtrnRewards = 0 then do
    let (total, s) ← updateUserLockupPositionsAndCalcRewards q s user
    .ok { s with userInfo := s.userInfo.save user { userInfo with totalNtrnRewards := total } }
  else .ok s

/-- `handle_migrate_liquidity_to_pcl_pools`: one callback for every lockup of the user.
Anybody may call it, at any time. -/
def handleMigrateLiquidityToPclPools (s : Storage) (info : MessageInfo)
    (userAddressRaw : Option Addr) : Except StdError Response := do
  let userAddress := userAddressRaw.getD info.sender
  let userInfo ← s.userInfo.load userAddress
  -- no window is checked, so this may fix the rewards while positions still change
  let s ← storeNtrnRewards q s userAddress userInfo
  .ok ⟨s, (userLockupKeys s userAddress).map fun key =>
    .callback (.initMigrateLockupToPCLPoolsCallback key.poolType key.user key.duration), none⟩

end Claims

end NeutronTge.Lockdrop
