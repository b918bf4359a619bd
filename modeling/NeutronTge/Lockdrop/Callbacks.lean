import NeutronTge.Lockdrop.Handlers

/-!
# NeutronTge.Lockdrop.Callbacks

The callbacks of the lockdrop, which only the contract itself may call, and the entry
point `execute`. A claim books the generator's rewards and then pays the lockup; a
migration pays the lockup, takes it out and hands its liquidity to the PCL lockdrop.
-/

namespace NeutronTge.Lockdrop

open CosmWasm Astroport

variable (q : Querier)

/-! ### Booking the generator's rewards -/

/-- The loop of `update_pool_on_dual_rewards_claim` over the proxy rewards. -/
def bookProxyRewards (lpBalance : Nat) (perShare : RestrictedVector AssetInfo Decimal)
    (prevBalances : List Asset) : Except StdError (RestrictedVector AssetInfo Decimal) :=
  bookBalances q.queryPool lpBalance perShare prevBalances

/-- `update_pool_on_dual_rewards_claim`. -/
def updatePoolOnDualRewardsClaim (s : Storage) (env : Env) (poolType : PoolType)
    (prevNtrnBalance : Nat) (prevProxyRewardBalances : List Asset) :
    Except StdError Response := do
  let pool ← s.assetPools.load poolType
  let generator ← okOr s.config.generator (.genericErr "Generator hasn't been set yet!")
  let rewardToken ← q.baseRewardToken generator pool.lpToken
  let lpBalance ← q.deposit generator pool.lpToken
  let rewardTokenBalance ← q.bankBalance rewardToken
  -- what came in since the message that asked for the rewards
  let baseRewardReceived ← Uint.checkedSub rewardTokenBalance prevNtrnBalance
  let increment ← FixedPoint.fromRatio 128 baseRewardReceived lpBalance
  let perShare ← pool.generatorNtrnPerShare.checkedAdd increment
  let proxyPerShare ←
    bookProxyRewards q lpBalance pool.generatorProxyPerShare prevProxyRewardBalances
  let pool :=
    { pool with generatorNtrnPerShare := perShare, generatorProxyPerShare := proxyPerShare }
  .ok ⟨{ s with assetPools := s.assetPools.save poolType pool env.height }, [],
    some (poolType, baseRewardReceived)⟩

/-! ### Claim and unlock -/

/-- The rewards of a lockup whose pool is staked: the lockup with its new debts and the
messages that pay it. A claim that would change nothing is an error. -/
def stakedRewards (key : LockupKey) (lockup : LockupInfoV2) (pool : PoolInfo)
    (userInfo : UserInfo) (generator : Addr) (astroportLpAmount : Nat) (withdrawLpStake : Bool) :
    Except StdError (LockupInfoV2 × List CosmosMsg) := do
  let rewardToken ← q.baseRewardToken generator pool.lpToken
  let (accrued, pending) ← accruedNtrn pool astroportLpAmount lockup.generatorNtrnDebt
  let (proxyDebts, pendingProxy) ←
    accruedProxy pool astroportLpAmount lockup.generatorProxyDebt
  rejectIf (withdrawLpStake = false ∧ userInfo.ntrnTransferred = true ∧ pending = 0 ∧
    pendingProxy = []) (.genericErr "No rewards available to claim!")
  -- the LP tokens come back from the generator before they are passed on
  let unstake : List CosmosMsg :=
    if withdrawLpStake then [.generatorWithdraw generator pool.lpToken astroportLpAmount]
    else []
  .ok ({ lockup with generatorNtrnDebt := accrued, generatorProxyDebt := proxyDebts },
    baseRewardMsg key.poolType key.user rewardToken pending ++
      pendingProxy.map (fun asset => .transfer (asset.intoMsg key.user)) ++ unstake)

/-- The rewards of the callback: nothing before the pool is staked. -/
def lockupRewards (key : LockupKey) (lockup : LockupInfoV2) (pool : PoolInfo)
    (userInfo : UserInfo) (generator : Addr) (astroportLpAmount : Nat) (withdrawLpStake : Bool) :
    Except StdError (LockupInfoV2 × List CosmosMsg) :=
  if pool.isStaked then
    stakedRewards q key lockup pool userInfo generator astroportLpAmount withdrawLpStake
  else .ok (lockup, [])

/-- A lockup leaves its pool with `astroport_lp_amount` LP tokens. -/
def closeLockup (s : Storage) (height : Nat) (key : LockupKey) (pool : PoolInfo)
    (lockup : LockupInfoV2) (astroportLpAmount : Nat) : Except StdError Storage := do
  -- `weighted_amount` is left alone: the one-time rewards of the others do not depend on
  -- who is gone
  let amountInLockups ← Uint.checkedSub pool.amountInLockups lockup.lpUnitsLocked
  let total ← decreasedTotal (s.totalUserLockupAmount.mayLoad (key.poolType, key.user))
    lockup.lpUnitsLocked
  .ok { s with
    assetPools :=
      s.assetPools.save key.poolType { pool with amountInLockups := amountInLockups } height
    totalUserLockupAmount :=
      s.totalUserLockupAmount.save (key.poolType, key.user) total height
    lockupInfo := s.lockupInfo.save key
      (.v2 { lockup with astroportLpTransferred := some astroportLpAmount }) }

/-- The exit of the callback: the lockup is stored, closed if it is withdrawn. -/
def storeOrClose (s : Storage) (height : Nat) (key : LockupKey) (pool : PoolInfo)
    (lockup : LockupInfoV2) (astroportLpAmount : Nat) (withdrawLpStake : Bool) :
    Except StdError (Storage × List CosmosMsg) :=
  if withdrawLpStake then do
    let s ← closeLockup s height key pool lockup astroportLpAmount
    .ok (s, [.lpTransfer pool.lpToken key.user astroportLpAmount])
  else .ok ({ s with lockupInfo := s.lockupInfo.save key (.v2 lockup) }, [])

/-- `callback_withdraw_user_rewards_for_lockup_optional_withdraw`. It does not look at
`astroport_lp_transferred`: the claim handler did, right before. -/
def callbackWithdrawUserRewards (s : Storage) (env : Env) (key : LockupKey)
    (withdrawLpStake : Bool) : Except StdError Response := do
  let pool ← s.assetPools.load key.poolType
  let lockup ← compatibleLoad q s key
  let userInfo := (s.userInfo.mayLoad key.user).getD UserInfo.default
  let generator ← okOr s.config.generator (.genericErr "Generator should be set")
  let astroportLpAmount ← astroportLpShare q generator pool lockup.lpUnitsLocked
  let (lockup, rewardMsgs) ← lockupRewards q key lockup pool userInfo generator
    astroportLpAmount withdrawLpStake
  let (s, exitMsgs) ← storeOrClose s env.height key pool lockup astroportLpAmount
    withdrawLpStake
  let (s, ntrnMsgs) ← payNtrnRewards q s key.user userInfo
  .ok ⟨s, rewardMsgs ++ exitMsgs ++ ntrnMsgs, none⟩

/-! ### Migration -/

/-- `callback_init_migrate_lockup_to_pcl_pools`: a lockup that already left is skipped. -/
def callbackInitMigrateLockupToPclPools (s : Storage) (key : LockupKey) :
    Except StdError Response := do
  let lockup ← queryLockupInfo q s key
  if lockup.astroportLpTransferred.isSome then .ok (.quiet s)
  else do
    let pool ← s.assetPools.load key.poolType
    -- as in a claim, the pool's rewards are collected first
    let msgs ← claimGeneratorRewards q s.config key.poolType pool.lpToken
    .ok ⟨s, msgs ++ [.callback (.transferAllRewardsBeforeMigrationCallback key.poolType
      key.user key.duration)], none⟩

/-- `callback_transfer_all_rewards_before_migration`. The new debts are not stored: the
lockup is closed by the next callback. -/
def callbackTransferAllRewardsBeforeMigration (s : Storage) (key : LockupKey) :
    Except StdError Response := do
  let pool ← s.assetPools.load key.poolType
  let lockup ← compatibleLoad q s key
  let userInfo := (s.userInfo.mayLoad key.user).getD UserInfo.default
  let generator ← okOr s.config.generator (.genericErr "Generator should be set")
  let astroportLpAmount ← astroportLpShare q generator pool lockup.lpUnitsLocked
  let rewardToken ← q.baseRewardToken generator pool.lpToken
  let (_, pending) ← accruedNtrn pool astroportLpAmount lockup.generatorNtrnDebt
  let (_, pendingProxy) ← accruedProxy pool astroportLpAmount lockup.generatorProxyDebt
  let (s, ntrnMsgs) ← payNtrnRewards q s key.user userInfo
  .ok ⟨s, baseRewardMsg key.poolType key.user rewardToken pending ++
    pendingProxy.map (fun asset => .transfer (asset.intoMsg key.user)) ++ ntrnMsgs ++
    [.callback (.withdrawUserLockupCallback key.poolType key.user key.duration generator
      pool.lpToken astroportLpAmount)], none⟩

/-- The denom of the pair's other asset. -/
def pairedDenom (assets : List AssetInfo) : Option String :=
  assets.findSome? fun info =>
    match info with
    | .nativeToken denom => if denom ≠ untrnDenom then some denom else none
    | .token _ => none

/-- `callback_withdraw_user_lockup`. -/
def callbackWithdrawUserLockup (s : Storage) (env : Env) (key : LockupKey)
    (generator astroportLpToken : Addr) (astroportLpAmount : Nat) :
    Except StdError Response := do
  let astroportPool ← q.minter astroportLpToken
  let assets ← q.poolAssets astroportPool
  let pairedAssetDenom ← okOr (pairedDenom assets)
    (.genericErr "No second leg of pair found")
  -- the balances before the liquidity is withdrawn
  let ntrnBalance ← q.bankBalance untrnDenom
  let pairedAssetBalance ← q.bankBalance pairedAssetDenom
  let lockup ← compatibleLoad q s key
  let pool ← s.assetPools.load key.poolType
  let s ← closeLockup s env.height key pool lockup astroportLpAmount
  .ok ⟨s,
    -- the LP tokens are burnt for the pair's two assets, which go to this contract
    [.generatorWithdraw generator astroportLpToken astroportLpAmount,
      .withdrawLiquidity astroportLpToken astroportPool astroportLpAmount,
      .callback (.migrateUserLockupToPCLPairCallback key.poolType key.user key.duration
        ntrnBalance pairedAssetDenom pairedAssetBalance)], none⟩

/-- `callback_migrate_user_lockup_to_pcl_pair`. -/
def callbackMigrateUserLockupToPclPair (s : Storage) (key : LockupKey) (ntrnBalance : Nat)
    (pairedAssetDenom : String) (pairedAssetBalance : Nat) : Except StdError Response := do
  let lockup ← compatibleLoad q s key
  let userInfo := (s.userInfo.mayLoad key.user).getD UserInfo.default
  let ntrn ← q.bankBalance untrnDenom
  -- the withdrawal brought in the difference of the balances
  let ntrnWithdrawn ← Uint.sub ntrn ntrnBalance
  let paired ← q.bankBalance pairedAssetDenom
  let pairedAssetWithdrawn ← Uint.sub paired pairedAssetBalance
  let pclLockdrop ← okOr s.pclLockdropContract .notFound
  let pool ← s.assetPools.load key.poolType
  let generator ← okOr s.config.generator (.genericErr "Generator should be set")
  -- when nothing of the pool is left in the generator, this lockup was the last, and the
  -- PCL lockdrop is told to stake
  let stakedLpTokens ← q.deposit generator pool.lpToken
  .ok ⟨s,
    [.migrateXYKLiquidity pclLockdrop
      [⟨untrnDenom, ntrnWithdrawn⟩, ⟨pairedAssetDenom, pairedAssetWithdrawn⟩]
      key.poolType key.user key.duration userInfo lockup (stakedLpTokens = 0)], none⟩

/-! ### Entry points -/

/-- `_handle_callback`, for a call by the contract itself. -/
def handleCallback (s : Storage) (env : Env) : CallbackMsg → Except StdError Response
  | .updatePoolOnDualRewardsClaim poolType prevNtrnBalance prevProxyRewardBalances =>
      updatePoolOnDualRewardsClaim q s env poolType prevNtrnBalance prevProxyRewardBalances
  | .withdrawUserLockupRewardsCallback poolType userAddress duration withdrawLpStake =>
      callbackWithdrawUserRewards q s env ⟨poolType, userAddress, duration⟩ withdrawLpStake
  | .initMigrateLockupToPCLPoolsCallback poolType userAddress duration =>
      callbackInitMigrateLockupToPclPools q s ⟨poolType, userAddress, duration⟩
  | .transferAllRewardsBeforeMigrationCallback poolType userAddress duration =>
      callbackTransferAllRewardsBeforeMigration q s ⟨poolType, userAddress, duration⟩
  | .withdrawUserLockupCallback poolType userAddress duration generator astroportLpToken
      astroportLpAmount =>
      callbackWithdrawUserLockup q s env ⟨poolType, userAddress, duration⟩ generator
        astroportLpToken astroportLpAmount
  | .migrateUserLockupToPCLPairCallback poolType userAddress duration ntrnBalance
      pairedAssetDenom pairedAssetBalance =>
      callbackMigrateUserLockupToPclPair q s ⟨poolType, userAddress, duration⟩ ntrnBalance
        pairedAssetDenom pairedAssetBalance

/-- `execute`. -/
def execute (s : Storage) (env : Env) (info : MessageInfo) :
    ExecuteMsg → Except StdError Response
  | .receive msg => receiveCw20 s env info msg
  | .claimRewardsAndOptionallyUnlock poolType duration withdrawLpStake =>
      handleClaimRewardsAndUnlockForLockup q s env info poolType duration withdrawLpStake
  | .callback msg => do
      rejectIf (info.sender ≠ env.contract)
        (.genericErr "callbacks cannot be invoked externally")
      handleCallback q s env msg
  | .proposeNewOwner owner expiresIn => do
      let p ← proposeNewOwner info env owner expiresIn s.config.owner
      .ok (.quiet { s with ownershipProposal := some p })
  | .dropOwnershipProposal => do
      dropOwnershipProposal info s.config.owner
      .ok (.quiet { s with ownershipProposal := none })
  | .claimOwnership => do
      let owner ← claimOwnership info env s.ownershipProposal
      .ok (.quiet { s with config := { s.config with owner := owner }, ownershipProposal := none })
  | .increaseNTRNIncentives => handleIncreasingNtrnIncentives s env info
  | .increaseLockupFor userAddress poolType amount duration =>
      handleIncreaseLockup q s env info userAddress poolType duration amount
  | .withdrawFromLockup userAddress poolType duration amount =>
      handleWithdrawFromLockup q s env info userAddress poolType duration amount
  | .updateConfig newConfig => handleUpdateConfig s info newConfig
  | .setTokenInfo atomToken usdcToken generator =>
      handleSetTokenInfo s env info usdcToken atomToken generator
  | .migrateLiquidityToPCLPools userAddressRaw =>
      handleMigrateLiquidityToPclPools q s info userAddressRaw

end NeutronTge.Lockdrop
