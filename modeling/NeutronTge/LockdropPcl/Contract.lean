import NeutronTge.Lockdrop.Handlers
import NeutronTge.LockdropPcl.Types

/-!
# NeutronTge.LockdropPcl.Contract

The handlers and callbacks of the PCL lockdrop. A lockup comes in by a message of the XYK
lockdrop with its liquidity, which is provided to the PCL pool before the lockup is stored;
it leaves by a claim of its owner after its unlock time.
-/

namespace NeutronTge.LockdropPcl

open CosmWasm Astroport Shares
open Lockdrop (PoolType LockupKey storedPools storedKeys untrnDenom
  calculateAstroIncentivesForLockup increasedTotal decreasedTotal)

/-- What a call returns. -/
structure Response where
  storage : Storage
  messages : List CosmosMsg

/-! ### Instantiation -/

/-- A pool as `instantiate` creates it. -/
def PoolInfo.initial (lpToken : Addr) (incentivesShare weightedAmount : Nat) : PoolInfo where
  lpToken := lpToken
  amountInLockups := 0
  incentivesShare := incentivesShare
  weightedAmount := weightedAmount
  incentivesRewardsPerShare := []
  isStaked := false

/-- The storage `instantiate` writes for a message it accepts. -/
def InstantiateMsg.storage (msg : InstantiateMsg) (env : Env) (info : MessageInfo) :
    Storage where
  config :=
    { owner := msg.owner.getD info.sender
      xykLockdropContract := msg.xykLockdropContract
      creditsContract := msg.creditsContract
      auctionContract := msg.auctionContract
      incentives := msg.incentives
      lockdropIncentives := msg.lockdropIncentives
      lockupRewardsInfo := msg.lockupRewardsInfo }
  state := ⟨0⟩
  assetPools :=
    (SnapshotMap.empty.save .atom
      (.initial msg.atomToken msg.atomIncentivesShare msg.atomWeightedAmount) env.height).save
      .usdc (.initial msg.usdcToken msg.usdcIncentivesShare msg.usdcWeightedAmount) env.height
  userInfo := ∅
  lockupInfo := ∅
  totalUserLockupAmount := SnapshotMap.empty
  ownershipProposal := none

/-- `instantiate`. -/
def instantiate (env : Env) (info : MessageInfo) (msg : InstantiateMsg) :
    Except StdError Storage := do
  rejectIf (msg.lockupRewardsInfo = []) (.genericErr "Invalid lockup rewards info")
  rejectIf (∃ i ∈ msg.lockupRewardsInfo, i.duration = 0)
    (.genericErr "Invalid Lockup info rewards duration")
  .ok (msg.storage env info)

/-! ### Computations -/

/-- `calculate_weight`. -/
def calculateWeight (amount duration : Nat) (config : Config) : Except StdError Nat := do
  let info ← okOr (config.lockupRewardsInfo.find? fun i => i.duration = duration)
    (.genericErr "invalid duration")
  let lockWeight ← FixedPoint.one.add info.coefficient
  lockWeight.checkedMulUint amount

/-- The keys of `ASSET_POOLS` in ascending order. -/
def poolTypes (s : Storage) : List PoolType := storedPools s.assetPools

/-- The keys of all lockups of a user, pool by pool. -/
def userLockupKeys (s : Storage) (user : Addr) : List LockupKey :=
  storedKeys s.assetPools s.lockupInfo user

/-- The incentives of a lockup that are computed from the state. -/
def lockupIncentives (s : Storage) (key : LockupKey) (lpUnitsLocked : Nat) (pool : PoolInfo) :
    Except StdError Nat := do
  let weight ← calculateWeight lpUnitsLocked key.duration s.config
  calculateAstroIncentivesForLockup weight pool.weightedAmount pool.incentivesShare
    s.state.totalIncentivesShare s.config.lockdropIncentives

/-- One lockup in the loop of `update_user_lockup_positions_and_calc_rewards`. -/
def updateLockupReward (s : Storage) (key : LockupKey) : Except StdError (Nat × Storage) := do
  let pool ← s.assetPools.load key.poolType
  let lockup ← s.lockupInfo.load key
  if lockup.ntrnRewards = 0 then do
    let ntrnRewards ← lockupIncentives s key lockup.lpUnitsLocked pool
    .ok (ntrnRewards, { s with
      lockupInfo := s.lockupInfo.save key { lockup with ntrnRewards := ntrnRewards } })
  else .ok (lockup.ntrnRewards, s)

/-- `update_user_lockup_positions_and_calc_rewards`. -/
def updateUserLockupPositionsAndCalcRewards (s : Storage) (user : Addr) :
    Except StdError (Nat × Storage) :=
  addAmounts updateLockupReward s (userLockupKeys s user)

section Queries

variable (q : Querier)

/-- `claim_airdrop_tokens_with_multiplier_msg`; the multiplier is one. -/
def claimAirdropTokensWithMultiplierMsg (creditsContract userAddr : Addr)
    (ntrnLockdropRewards : Nat) : Except StdError CosmosMsg := do
  let unvestedTokensAmount ← q.withdrawableAmount creditsContract userAddr
  let vestedTokensAmount ← q.vestedAmount creditsContract userAddr
  let rewards ← FixedPoint.ofUint ntrnLockdropRewards
  let multiplied ← rewards.checkedMul FixedPoint.one
  let claimableVestedAmount := min vestedTokensAmount multiplied.toUintFloor
  let amount ← Uint.checkedAdd 128 claimableVestedAmount unvestedTokensAmount
  .ok (.burnFrom creditsContract userAddr amount)

/-- The airdrop goes to users who hold cNTRN. -/
def airdropMsgs (s : Storage) (userAddress : Addr) (ntrnLockdropRewards : Nat) :
    Except StdError (List CosmosMsg) := do
  let balance ← q.creditsBalance s.config.creditsContract userAddress
  if 0 < balance then do
    let msg ← claimAirdropTokensWithMultiplierMsg q s.config.creditsContract userAddress
      ntrnLockdropRewards
    .ok [msg]
  else .ok []

/-- The payment of the one-time reward, when there is one. -/
def lockdropRewardMsg (userAddress : Addr) (totalNtrnRewards : Nat) : List CosmosMsg :=
  if 0 < totalNtrnRewards then [.bankSend userAddress ⟨untrnDenom, totalNtrnRewards⟩] else []

/-- The last part of the reward callback: the one-time reward and the airdrop are paid to a
user who did not get them before. -/
def payNtrnRewards (s : Storage) (userAddress : Addr) (userInfo : UserInfo) :
    Except StdError (Storage × List CosmosMsg) :=
  if userInfo.ntrnTransferred then .ok (s, [])
  else do
    let airdrop ← airdropMsgs q s userAddress userInfo.totalNtrnRewards
    .ok ({ s with
      userInfo := s.userInfo.save userAddress { userInfo with ntrnTransferred := true } },
      lockdropRewardMsg userAddress userInfo.totalNtrnRewards ++ airdrop)

/-- The LP tokens of the pool: the deposit once they are staked. -/
def lpBalance (incentives : Addr) (pool : PoolInfo) : Except StdError Nat :=
  if pool.isStaked then q.deposit incentives pool.lpToken else q.tokenBalance pool.lpToken

/-- The LP tokens that belong to a lockup: `lp_units_locked * balance / amount_in_lockups`. -/
def astroportLpShare (incentives : Addr) (pool : PoolInfo) (lpUnitsLocked : Nat) :
    Except StdError Nat := do
  let balance ← lpBalance q incentives pool
  let share ← Uint.checkedDiv (lpUnitsLocked * balance) pool.amountInLockups
  Uint.tryInto 128 share

/-! ### Administration -/

/-- The loop of `handle_update_config` over the pools: none may have staked LP tokens. -/
def checkUnstaked (s : Storage) : Except StdError Unit :=
  (poolTypes s).forM fun poolType => do
    let pool ← s.assetPools.load poolType
    let staked ← q.deposit s.config.incentives pool.lpToken
    rejectIf (staked ≠ 0) (.genericErr (poolType.debug ++
      " astro LP tokens already staked. Unstake them before updating incentives contract"))

/-- `handle_update_config`. -/
def handleUpdateConfig (s : Storage) (info : MessageInfo) (incentivesAddress : Option Addr) :
    Except StdError Response := do
  rejectIf (info.sender ≠ s.config.owner) (.genericErr "Unauthorized")
  match incentivesAddress with
  | some incentives => do
      checkUnstaked q s
      .ok ⟨{ s with config := { s.config with incentives := incentives } }, []⟩
  | none => .ok ⟨s, []⟩

/-! ### Migration from the XYK lockdrop -/

/-- `handle_migrate_xyk_liquidity`: the two coins that came with the message are provided
to the PCL pool. -/
def handleMigrateXykLiquidity (s : Storage) (info : MessageInfo) (poolType : PoolType)
    (userAddressRaw : Addr) (duration : Nat) (userInfo : Lockdrop.UserInfo)
    (lockupInfo : Lockdrop.LockupInfoV2) (stake : Bool) : Except StdError Response := do
  rejectIf (info.sender ≠ s.config.xykLockdropContract) (.genericErr
    "only the XYK lockdrop contract is authorized to call the liquidity migration handler")
  rejectIf (info.funds.length ≠ 2) (.genericErr
    "exactly two assets are expected to be attached to the message")
  let pool ← s.assetPools.load poolType
  -- the PCL pool that mints the LP token, not the one the coins come from
  let astroportPool ← q.minter pool.lpToken
  let lpTokenAmount ← q.tokenBalance pool.lpToken
  .ok ⟨s,
    [.provideLiquidity astroportPool
      (info.funds.map fun f => ⟨.nativeToken f.denom, f.amount⟩) info.funds,
    .callback (.finishLockupMigrationCallback poolType userAddressRaw duration pool.lpToken
      lpTokenAmount userInfo lockupInfo stake)]⟩

/-- `callback_finish_lockup_migration`. -/
def callbackFinishLockupMigration (s : Storage) (env : Env) (key : LockupKey) (lpToken : Addr)
    (prevLpTokenAmount : Nat) (userInfo : Lockdrop.UserInfo)
    (lockupInfo : Lockdrop.LockupInfoV2) (stake : Bool) : Except StdError Response := do
  let lpTokenAmount ← q.tokenBalance lpToken
  -- the lockup is worth the LP tokens minted for its two coins
  let lpTokenAmountDiff ← Uint.sub lpTokenAmount prevLpTokenAmount
  let pool ← s.assetPools.load key.poolType
  let weight ← calculateWeight lpTokenAmountDiff key.duration s.config
  let weightedAmount ← Uint.checkedAdd 256 pool.weightedAmount weight
  let amountInLockups ← Uint.checkedAdd 128 pool.amountInLockups lpTokenAmountDiff
  let total ← increasedTotal (s.totalUserLockupAmount.mayLoad (key.poolType, key.user))
    lpTokenAmountDiff
  let pool := { pool with weightedAmount := weightedAmount, amountInLockups := amountInLockups }
  let s := { s with
    -- an entry the user has under this key is replaced, not increased
    lockupInfo := s.lockupInfo.save key (.fromXykLockupInfo lockupInfo lpTokenAmountDiff)
    totalUserLockupAmount :=
      s.totalUserLockupAmount.save (key.poolType, key.user) total env.height
    assetPools := s.assetPools.save key.poolType pool env.height
    userInfo := s.userInfo.save key.user (.ofXyk userInfo) }
  if stake then
    .ok ⟨{ s with
      assetPools := s.assetPools.save key.poolType { pool with isStaked := true } env.height },
      -- the last lockup of the pool: everything the contract holds is staked
      [.sendDeposit lpToken s.config.incentives lpTokenAmount]⟩
  else .ok ⟨s, []⟩

/-! ### Claim and unlock -/

/-- The total reward of a user and the storage after it was computed: it is computed when
no total is stored, and zero stands for "not stored". -/
def userNtrnRewards (s : Storage) (user : Addr) (userInfo : UserInfo) :
    Except StdError (Nat × Storage) :=
  if userInfo.totalNtrnRewards = 0 then updateUserLockupPositionsAndCalcRewards s user
  else .ok (userInfo.totalNtrnRewards, s)

/-- The messages that collect the pending rewards of a pool before a claim. -/
def claimMessages (s : Storage) (poolType : PoolType) (pool : PoolInfo) :
    Except StdError (List CosmosMsg) :=
  if pool.isStaked then do
    let pending ← q.pendingRewards s.config.incentives pool.lpToken
    if ∃ asset ∈ pending, asset.amount ≠ 0 then
      -- a balance that cannot be read counts as zero
      .ok [.claimRewards s.config.incentives [pool.lpToken],
        .callback (.updatePoolOnDualRewardsClaim poolType (pending.map fun asset =>
          { asset with amount := (q.queryPool asset.info).toOption.getD 0 }))]
    else .ok []
  else .ok []

/-- `handle_claim_rewards_and_unlock_for_lockup`. -/
def handleClaimRewardsAndUnlockForLockup (s : Storage) (env : Env) (info : MessageInfo)
    (poolType : PoolType) (duration : Nat) (withdrawLpStake : Bool) :
    Except StdError Response := do
  let pool ← s.assetPools.load poolType
  let userInfo ← s.userInfo.load info.sender
  let (totalNtrnRewards, s) ← userNtrnRewards s info.sender userInfo
  let userInfo := { userInfo with totalNtrnRewards := totalNtrnRewards }
  let s := { s with userInfo := s.userInfo.save info.sender userInfo }
  let lockup ← s.lockupInfo.load ⟨poolType, info.sender, duration⟩
  -- a claim without unlocking is possible at any time
  rejectIf (withdrawLpStake = true ∧ env.time < lockup.unlockTimestamp)
    (.genericErr (toString (lockup.unlockTimestamp - env.time) ++ " seconds to unlock"))
  rejectIf (lockup.astroportLpTransferred.isSome = true)
    (.genericErr "Astro LP Tokens have already been claimed!")
  let msgs ← claimMessages q s poolType pool
  .ok ⟨s, msgs ++ [.callback (.withdrawUserLockupRewardsCallback poolType info.sender duration
    withdrawLpStake)]⟩

/-- The loop of `update_pool_on_dual_rewards_claim`. -/
def bookRewards (lpBalance : Nat) (perShare : RestrictedVector AssetInfo Decimal)
    (prevBalances : List Asset) : Except StdError (RestrictedVector AssetInfo Decimal) :=
  bookBalances q.queryPool lpBalance perShare prevBalances

/-- `update_pool_on_dual_rewards_claim`. -/
def updatePoolOnDualRewardsClaim (s : Storage) (env : Env) (poolType : PoolType)
    (prevRewardBalances : List Asset) : Except StdError Response := do
  let pool ← s.assetPools.load poolType
  let lpBalance ← q.deposit s.config.incentives pool.lpToken
  let perShare ← bookRewards q lpBalance pool.incentivesRewardsPerShare prevRewardBalances
  .ok ⟨{ s with
    assetPools := s.assetPools.save poolType
      { pool with incentivesRewardsPerShare := perShare } env.height }, []⟩

/-- One reward in the loop of the callback: the debts and the assets to pay so far. An asset
that was never credited is skipped. -/
def accrueReward (pool : PoolInfo) (astroportLpAmount : Nat)
    (st : RestrictedVector AssetInfo Nat × List Asset) (reward : RewardType) :
    Except StdError (RestrictedVector AssetInfo Nat × List Asset) :=
  let perShare := (pool.incentivesRewardsPerShare.load reward.asset).getD FixedPoint.zero
  if perShare = FixedPoint.zero then .ok st
  else do
    let lpAmount ← FixedPoint.ofUint astroportLpAmount
    let accrued ← perShare.checkedMul lpAmount
    let pending ← Uint.checkedSub accrued.toUintFloor ((st.1.load reward.asset).getD 0)
    -- the debt grows by what is paid
    let debts ← st.1.updateUint reward.asset pending
    .ok (debts, if pending = 0 then st.2 else st.2 ++ [⟨reward.asset, pending⟩])

/-- The rewards of a lockup whose pool is staked: the lockup with its new debts and the
messages that pay it. A claim that would change nothing is an error. -/
def stakedRewards (s : Storage) (key : LockupKey) (lockup : LockupInfo) (pool : PoolInfo)
    (userInfo : UserInfo) (astroportLpAmount : Nat) (withdrawLpStake : Bool) :
    Except StdError (LockupInfo × List CosmosMsg) := do
  let rewardInfos ← q.rewardInfo s.config.incentives pool.lpToken
  -- only what the incentives contract lists now is paid, whatever the pool was credited with
  let (debts, pending) ←
    rewardInfos.foldlM (accrueReward pool astroportLpAmount) (lockup.incentivesDebt, [])
  rejectIf (withdrawLpStake = false ∧ userInfo.ntrnTransferred = true ∧ pending = [])
    (.genericErr "No rewards available to claim!")
  let unstake : List CosmosMsg :=
    if withdrawLpStake then
      [.incentivesWithdraw s.config.incentives pool.lpToken astroportLpAmount]
    else []
  .ok ({ lockup with incentivesDebt := debts },
    pending.map (fun asset => .transfer (asset.intoMsg key.user)) ++ unstake)

/-- The rewards of the callback: nothing before the pool is staked. -/
def lockupRewards (s : Storage) (key : LockupKey) (lockup : LockupInfo) (pool : PoolInfo)
    (userInfo : UserInfo) (astroportLpAmount : Nat) (withdrawLpStake : Bool) :
    Except StdError (LockupInfo × List CosmosMsg) :=
  if pool.isStaked then
    stakedRewards q s key lockup pool userInfo astroportLpAmount withdrawLpStake
  else .ok (lockup, [])

/-- The exit of the callback: the lockup is stored, closed if it is withdrawn. -/
def storeOrClose (s : Storage) (height : Nat) (key : LockupKey) (pool : PoolInfo)
    (lockup : LockupInfo) (astroportLpAmount : Nat) (withdrawLpStake : Bool) :
    Except StdError (Storage × List CosmosMsg) :=
  if withdrawLpStake then do
    -- `weighted_amount` is left alone, as in the XYK lockdrop
    let amountInLockups ← Uint.checkedSub pool.amountInLockups lockup.lpUnitsLocked
    let total ← decreasedTotal (s.totalUserLockupAmount.mayLoad (key.poolType, key.user))
      lockup.lpUnitsLocked
    .ok ({ s with
      assetPools :=
        s.assetPools.save key.poolType { pool with amountInLockups := amountInLockups } height
      totalUserLockupAmount :=
        s.totalUserLockupAmount.save (key.poolType, key.user) total height
      lockupInfo := s.lockupInfo.save key
        { lockup with astroportLpTransferred := some astroportLpAmount } },
      [.lpTransfer pool.lpToken key.user astroportLpAmount])
  else .ok ({ s with lockupInfo := s.lockupInfo.save key lockup }, [])

/-- `callback_withdraw_user_rewards_for_lockup_optional_withdraw`. -/
def callbackWithdrawUserRewards (s : Storage) (env : Env) (key : LockupKey)
    (withdrawLpStake : Bool) : Except StdError Response := do
  let pool ← s.assetPools.load key.poolType
  let lockup ← s.lockupInfo.load key
  let userInfo := (s.userInfo.mayLoad key.user).getD UserInfo.default
  let astroportLpAmount ← astroportLpShare q s.config.incentives pool lockup.lpUnitsLocked
  let (lockup, rewardMsgs) ←
    lockupRewards q s key lockup pool userInfo astroportLpAmount withdrawLpStake
  let (s, exitMsgs) ←
    storeOrClose s env.height key pool lockup astroportLpAmount withdrawLpStake
  let (s, ntrnMsgs) ← payNtrnRewards q s key.user userInfo
  .ok ⟨s, rewardMsgs ++ exitMsgs ++ ntrnMsgs⟩

/-! ### Entry points -/

/-- `_handle_callback`, for a call by the contract itself. -/
def handleCallback (s : Storage) (env : Env) : CallbackMsg → Except StdError Response
  | .updatePoolOnDualRewardsClaim poolType prevRewardBalances =>
      updatePoolOnDualRewardsClaim q s env poolType prevRewardBalances
  | .withdrawUserLockupRewardsCallback poolType userAddress duration withdrawLpStake =>
      callbackWithdrawUserRewards q s env ⟨poolType, userAddress, duration⟩ withdrawLpStake
  | .finishLockupMigrationCallback poolType userAddress duration lpToken prevLpTokenAmount
      userInfo lockupInfo stake =>
      callbackFinishLockupMigration q s env ⟨poolType, userAddress, duration⟩ lpToken
        prevLpTokenAmount userInfo lockupInfo stake

/-- `execute`. -/
def execute (s : Storage) (env : Env) (info : MessageInfo) :
    ExecuteMsg → Except StdError Response
  | .claimRewardsAndOptionallyUnlock poolType duration withdrawLpStake =>
      handleClaimRewardsAndUnlockForLockup q s env info poolType duration withdrawLpStake
  | .callback msg => do
      rejectIf (info.sender ≠ env.contract)
        (.genericErr "callbacks cannot be invoked externally")
      handleCallback q s env msg
  | .proposeNewOwner owner expiresIn => do
      let p ← proposeNewOwner info env owner expiresIn s.config.owner
      .ok ⟨{ s with ownershipProposal := some p }, []⟩
  | .dropOwnershipProposal => do
      dropOwnershipProposal info s.config.owner
      .ok ⟨{ s with ownershipProposal := none }, []⟩
  | .claimOwnership => do
      let owner ← claimOwnership info env s.ownershipProposal
      .ok ⟨{ s with config := { s.config with owner := owner }, ownershipProposal := none }, []⟩
  | .updateConfig incentivesAddress => handleUpdateConfig q s info incentivesAddress
  | .migrateXYKLiquidity poolType userAddressRaw duration userInfo lockupInfo stake =>
      handleMigrateXykLiquidity q s info poolType userAddressRaw duration userInfo lockupInfo
        stake

end Queries

end NeutronTge.LockdropPcl
