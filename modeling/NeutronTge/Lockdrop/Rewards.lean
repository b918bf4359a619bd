import NeutronTge.Lockdrop.Stored
import NeutronTge.Shares.Reports

/-!
# NeutronTge.Lockdrop.Rewards

The computations of the lockdrop: how a stored lockup is loaded, the weight of a lockup,
its part of the one-time incentives, its share of the pool's LP tokens and what it has
accrued from the generator. The handlers in `NeutronTge.Lockdrop.Handlers` and
`NeutronTge.Lockdrop.Callbacks` put them together.
-/

namespace NeutronTge.Lockdrop

open CosmWasm Astroport Shares

/-! ### Windows -/

/-- `init_timestamp + lock_window`. -/
def lockWindowEnd (config : Config) : Except StdError Nat :=
  Uint.add 64 config.initTimestamp config.lockWindow

/-- `init_timestamp + lock_window + withdrawal_window`. -/
def windowsEnd (config : Config) : Except StdError Nat := do
  let lockEnd ← lockWindowEnd config
  Uint.add 64 lockEnd config.withdrawalWindow

/-- `calculate_max_withdrawal_percent_allowed`. -/
def calculateMaxWithdrawalPercentAllowed (currentTimestamp : Nat) (config : Config) :
    Except StdError Decimal := do
  let cutoffInitPoint ← lockWindowEnd config
  -- lock window: all of it
  if currentTimestamp < cutoffInitPoint then FixedPoint.fromRatio 128 100 100
  else do
    -- first half of the withdrawal window, its last second included: 50%
    let cutoffSecondPoint ← Uint.add 64 cutoffInitPoint (config.withdrawalWindow / 2)
    if currentTimestamp ≤ cutoffSecondPoint then FixedPoint.fromRatio 128 50 100
    else do
      -- second half: from 50% linearly down to 0%
      let cutoffFinal ← Uint.add 64 cutoffInitPoint config.withdrawalWindow
      if currentTimestamp < cutoffFinal then do
        let timeLeft ← Uint.sub cutoffFinal currentTimestamp
        let num ← Uint.mul 64 50 timeLeft
        let rest ← Uint.sub cutoffFinal cutoffSecondPoint
        let den ← Uint.mul 64 100 rest
        FixedPoint.fromRatio 128 num den
      else FixedPoint.fromRatio 128 0 100

/-! ### Loading a lockup -/

section Load

variable (q : Querier) (s : Storage)

/-- The proxy debt of a lockup of the old version, which had no asset to go with it. -/
def convertProxyDebt (key : LockupKey) (generator : Addr) (debt : Nat) :
    Except StdError (RestrictedVector AssetInfo Nat) :=
  if debt = 0 then .ok []
  else do
    let pool ← s.assetPools.load key.poolType
    let proxies ← q.rewardProxies generator pool.lpToken
    let proxy ← okOr proxies.head?
      (.genericErr ("Proxy rewards not found: " ++ pool.lpToken))
    let rewardAsset ← q.rawProxyAsset generator proxy
    RestrictedVector.updateUint [] rewardAsset debt

/-- `compatible_load`: an entry of the old version is converted. -/
def compatibleLoad (key : LockupKey) : Except StdError LockupInfoV2 := do
  match ← s.lockupInfo.load key with
  | .v2 info => .ok info
  -- an old entry cannot be read before a generator is set, even if its debt is zero
  | .v1 old => do
      let generator ← okOr s.config.generator .aborted
      let generatorProxyDebt ← convertProxyDebt q s key generator old.generatorProxyDebt
      .ok
        { lpUnitsLocked := old.lpUnitsLocked
          astroportLpTransferred := old.astroportLpTransferred
          withdrawalFlag := old.withdrawalFlag
          ntrnRewards := old.ntrnRewards
          generatorNtrnDebt := old.generatorNtrnDebt
          generatorProxyDebt := generatorProxyDebt
          unlockTimestamp := old.unlockTimestamp }

/-- `compatible_may_load`. -/
def compatibleMayLoad (key : LockupKey) : Except StdError (Option LockupInfoV2) :=
  if s.lockupInfo.has key then some <$> compatibleLoad q s key else .ok none

/-- The keys of `ASSET_POOLS` in ascending order. -/
def poolTypes : List PoolType := storedPools s.assetPools

/-- The keys of all lockups of a user, pool by pool. -/
def userLockupKeys (user : Addr) : List LockupKey := storedKeys s.assetPools s.lockupInfo user

end Load

/-! ### The one-time incentives -/

/-- `calculate_weight`. -/
def calculateWeight (amount duration : Nat) (config : Config) : Except StdError Nat := do
  let info ← okOr (config.lockupRewardsInfo.find? fun i => i.duration = duration)
    (.genericErr "invalid duration")
  -- a longer duration weighs more: `amount * (1 + coefficient)`, rounded down
  let lockWeight ← FixedPoint.one.add info.coefficient
  lockWeight.checkedMulUint amount

/-- `calculate_astro_incentives_for_lockup`. -/
def calculateAstroIncentivesForLockup (lockupWeightedBalance totalWeightedAmount
    poolIncentivesShare totalIncentivesShare totalLockdropIncentives : Nat) :
    Except StdError Nat :=
  if totalIncentivesShare = 0 ∨ totalWeightedAmount = 0 then .ok 0
  else do
    let num ← Uint.checkedMul 256 poolIncentivesShare lockupWeightedBalance
    let den ← Uint.checkedMul 256 totalIncentivesShare totalWeightedAmount
    let ratio ← FixedPoint.fromRatio 256 num den
    ratio.checkedMulUint totalLockdropIncentives

section Incentives

variable (q : Querier)

/-- The incentives of a lockup that are computed from the state. -/
def lockupIncentives (s : Storage) (key : LockupKey) (lpUnitsLocked : Nat) (pool : PoolInfo) :
    Except StdError Nat := do
  let weight ← calculateWeight lpUnitsLocked key.duration s.config
  calculateAstroIncentivesForLockup weight pool.weightedAmount pool.incentivesShare
    s.state.totalIncentivesShare s.config.lockdropIncentives

/-- One lockup in the loop of `update_user_lockup_positions_and_calc_rewards`: its reward,
which is stored unless it was stored before. Zero stands for "not stored". -/
def updateLockupReward (s : Storage) (key : LockupKey) : Except StdError (Nat × Storage) := do
  let pool ← s.assetPools.load key.poolType
  let lockup ← compatibleLoad q s key
  if lockup.ntrnRewards = 0 then do
    let ntrnRewards ← lockupIncentives s key lockup.lpUnitsLocked pool
    .ok (ntrnRewards, { s with
      lockupInfo := s.lockupInfo.save key (.v2 { lockup with ntrnRewards := ntrnRewards }) })
  else .ok (lockup.ntrnRewards, s)

/-- `update_user_lockup_positions_and_calc_rewards`: the sum of the rewards and the
storage with the rewards stored. -/
def updateUserLockupPositionsAndCalcRewards (s : Storage) (user : Addr) :
    Except StdError (Nat × Storage) :=
  addAmounts (updateLockupReward q) s (userLockupKeys s user)

/-- `claim_airdrop_tokens_with_multiplier_msg`; the multiplier is one. -/
def claimAirdropTokensWithMultiplierMsg (creditsContract userAddr : Addr)
    (ntrnLockdropRewards : Nat) : Except StdError CosmosMsg := do
  let unvestedTokensAmount ← q.withdrawableAmount creditsContract userAddr
  let vestedTokensAmount ← q.vestedAmount creditsContract userAddr
  let rewards ← FixedPoint.ofUint ntrnLockdropRewards
  let multiplied ← rewards.checkedMul FixedPoint.one
  -- at most as much of what still vests as the one-time reward is
  let claimableVestedAmount := min vestedTokensAmount multiplied.toUintFloor
  let amount ← Uint.checkedAdd 128 claimableVestedAmount unvestedTokensAmount
  .ok (.burnFrom creditsContract userAddr amount)

/-- The airdrop goes to users who hold cNTRN. -/
def airdropMsgs (s : Storage) (userAddress : Addr) (ntrnLockdropRewards : Nat) :
    Except StdError (List CosmosMsg) := do
  let balance ← q.creditsBalance s.config.creditsContract userAddress
  if 0 < balance then do
    let msg ← claimAirdropTokensWithMultiplierMsg q s.config.creditsContract userAddress
      ntrnLockdropRewards
    .ok [msg]
  else .ok []

/-- The payment of the one-time reward, when there is one. -/
def lockdropRewardMsg (userAddress : Addr) (totalNtrnRewards : Nat) : List CosmosMsg :=
  if 0 < totalNtrnRewards then
    [.bankSend .lockdropReward userAddress ⟨untrnDenom, totalNtrnRewards⟩]
  else []

/-- The last part of both reward callbacks: the one-time reward and the airdrop are paid
to a user who did not get them before. -/
def payNtrnRewards (s : Storage) (userAddress : Addr) (userInfo : UserInfo) :
    Except StdError (Storage × List CosmosMsg) :=
  if userInfo.ntrnTransferred then .ok (s, [])
  else do
    let airdrop ← airdropMsgs q s userAddress userInfo.totalNtrnRewards
    -- the flag is set whatever the reward was, zero included
    .ok ({ s with
      userInfo := s.userInfo.save userAddress { userInfo with ntrnTransferred := true } },
      lockdropRewardMsg userAddress userInfo.totalNtrnRewards ++ airdrop)

end Incentives

/-! ### Generator rewards -/

section Generator

variable (q : Querier)

/-- The LP tokens of the pool: the generator deposit once they are staked. -/
def lpBalance (generator : Addr) (pool : PoolInfo) : Except StdError Nat :=
  if pool.isStaked then q.deposit generator pool.lpToken else q.tokenBalance pool.lpToken

/-- The LP tokens that belong to a lockup: `lp_units_locked * balance / amount_in_lockups`. -/
def astroportLpShare (generator : Addr) (pool : PoolInfo) (lpUnitsLocked : Nat) :
    Except StdError Nat := do
  let balance ← lpBalance q generator pool
  let share ← Uint.checkedDiv (lpUnitsLocked * balance) pool.amountInLockups
  Uint.tryInto 128 share

/-- What the lockup's share has accrued of the base reward, and the part that was not
paid yet. -/
def accruedNtrn (pool : PoolInfo) (astroportLpAmount debt : Nat) :
    Except StdError (Nat × Nat) := do
  let lpAmount ← FixedPoint.ofUint astroportLpAmount
  let accrued ← pool.generatorNtrnPerShare.checkedMul lpAmount
  let pending ← Uint.checkedSub accrued.toUintFloor debt
  .ok (accrued.toUintFloor, pending)

/-- The loop over the proxy debts of a lockup: the new debts and the assets to pay. -/
def accruedProxy (pool : PoolInfo) (astroportLpAmount : Nat) :
    RestrictedVector AssetInfo Nat →
      Except StdError (RestrictedVector AssetInfo Nat × List Asset)
  | [] => .ok ([], [])
  | (asset, debt) :: rest => do
      let perShare := (pool.generatorProxyPerShare.load asset).getD FixedPoint.zero
      let total ← perShare.checkedMulUint astroportLpAmount
      let pending ← Uint.checkedSub total debt
      let (debts, pendings) ← accruedProxy pool astroportLpAmount rest
      .ok ((asset, total) :: debts,
        if pending = 0 then pendings else ⟨asset, pending⟩ :: pendings)

/-- The payment of a lockup's base reward, when there is something to pay. -/
def baseRewardMsg (poolType : PoolType) (userAddress : Addr) (rewardToken : String)
    (pending : Nat) : List CosmosMsg :=
  if 0 < pending then [.bankSend (.generatorReward poolType) userAddress ⟨rewardToken, pending⟩]
  else []

/-- Ask the generator for the pending rewards of the pool, if there are any, and book
them afterwards. -/
def claimGeneratorRewards (config : Config) (poolType : PoolType) (lpToken : Addr) :
    Except StdError (List CosmosMsg) := do
  let generator ← okOr config.generator
    (.genericErr "Generator should be set at this moment!")
  let pendingRewards ← q.pendingToken generator lpToken
  let pendingOnProxy := pendingRewards.pendingOnProxy.getD []
  if pendingRewards.pending ≠ 0 ∨ (∃ asset ∈ pendingOnProxy, asset.amount ≠ 0) then do
    let rewardToken ← q.baseRewardToken generator lpToken
    let rewardTokenBalance ← q.bankBalance rewardToken
    -- a balance that cannot be read counts as zero
    let prevProxyRewardBalances := pendingOnProxy.map fun asset =>
      { asset with amount := (q.queryPool asset.info).toOption.getD 0 }
    .ok [.claimRewards generator [lpToken],
      .callback (.updatePoolOnDualRewardsClaim poolType rewardTokenBalance
        prevProxyRewardBalances)]
  else .ok []

end Generator

/-! ### Queries -/

/-- What `query_lockup_info` answers about a lockup. -/
structure LockUpInfoResponse where
  poolType : PoolType
  lpUnitsLocked : Nat
  withdrawalFlag : Bool
  ntrnRewards : Nat
  duration : Nat
  generatorNtrnDebt : Nat
  claimableGeneratorAstroDebt : Nat
  generatorProxyDebt : RestrictedVector AssetInfo Nat
  claimableGeneratorProxyDebt : RestrictedVector AssetInfo Nat
  unlockTimestamp : Nat
  astroportLpUnits : Option Nat
  astroportLpToken : Addr
  astroportLpTransferred : Option Nat
  deriving Repr, DecidableEq

section Query

variable (q : Querier) (s : Storage)

/-- The loop of `query_lockup_info` over the rewards that are pending on proxies. -/
def claimableProxyDebts (poolLpUnits lockupLpUnits : Nat)
    (debts : RestrictedVector AssetInfo Nat) (rewards : List Asset)
    (perShare : RestrictedVector AssetInfo Decimal) :
    Except StdError (RestrictedVector AssetInfo Nat) := do
  let st ← rewards.foldlM (fun st reward => do
    let increment ← FixedPoint.fromRatio 128 reward.amount poolLpUnits
    let perShare ← st.1.updateDecimal reward.info increment
    let current := (perShare.load reward.info).getD FixedPoint.zero
    let total ← current.checkedMulUint lockupLpUnits
    let debt ← Uint.checkedSub total ((debts.load reward.info).getD 0)
    let claimable ← RestrictedVector.updateUint st.2 reward.info debt
    .ok (perShare, claimable)) (perShare, ([] : RestrictedVector AssetInfo Nat))
  .ok st.2

/-- The LP tokens of the pool as `query_lockup_info` reads them. -/
def rawLpBalance (pool : PoolInfo) : Except StdError Nat :=
  if pool.isStaked then do
    let generator ← okOr s.config.generator (.genericErr "Should be set!")
    q.rawGeneratorDeposit generator pool.lpToken
  else q.rawBalance pool.lpToken

/-- The LP units of an open lockup: the pool's units and the lockup's. -/
def queryLpUnits (pool : PoolInfo) (lpUnitsLocked : Nat) : Except StdError (Nat × Nat) := do
  let poolLpUnits ← rawLpBalance q s pool
  let share ← Uint.checkedDiv (lpUnitsLocked * poolLpUnits) pool.amountInLockups
  let lockupLpUnits ← Uint.tryInto 128 share
  .ok (poolLpUnits, lockupLpUnits)

/-- What an open lockup could claim from the generator: base reward and proxy rewards. -/
def claimableDebts (pool : PoolInfo) (lockup : LockupInfoV2) (poolLpUnits lockupLpUnits : Nat) :
    Except StdError (Nat × RestrictedVector AssetInfo Nat) :=
  if pool.isStaked = true ∧ lockupLpUnits ≠ 0 then do
    let generator ← okOr s.config.generator
      (.genericErr "Generator should be set at this moment!")
    let pendingRewards ← q.pendingToken generator pool.lpToken
    let increment ← FixedPoint.fromRatio 128 pendingRewards.pending poolLpUnits
    let perShare ← pool.generatorNtrnPerShare.checkedAdd increment
    let (_, claimable) ← accruedNtrn { pool with generatorNtrnPerShare := perShare }
      lockupLpUnits lockup.generatorNtrnDebt
    let proxies ← claimableProxyDebts poolLpUnits lockupLpUnits lockup.generatorProxyDebt
      (pendingRewards.pendingOnProxy.getD []) pool.generatorProxyPerShare
    .ok (claimable, proxies)
  else .ok (0, [])

/-- The LP units and the claimable rewards of a lockup. -/
def queryGeneratorPart (pool : PoolInfo) (lockup : LockupInfoV2) :
    Except StdError (Nat × Nat × RestrictedVector AssetInfo Nat) :=
  match lockup.astroportLpTransferred with
  -- a lockup that left keeps what it left with and earns nothing more
  | some transferred => .ok (transferred, 0, [])
  | none => do
      let (poolLpUnits, lockupLpUnits) ← queryLpUnits q s pool lockup.lpUnitsLocked
      let (claimable, proxies) ← claimableDebts q s pool lockup poolLpUnits lockupLpUnits
      .ok (lockupLpUnits, claimable, proxies)

/-- The one-time reward `query_lockup_info` reports: the stored one, or the one expected. -/
def queryNtrnRewards (key : LockupKey) (pool : PoolInfo) (lockup : LockupInfoV2) :
    Except StdError Nat :=
  if lockup.ntrnRewards = 0 then lockupIncentives s key lockup.lpUnitsLocked pool
  else .ok lockup.ntrnRewards

/-- `query_lockup_info`. -/
def queryLockupInfo (key : LockupKey) : Except StdError LockUpInfoResponse := do
  let pool ← s.assetPools.load key.poolType
  let lockup ← compatibleLoad q s key
  let (lpUnits, claimable, proxies) ← queryGeneratorPart q s pool lockup
  let ntrnRewards ← queryNtrnRewards s key pool lockup
  .ok
    { poolType := key.poolType
      lpUnitsLocked := lockup.lpUnitsLocked
      withdrawalFlag := lockup.withdrawalFlag
      ntrnRewards := ntrnRewards
      duration := key.duration
      generatorNtrnDebt := lockup.generatorNtrnDebt
      claimableGeneratorAstroDebt := claimable
      generatorProxyDebt := lockup.generatorProxyDebt
      claimableGeneratorProxyDebt := proxies
      unlockTimestamp := lockup.unlockTimestamp
      astroportLpUnits := some lpUnits
      astroportLpToken := pool.lpToken
      astroportLpTransferred := lockup.astroportLpTransferred }

/-- `query_user_lockup_total_at_height`. -/
def queryUserLockupTotalAtHeight (pool : PoolType) (user : Addr) (height : Nat) : Option Nat :=
  s.totalUserLockupAmount.mayLoadAtHeight (pool, user) height

/-- `query_lockup_total_at_height`. -/
def queryLockupTotalAtHeight (pool : PoolType) (height : Nat) : Option Nat :=
  match s.assetPools.mayLoadAtHeight pool height with
  | some pool => some pool.amountInLockups
  | none => some 0

end Query

end NeutronTge.Lockdrop
