import NeutronTge.Lockdrop.Effects
import NeutronTge.LockdropPcl.Chain

/-!
# NeutronTge.LockdropPcl.Effects

What each function of the PCL lockdrop does when it succeeds, and what its two transactions
with callbacks do: a claim collects the pool's rewards, pays the lockup and perhaps closes
it; a migration provides the liquidity and stores the lockup.
-/

namespace NeutronTge.LockdropPcl

open CosmWasm Astroport Shares
open Lockdrop (PoolType LockupKey SameLedger mem_storedPools untrnDenom increasedTotal
  increasedTotal_ok decreasedTotal decreasedTotal_ok)

variable {q : Querier} {s s' : Storage}

/-- The user record with the default for a missing entry. -/
def Storage.user (s : Storage) (addr : Addr) : UserInfo :=
  (s.userInfo.mayLoad addr).getD UserInfo.default

theorem instantiate_ok {env : Env} {info : MessageInfo} {msg : InstantiateMsg}
    (h : instantiate env info msg = .ok s) : s = msg.storage env info := by
  simp only [instantiate, bind_eq_ok, rejectIf_eq_ok, exists_const, Except.ok.injEq] at h
  exact h.2.2.symm

/-- A pool right after `instantiate`. -/
theorem initialPool_ok {env : Env} {info : MessageInfo} {msg : InstantiateMsg} {p : PoolType}
    {pool : PoolInfo} (h : (msg.storage env info).assetPools.mayLoad p = some pool) :
    p = .atom ∧ pool = .initial msg.atomToken msg.atomIncentivesShare msg.atomWeightedAmount ∨
      p = .usdc ∧
        pool = .initial msg.usdcToken msg.usdcIncentivesShare msg.usdcWeightedAmount := by
  unfold InstantiateMsg.storage at h
  simp only [SnapshotMap.mayLoad_save_eq] at h
  cases p with
  | atom => exact Or.inl ⟨rfl, (Option.some.inj h).symm⟩
  | usdc => exact Or.inr ⟨rfl, (Option.some.inj h).symm⟩

/-- The pools have different LP tokens when the message says so. -/
theorem initialPools_lpToken {env : Env} {info : MessageInfo} {msg : InstantiateMsg}
    {p p' : PoolType} {pool pool' : PoolInfo} (htokens : msg.atomToken ≠ msg.usdcToken)
    (hne : p ≠ p') (hp : (msg.storage env info).assetPools.mayLoad p = some pool)
    (hp' : (msg.storage env info).assetPools.mayLoad p' = some pool') :
    pool.lpToken ≠ pool'.lpToken := by
  rcases initialPool_ok hp with ⟨rfl, rfl⟩ | ⟨rfl, rfl⟩ <;>
    rcases initialPool_ok hp' with ⟨rfl, rfl⟩ | ⟨rfl, rfl⟩
  · exact absurd rfl hne
  · exact htokens
  · exact htokens.symm
  · exact absurd rfl hne

/-! ### The one-time rewards -/

/-- What a lockup says apart from its one-time reward. -/
structure LockupCore where
  lpUnitsLocked : Nat
  astroportLpTransferred : Option Nat
  withdrawalFlag : Bool
  incentivesDebt : RestrictedVector AssetInfo Nat
  unlockTimestamp : Nat
  deriving Repr, DecidableEq

/-- What a lockup says apart from its one-time reward. -/
def LockupInfo.core (info : LockupInfo) : LockupCore :=
  ⟨info.lpUnitsLocked, info.astroportLpTransferred, info.withdrawalFlag, info.incentivesDebt,
    info.unlockTimestamp⟩

/-- The core of the lockup stored under a key. -/
def Storage.coreOf (s : Storage) (k : LockupKey) : Option LockupCore :=
  (s.lockupInfo.mayLoad k).map LockupInfo.core

/-- Whether the stored user was paid the one-time reward. -/
def Storage.paidOf (s : Storage) (u : Addr) : Option Bool :=
  (s.userInfo.mayLoad u).map UserInfo.ntrnTransferred

theorem coreOf_save {key : LockupKey} {info : LockupInfo}
    (h : s'.lockupInfo = s.lockupInfo.save key info) (k : LockupKey) :
    s'.coreOf k = if k = key then some info.core else s.coreOf k := by
  unfold Storage.coreOf
  rw [h, Map.map_mayLoad_save]

theorem coreOf_congr (h : s'.lockupInfo = s.lockupInfo) (k : LockupKey) :
    s'.coreOf k = s.coreOf k := by
  unfold Storage.coreOf
  rw [h]

theorem coreOf_of_load {k : LockupKey} {lockup : LockupInfo}
    (h : s.lockupInfo.mayLoad k = some lockup) : s.coreOf k = some lockup.core := by
  rw [Storage.coreOf, h, Option.map_some]

/-- What a lockup has left with. -/
def Storage.leftWith (s : Storage) (k : LockupKey) : Option Nat :=
  (s.coreOf k).bind LockupCore.astroportLpTransferred

theorem leftWith_of_core {k : LockupKey} {core : LockupCore} (h : s.coreOf k = some core) :
    s.leftWith k = core.astroportLpTransferred := by
  rw [Storage.leftWith, h, Option.bind_some]

/-- The LP token of a pool. -/
def Storage.lpTokenOf (s : Storage) (p : PoolType) : Option Addr :=
  (s.assetPools.mayLoad p).map PoolInfo.lpToken

theorem lpTokenOf_of_mayLoad {p : PoolType} {pool : PoolInfo}
    (h : s.assetPools.mayLoad p = some pool) : s.lpTokenOf p = some pool.lpToken := by
  rw [Storage.lpTokenOf, h, Option.map_some]

theorem paidOf_save {user : Addr} {userInfo : UserInfo}
    (h : s'.userInfo = s.userInfo.save user userInfo) (u : Addr) :
    s'.paidOf u = if u = user then some userInfo.ntrnTransferred else s.paidOf u := by
  unfold Storage.paidOf
  rw [h, Map.map_mayLoad_save]

/-- A step that only computes and stores one-time rewards: what it leaves alone. -/
structure SameBooks (s s' : Storage) : Prop extends SameLedger LockupInfo.core s.config s'.config
    s.state s'.state s.assetPools s'.assetPools s.totalUserLockupAmount s'.totalUserLockupAmount
    s.lockupInfo s'.lockupInfo where
  users : ∀ u, s'.paidOf u = s.paidOf u

namespace SameBooks

theorem refl (s : Storage) : SameBooks s s := ⟨.refl, fun _ => rfl⟩

theorem trans {s t u : Storage} (h : SameBooks s t) (h' : SameBooks t u) : SameBooks s u where
  toSameLedger := h.toSameLedger.trans h'.toSameLedger
  users u := (h'.users u).trans (h.users u)

theorem coreOf (h : SameBooks s s') (k : LockupKey) : s'.coreOf k = s.coreOf k := h.lockups k

/-- Storing a lockup with the same core. -/
theorem saveLockup {key : LockupKey} {lockup info : LockupInfo}
    (hlockup : s.lockupInfo.mayLoad key = some lockup) (hcore : info.core = lockup.core) :
    SameBooks s { s with lockupInfo := s.lockupInfo.save key info } where
  toSameLedger := .saveLockup hlockup hcore
  users _ := rfl

/-- Storing a user who is paid if and only if he was before. -/
theorem saveUser {user : Addr} {userInfo : UserInfo}
    (hpaid : s.paidOf user = some userInfo.ntrnTransferred) :
    SameBooks s { s with userInfo := s.userInfo.save user userInfo } where
  toSameLedger := .refl
  users u := by
    rw [@paidOf_save s { s with userInfo := s.userInfo.save user userInfo } user userInfo rfl]
    split_ifs with hu
    · rw [hu, hpaid]
    · rfl

end SameBooks

theorem updateLockupReward_sameBooks {key : LockupKey} {reward : Nat}
    (h : updateLockupReward s key = .ok (reward, s')) : SameBooks s s' := by
  unfold updateLockupReward at h
  simp only [bind_eq_ok, SnapshotMap.load, Map.load_eq_ok] at h
  obtain ⟨pool, -, lockup, hlockup, h⟩ := h
  split_ifs at h
  · simp only [bind_eq_ok, Except.ok.injEq, Prod.mk.injEq] at h
    obtain ⟨_, -, -, rfl⟩ := h
    exact SameBooks.saveLockup hlockup rfl
  · simp only [Except.ok.injEq, Prod.mk.injEq] at h
    obtain ⟨-, rfl⟩ := h
    exact SameBooks.refl s

theorem userNtrnRewards_sameBooks {user : Addr} {userInfo : UserInfo} {total : Nat}
    (h : userNtrnRewards s user userInfo = .ok (total, s')) : SameBooks s s' := by
  unfold userNtrnRewards updateUserLockupPositionsAndCalcRewards at h
  split_ifs at h
  · exact addAmounts_relation .refl (fun _ _ _ => SameBooks.trans)
      (fun _ _ _ _ _ => updateLockupReward_sameBooks) h
  · simp only [Except.ok.injEq, Prod.mk.injEq] at h
    obtain ⟨-, rfl⟩ := h
    exact SameBooks.refl s

/-! ### The claim handler -/

/-- Everything the handler of `ClaimRewardsAndOptionallyUnlock` does. -/
structure StartsClaim (s s' : Storage) (env : Env) (key : LockupKey) (withdraw : Bool)
    (msgs : List CosmosMsg) (lockup : LockupInfo) (collect : List CosmosMsg) : Prop where
  user_eq : s.paidOf key.user ≠ none
  sameBooks : SameBooks s s'
  lockup_eq : s'.lockupInfo.mayLoad key = some lockup
  lockup_open : lockup.astroportLpTransferred = none
  unlocked : withdraw = true → lockup.unlockTimestamp ≤ env.time
  collect_eq : collect = [] ∨ ∃ incentives lpToken prev,
    collect = [.claimRewards incentives [lpToken],
      .callback (.updatePoolOnDualRewardsClaim key.poolType prev)]
  messages : msgs = collect ++
    [.callback (.withdrawUserLockupRewardsCallback key.poolType key.user key.duration withdraw)]

theorem claimMessages_ok {poolType : PoolType} {pool : PoolInfo} {msgs : List CosmosMsg}
    (h : claimMessages q s poolType pool = .ok msgs) :
    msgs = [] ∨ ∃ incentives lpToken prev, msgs = [.claimRewards incentives [lpToken],
      .callback (.updatePoolOnDualRewardsClaim poolType prev)] := by
  unfold claimMessages at h
  split_ifs at h
  · rw [bind_eq_ok] at h
    obtain ⟨pending, -, h⟩ := h
    split_ifs at h
    · exact Or.inr ⟨_, _, _, (Except.ok.inj h).symm⟩
    · exact Or.inl (Except.ok.inj h).symm
  · exact Or.inl (Except.ok.inj h).symm

theorem handleClaimRewardsAndUnlockForLockup_ok {env : Env} {info : MessageInfo}
    {poolType : PoolType} {duration : Nat} {withdraw : Bool} {r : Response}
    (h : handleClaimRewardsAndUnlockForLockup q s env info poolType duration withdraw = .ok r) :
    ∃ lockup collect, StartsClaim s r.storage env ⟨poolType, info.sender, duration⟩ withdraw
      r.messages lockup collect := by
  unfold handleClaimRewardsAndUnlockForLockup at h
  simp only [bind_eq_ok, rejectIf_eq_ok, exists_const, SnapshotMap.load, Map.load_eq_ok,
    Except.ok.injEq] at h
  obtain ⟨pool, -, userInfo, huser, ⟨total, t⟩, htotal, lockup, hlockup, hunlock, hopen,
    collect, hcollect, rfl⟩ := h
  have hsame := userNtrnRewards_sameBooks htotal
  have hpaid : s.paidOf info.sender = some userInfo.ntrnTransferred := by
    rw [Storage.paidOf, huser, Option.map_some]
  refine ⟨lockup, collect, ?_⟩
  constructor
  · show s.paidOf info.sender ≠ none
    rw [hpaid]
    exact Option.some_ne_none _
  · refine hsame.trans (SameBooks.saveUser ?_)
    rw [hsame.users, hpaid]
  · exact hlockup
  · simpa using hopen
  · intro hwithdraw
    exact Nat.le_of_not_lt fun hlt => hunlock ⟨hwithdraw, hlt⟩
  · exact claimMessages_ok hcollect
  · rfl

/-- The messages of the handler, for the pool as it is stored. -/
theorem handleClaimRewardsAndUnlockForLockup_messages {env : Env} {info : MessageInfo}
    {poolType : PoolType} {duration : Nat} {withdraw : Bool} {r : Response}
    (h : handleClaimRewardsAndUnlockForLockup q s env info poolType duration withdraw = .ok r) :
    ∃ pool collect, r.storage.assetPools.mayLoad poolType = some pool ∧
      claimMessages q r.storage poolType pool = .ok collect ∧
      r.messages = collect ++ [.callback (.withdrawUserLockupRewardsCallback poolType info.sender
        duration withdraw)] := by
  unfold handleClaimRewardsAndUnlockForLockup at h
  simp only [bind_eq_ok, rejectIf_eq_ok, exists_const, SnapshotMap.load, Map.load_eq_ok,
    Except.ok.injEq] at h
  obtain ⟨pool, hpool, userInfo, -, ⟨total, t⟩, htotal, lockup, -, -, -, collect, hcollect,
    rfl⟩ := h
  refine ⟨pool, collect, ?_, hcollect, rfl⟩
  rw [← hpool]
  exact congrArg (·.mayLoad poolType) (userNtrnRewards_sameBooks htotal).assetPools

/-! ### The callbacks of a claim -/

/-- Everything `update_pool_on_dual_rewards_claim` does. -/
structure Books (q : Querier) (s s' : Storage) (env : Env) (poolType : PoolType)
    (prev : List Asset) (pool : PoolInfo) (deposit : Nat)
    (perShare : RestrictedVector AssetInfo Decimal) : Prop where
  pool_eq : s.assetPools.mayLoad poolType = some pool
  deposit_eq : q.deposit s.config.incentives pool.lpToken = .ok deposit
  perShare_eq : bookRewards q deposit pool.incentivesRewardsPerShare prev = .ok perShare
  storage : s' = { s with
    assetPools := s.assetPools.save poolType
      { pool with incentivesRewardsPerShare := perShare } env.height }

theorem updatePoolOnDualRewardsClaim_ok {env : Env} {poolType : PoolType} {prev : List Asset}
    {r : Response} (h : updatePoolOnDualRewardsClaim q s env poolType prev = .ok r) :
    r.messages = [] ∧ ∃ pool deposit perShare,
      Books q s r.storage env poolType prev pool deposit perShare := by
  unfold updatePoolOnDualRewardsClaim at h
  simp only [bind_eq_ok, SnapshotMap.load, Map.load_eq_ok, Except.ok.injEq] at h
  obtain ⟨pool, hpool, deposit, hdeposit, perShare, hbook, rfl⟩ := h
  exact ⟨rfl, pool, deposit, perShare, hpool, hdeposit, hbook, rfl⟩

theorem astroportLpShare_ok {incentives : Addr} {pool : PoolInfo} {units share : Nat}
    (h : astroportLpShare q incentives pool units = .ok share) :
    ∃ balance, lpBalance q incentives pool = .ok balance ∧ pool.amountInLockups ≠ 0 ∧
      share = units * balance / pool.amountInLockups := by
  simp only [astroportLpShare, bind_eq_ok, Uint.checkedDiv_eq_ok, Uint.tryInto_eq_ok] at h
  obtain ⟨balance, hbalance, _, ⟨hne, rfl⟩, -, rfl⟩ := h
  exact ⟨balance, hbalance, hne, rfl⟩

/-- The incentives contract is replaced only when no pool has LP tokens staked there. -/
theorem checkUnstaked_ok {u : Unit} (h : checkUnstaked q s = .ok u) {p : PoolType}
    {pool : PoolInfo} (hpool : s.assetPools.mayLoad p = some pool) :
    q.deposit s.config.incentives pool.lpToken = .ok 0 := by
  have hmem : p ∈ poolTypes s := mem_storedPools.mpr (by rw [hpool]; rfl)
  have hcheck := forM_ok h p hmem
  simp only [bind_eq_ok, SnapshotMap.load, Map.load_eq_ok, rejectIf_eq_ok, not_not] at hcheck
  obtain ⟨pool', hpool', staked, hstaked, rfl⟩ := hcheck
  obtain rfl := Option.some.inj (hpool.symm.trans hpool')
  exact hstaked

/-- What the reward callback pays for a lockup: nothing before the pool is staked. -/
inductive PaysRewards (q : Querier) (s : Storage) (key : LockupKey) (lockup : LockupInfo)
    (pool : PoolInfo) (share : Nat) (withdraw : Bool) : LockupInfo → List CosmosMsg → Prop
  | unstaked (hstaked : pool.isStaked = false) :
      PaysRewards q s key lockup pool share withdraw lockup []
  | staked (rewards : List RewardType) (debts : RestrictedVector AssetInfo Nat)
      (pending : List Asset) (hstaked : pool.isStaked = true)
      (hrewards : q.rewardInfo s.config.incentives pool.lpToken = .ok rewards)
      (hpending : rewards.foldlM (accrueReward pool share) (lockup.incentivesDebt, []) =
        .ok (debts, pending)) :
      PaysRewards q s key lockup pool share withdraw { lockup with incentivesDebt := debts }
        (pending.map (fun asset => .transfer (asset.intoMsg key.user)) ++
          if withdraw then [.incentivesWithdraw s.config.incentives pool.lpToken share] else [])

theorem lockupRewards_ok {key : LockupKey} {lockup lockup' : LockupInfo} {pool : PoolInfo}
    {userInfo : UserInfo} {share : Nat} {withdraw : Bool} {msgs : List CosmosMsg}
    (h : lockupRewards q s key lockup pool userInfo share withdraw = .ok (lockup', msgs)) :
    PaysRewards q s key lockup pool share withdraw lockup' msgs := by
  unfold lockupRewards at h
  split at h
  · rename_i hstaked
    unfold stakedRewards at h
    simp only [bind_eq_ok, rejectIf_eq_ok, exists_const, Except.ok.injEq, Prod.mk.injEq] at h
    obtain ⟨rewards, hrewards, ⟨debts, pending⟩, hpending, -, rfl, rfl⟩ := h
    exact PaysRewards.staked rewards debts pending hstaked hrewards hpending
  · rename_i hstaked
    simp only [Except.ok.injEq, Prod.mk.injEq] at h
    obtain ⟨rfl, rfl⟩ := h
    exact PaysRewards.unstaked (by simpa using hstaked)

/-- Everything the exit does to the storage. -/
structure Closes (s s' : Storage) (height : Nat) (key : LockupKey) (pool : PoolInfo)
    (lockup : LockupInfo) (share : Nat) : Prop where
  units_le : lockup.lpUnitsLocked ≤ pool.amountInLockups
  storage : s' = { s with
    assetPools := s.assetPools.save key.poolType
      { pool with amountInLockups := pool.amountInLockups - lockup.lpUnitsLocked } height
    totalUserLockupAmount := s.totalUserLockupAmount.save (key.poolType, key.user)
      ((s.totalUserLockupAmount.mayLoad (key.poolType, key.user)).getD 0 -
        lockup.lpUnitsLocked) height
    lockupInfo := s.lockupInfo.save key { lockup with astroportLpTransferred := some share } }

/-- What the reward callback does to a lockup: it is stored with new debts, and closed when
its owner unlocks. -/
inductive StoresOrCloses (s : Storage) (height : Nat) (key : LockupKey) (pool : PoolInfo)
    (lockup : LockupInfo) (share : Nat) : Bool → Storage → List CosmosMsg → Prop
  | stored : StoresOrCloses s height key pool lockup share false
      { s with lockupInfo := s.lockupInfo.save key lockup } []
  | closed (s' : Storage) (hcloses : Closes s s' height key pool lockup share) :
      StoresOrCloses s height key pool lockup share true s'
        [.lpTransfer pool.lpToken key.user share]

theorem storeOrClose_ok {height : Nat} {key : LockupKey} {pool : PoolInfo}
    {lockup : LockupInfo} {share : Nat} {withdraw : Bool} {msgs : List CosmosMsg}
    (h : storeOrClose s height key pool lockup share withdraw = .ok (s', msgs)) :
    StoresOrCloses s height key pool lockup share withdraw s' msgs := by
  unfold storeOrClose at h
  cases withdraw with
  | false =>
      simp only [Bool.false_eq_true, if_false, Except.ok.injEq, Prod.mk.injEq] at h
      obtain ⟨rfl, rfl⟩ := h
      exact StoresOrCloses.stored
  | true =>
      simp only [if_true, bind_eq_ok, Uint.checkedSub_eq_ok, Except.ok.injEq,
        Prod.mk.injEq] at h
      obtain ⟨_, ⟨hle, rfl⟩, total, htotal, rfl, rfl⟩ := h
      rw [decreasedTotal_ok htotal]
      exact StoresOrCloses.closed _ ⟨hle, rfl⟩

/-- How the one-time reward is paid: not again, or the flag is set and the messages pay the
stored total and burn the airdrop. -/
inductive PaysNtrn (s : Storage) (user : Addr) (userInfo : UserInfo) :
    Storage → List CosmosMsg → Prop
  | already (hflag : userInfo.ntrnTransferred = true) : PaysNtrn s user userInfo s []
  | now (airdrop : List CosmosMsg) (hflag : userInfo.ntrnTransferred = false)
      (hairdrop : ∀ m ∈ airdrop, ∃ amount, m = .burnFrom s.config.creditsContract user amount) :
      PaysNtrn s user userInfo
        { s with userInfo := s.userInfo.save user { userInfo with ntrnTransferred := true } }
        (lockdropRewardMsg user userInfo.totalNtrnRewards ++ airdrop)

theorem payNtrnRewards_ok {user : Addr} {userInfo : UserInfo} {msgs : List CosmosMsg}
    (h : payNtrnRewards q s user userInfo = .ok (s', msgs)) :
    PaysNtrn s user userInfo s' msgs := by
  unfold payNtrnRewards at h
  split_ifs at h with hflag
  · simp only [Except.ok.injEq, Prod.mk.injEq] at h
    obtain ⟨rfl, rfl⟩ := h
    exact PaysNtrn.already hflag
  · simp only [bind_eq_ok, Except.ok.injEq, Prod.mk.injEq] at h
    obtain ⟨airdrop, hairdrop, rfl, rfl⟩ := h
    refine PaysNtrn.now airdrop (by simpa using hflag) ?_
    unfold airdropMsgs at hairdrop
    rw [bind_eq_ok] at hairdrop
    obtain ⟨balance, -, hairdrop⟩ := hairdrop
    split_ifs at hairdrop
    · simp only [bind_eq_ok, claimAirdropTokensWithMultiplierMsg, Except.ok.injEq] at hairdrop
      obtain ⟨_, ⟨_, -, _, -, _, -, _, -, amount, -, rfl⟩, rfl⟩ := hairdrop
      intro m hm
      exact ⟨amount, List.mem_singleton.mp hm⟩
    · obtain rfl := Except.ok.inj hairdrop
      simp

/-- Everything the reward callback of a claim does. -/
structure PaysOut (q : Querier) (s s' : Storage) (height : Nat) (key : LockupKey)
    (withdraw : Bool) (msgs : List CosmosMsg) (pool : PoolInfo) (lockup lockup' : LockupInfo)
    (share : Nat) (t : Storage) (rewardMsgs exitMsgs ntrnMsgs : List CosmosMsg) : Prop where
  pool_eq : s.assetPools.mayLoad key.poolType = some pool
  lockup_eq : s.lockupInfo.mayLoad key = some lockup
  share_eq : astroportLpShare q s.config.incentives pool lockup.lpUnitsLocked = .ok share
  rewards : PaysRewards q s key lockup pool share withdraw lockup' rewardMsgs
  exits : StoresOrCloses s height key pool lockup' share withdraw t exitMsgs
  ntrn : PaysNtrn t key.user (s.user key.user) s' ntrnMsgs
  messages : msgs = rewardMsgs ++ exitMsgs ++ ntrnMsgs

theorem callbackWithdrawUserRewards_ok {env : Env} {key : LockupKey} {withdraw : Bool}
    {r : Response} (h : callbackWithdrawUserRewards q s env key withdraw = .ok r) :
    ∃ pool lockup lockup' share t rewardMsgs exitMsgs ntrnMsgs,
      PaysOut q s r.storage env.height key withdraw r.messages pool lockup lockup' share t
        rewardMsgs exitMsgs ntrnMsgs := by
  unfold callbackWithdrawUserRewards at h
  simp only [bind_eq_ok, SnapshotMap.load, Map.load_eq_ok, Except.ok.injEq] at h
  obtain ⟨pool, hpool, lockup, hlockup, share, hshare, ⟨lockup', rewardMsgs⟩, hrewards,
    ⟨t, exitMsgs⟩, hexits, ⟨t', ntrnMsgs⟩, hntrn, rfl⟩ := h
  exact ⟨pool, lockup, lockup', share, t, rewardMsgs, exitMsgs, ntrnMsgs, hpool, hlockup, hshare,
    lockupRewards_ok hrewards, storeOrClose_ok hexits, payNtrnRewards_ok hntrn, rfl⟩

section PaysOut

variable {height : Nat} {key : LockupKey} {withdraw : Bool} {msgs : List CosmosMsg}
variable {pool : PoolInfo} {lockup lockup' : LockupInfo} {share : Nat} {t : Storage}
variable {rewardMsgs exitMsgs ntrnMsgs : List CosmosMsg}

/-- Paying a lockup changes its debts only. -/
theorem PaysRewards.core (h : PaysRewards q s key lockup pool share withdraw lockup' msgs) :
    lockup'.core = { lockup.core with incentivesDebt := lockup'.incentivesDebt } := by
  cases h <;> rfl

/-- The one-time reward leaves the lockups and the pools alone. -/
theorem PaysNtrn.sameBooks {user : Addr} {userInfo : UserInfo}
    (h : PaysNtrn s user userInfo s' msgs) :
    s'.config = s.config ∧ s'.state = s.state ∧ s'.assetPools = s.assetPools ∧
      s'.totalUserLockupAmount = s.totalUserLockupAmount ∧ s'.lockupInfo = s.lockupInfo := by
  cases h <;> exact ⟨rfl, rfl, rfl, rfl, rfl⟩

/-- The lockups after the reward callback: this one has new debts, and left if it was
withdrawn. -/
theorem PaysOut.coreOf
    (h : PaysOut q s s' height key withdraw msgs pool lockup lockup' share t rewardMsgs exitMsgs
      ntrnMsgs) :
    s'.coreOf key = some { lockup.core with
        incentivesDebt := lockup'.incentivesDebt
        astroportLpTransferred :=
          if withdraw then some share else lockup.astroportLpTransferred } ∧
      ∀ k, k ≠ key → s'.coreOf k = s.coreOf k := by
  have hcore := h.rewards.core
  obtain ⟨-, -, -, -, hlockups⟩ := h.ntrn.sameBooks
  simp only [coreOf_congr hlockups]
  have hexits := h.exits
  generalize withdraw = b at hexits
  cases hexits with
  | stored =>
      have hstored := @coreOf_save s { s with lockupInfo := s.lockupInfo.save key lockup' } key
        lockup' rfl
      refine ⟨?_, fun k hk => ?_⟩
      · rw [hstored, if_pos rfl, hcore]
        rfl
      · rw [hstored, if_neg hk]
  | closed _ hcloses =>
      have hclosed := coreOf_save (show t.lockupInfo = s.lockupInfo.save key
        { lockup' with astroportLpTransferred := some share } by rw [hcloses.storage])
      refine ⟨?_, fun k hk => ?_⟩
      · rw [hclosed, if_pos rfl]
        have htransferred : ({ lockup' with astroportLpTransferred := some share } :
            LockupInfo).core = { lockup'.core with astroportLpTransferred := some share } := rfl
        rw [htransferred, hcore]
        rfl
      · rw [hclosed, if_neg hk]

/-- A claim without exit leaves the pools alone. -/
theorem PaysOut.stays
    (h : PaysOut q s s' height key false msgs pool lockup lockup' share t rewardMsgs exitMsgs
      ntrnMsgs) :
    s'.config = s.config ∧ s'.assetPools = s.assetPools ∧
      s'.totalUserLockupAmount = s.totalUserLockupAmount ∧ exitMsgs = [] := by
  obtain ⟨hconfig, -, hpools, htotals, -⟩ := h.ntrn.sameBooks
  have hexits := h.exits
  cases hexits
  exact ⟨hconfig, hpools, htotals, rfl⟩

/-- An exit takes the lockup's units off the pool and off its user. -/
theorem PaysOut.leaves
    (h : PaysOut q s s' height key true msgs pool lockup lockup' share t rewardMsgs exitMsgs
      ntrnMsgs) :
    s'.config = s.config ∧ lockup.lpUnitsLocked ≤ pool.amountInLockups ∧
      s'.assetPools = s.assetPools.save key.poolType
        { pool with amountInLockups := pool.amountInLockups - lockup.lpUnitsLocked } height ∧
      s'.totalUserLockupAmount = s.totalUserLockupAmount.save (key.poolType, key.user)
        ((s.totalUserLockupAmount.mayLoad (key.poolType, key.user)).getD 0 -
          lockup.lpUnitsLocked) height ∧
      exitMsgs = [.lpTransfer pool.lpToken key.user share] := by
  obtain ⟨hconfig, -, hpools, htotals, -⟩ := h.ntrn.sameBooks
  have hunits : lockup'.lpUnitsLocked = lockup.lpUnitsLocked :=
    congrArg LockupCore.lpUnitsLocked h.rewards.core
  have hexits := h.exits
  cases hexits with
  | closed _ hcloses =>
      have hle := hcloses.units_le
      have hstorage := hcloses.storage
      rw [hunits] at hle hstorage
      rw [hconfig, hpools, htotals, hstorage]
      exact ⟨rfl, hle, rfl, rfl, rfl⟩

theorem PaysOut.config
    (h : PaysOut q s s' height key withdraw msgs pool lockup lockup' share t rewardMsgs exitMsgs
      ntrnMsgs) : s'.config = s.config := by
  cases withdraw with
  | false => exact h.stays.1
  | true => exact h.leaves.1

/-- The pools after the reward callback. -/
theorem PaysOut.assetPools
    (h : PaysOut q s s' height key withdraw msgs pool lockup lockup' share t rewardMsgs exitMsgs
      ntrnMsgs) :
    s'.assetPools.mayLoad key.poolType = some { pool with
        amountInLockups := pool.amountInLockups - if withdraw then lockup.lpUnitsLocked else 0 } ∧
      ∀ p, p ≠ key.poolType → s'.assetPools.mayLoad p = s.assetPools.mayLoad p := by
  cases withdraw with
  | false =>
      obtain ⟨-, hpools, -⟩ := h.stays
      rw [hpools]
      exact ⟨h.pool_eq, fun _ _ => rfl⟩
  | true =>
      obtain ⟨-, -, hpools, -⟩ := h.leaves
      rw [hpools]
      exact ⟨SnapshotMap.mayLoad_save _ _ _ _, fun p hp => SnapshotMap.mayLoad_save_ne hp _ _ _⟩

end PaysOut

/-! ### Migration -/

/-- Everything `callback_finish_lockup_migration` does. -/
structure Finishes (s s' : Storage) (height : Nat) (key : LockupKey) (lpToken : Addr)
    (userInfo : Lockdrop.UserInfo) (lockup : Lockdrop.LockupInfoV2) (stake : Bool)
    (msgs : List CosmosMsg) (balance units : Nat) (pool : PoolInfo) (weight : Nat) : Prop where
  pool_eq : s.assetPools.mayLoad key.poolType = some pool
  weight_eq : calculateWeight units key.duration s.config = .ok weight
  config : s'.config = s.config
  state : s'.state = s.state
  lockupInfo : s'.lockupInfo = s.lockupInfo.save key (.fromXykLockupInfo lockup units)
  userInfo_eq : s'.userInfo = s.userInfo.save key.user (.ofXyk userInfo)
  assetPools : ∀ p, s'.assetPools.mayLoad p =
    if p = key.poolType then some { pool with
      weightedAmount := pool.weightedAmount + weight
      amountInLockups := pool.amountInLockups + units
      isStaked := stake || pool.isStaked }
    else s.assetPools.mayLoad p
  written : SnapshotMap.Written height s.assetPools s'.assetPools
  totals : s'.totalUserLockupAmount = s.totalUserLockupAmount.save (key.poolType, key.user)
    ((s.totalUserLockupAmount.mayLoad (key.poolType, key.user)).getD 0 + units) height
  messages : msgs = if stake then [.sendDeposit lpToken s.config.incentives balance] else []

theorem callbackFinishLockupMigration_ok {env : Env} {key : LockupKey} {lpToken : Addr}
    {prev : Nat} {userInfo : Lockdrop.UserInfo} {lockup : Lockdrop.LockupInfoV2} {stake : Bool}
    {r : Response}
    (h : callbackFinishLockupMigration q s env key lpToken prev userInfo lockup stake = .ok r) :
    ∃ balance pool weight, q.tokenBalance lpToken = .ok balance ∧ prev ≤ balance ∧
      Finishes s r.storage env.height key lpToken userInfo lockup stake r.messages balance
        (balance - prev) pool weight := by
  unfold callbackFinishLockupMigration at h
  simp only [bind_eq_ok, SnapshotMap.load, Map.load_eq_ok, Uint.sub_eq_ok,
    Uint.checkedAdd_eq_ok] at h
  obtain ⟨balance, hbalance, _, ⟨hprev, rfl⟩, pool, hpool, weight, hweight, _, ⟨-, rfl⟩, _,
    ⟨-, rfl⟩, total, htotal, h⟩ := h
  refine ⟨balance, pool, weight, hbalance, hprev, ?_⟩
  rw [increasedTotal_ok htotal] at h
  cases stake with
  | false =>
      obtain rfl := Except.ok.inj h
      refine ⟨hpool, hweight, rfl, rfl, rfl, rfl, fun p => ?_, .save _ _, rfl, rfl⟩
      rw [SnapshotMap.mayLoad_save_eq]
      rfl
  | true =>
      obtain rfl := Except.ok.inj h
      -- the pool is saved twice, in the same block
      refine ⟨hpool, hweight, rfl, rfl, rfl, rfl, fun p => ?_,
        (SnapshotMap.Written.save _ _).trans (.save _ _), rfl, rfl⟩
      rw [SnapshotMap.mayLoad_save_eq, SnapshotMap.mayLoad_save_eq]
      split_ifs <;> rfl

end NeutronTge.LockdropPcl
