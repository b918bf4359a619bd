import NeutronTge.LockdropPcl.Effects

/-!
# NeutronTge.LockdropPcl.Transactions

The transactions of the PCL lockdrop, taken apart: a claim is its handler, the collection of
the pool's rewards and the reward callback; a migration provides the liquidity and then
stores the lockup.
-/

namespace NeutronTge.LockdropPcl

open CosmWasm Astroport
open Lockdrop (PoolType LockupKey)

variable {E : Type} {x : Externals E}

/-! ### Claims -/

/-- A pool's rewards are collected: nothing is pending, or the incentives contract sends them
and they are booked. -/
inductive Collects (x : Externals E) (poolType : PoolType) (w : World E) : World E → Prop
  | nothing : Collects x poolType w w
  | booked (incentives lpToken : Addr) (ext : E) (s : Storage) (prev : List Asset)
      (pool : PoolInfo) (deposit : Nat) (perShare : RestrictedVector AssetInfo Decimal)
      (hclaim : x.exec w.ext (.claimRewards incentives [lpToken]) = .ok ext)
      (hbooks : Books (x.querier ext) w.storage s w.env poolType prev pool deposit perShare) :
      Collects x poolType w
        { w with
          storage := s
          ext := ext
          trace := w.trace ++ [.claimRewards incentives [lpToken]] }

/-- A pool's rewards are claimed and booked. -/
theorem books_ok {n : Nat} {w w' : World E} {poolType : PoolType} {incentives lpToken : Addr}
    {prev : List Asset}
    (h : [.claimRewards incentives [lpToken],
      .callback (.updatePoolOnDualRewardsClaim poolType prev)].foldlM (dispatch x n) w = .ok w') :
    ∃ ext s pool deposit perShare, x.exec w.ext (.claimRewards incentives [lpToken]) = .ok ext ∧
      Books (x.querier ext) w.storage s w.env poolType prev pool deposit perShare ∧
      w' = { w with
        storage := s
        ext := ext
        trace := w.trace ++ [.claimRewards incentives [lpToken]] } := by
  obtain ⟨t, ht, hbook⟩ := foldlM_cons_ok.mp h
  obtain ⟨ext, hclaim, rfl⟩ := dispatch_external (fun _ => CosmosMsg.noConfusion) ht
  obtain ⟨m, r, hr, hnone⟩ := dispatch_callback (foldlM_singleton_ok.mp hbook)
  obtain ⟨hnil, pool, deposit, perShare, hbooks⟩ := updatePoolOnDualRewardsClaim_ok hr
  rw [hnil] at hnone
  obtain rfl := Except.ok.inj hnone
  exact ⟨ext, r.storage, pool, deposit, perShare, hclaim, hbooks, rfl⟩

theorem collects_ok {n : Nat} {w w' : World E} {poolType : PoolType} {msgs : List CosmosMsg}
    (hmsgs : msgs = [] ∨ ∃ incentives lpToken prev,
      msgs = [.claimRewards incentives [lpToken],
        .callback (.updatePoolOnDualRewardsClaim poolType prev)])
    (h : msgs.foldlM (dispatch x n) w = .ok w') : Collects x poolType w w' := by
  rcases hmsgs with rfl | ⟨incentives, lpToken, prev, rfl⟩
  · obtain rfl := Except.ok.inj h
    exact Collects.nothing
  · obtain ⟨ext, s, pool, deposit, perShare, hclaim, hbooks, rfl⟩ := books_ok h
    exact Collects.booked incentives lpToken ext s prev pool deposit perShare hclaim hbooks

/-- The world in which the reward callback of a claim runs: the handler did its part, and the
pending rewards of the pool are booked. -/
def World.collected (x : Externals E) (w : World E) (info : MessageInfo) (poolType : PoolType)
    (duration : Nat) (withdraw : Bool) : Except StdError (World E) := do
  let r ← handleClaimRewardsAndUnlockForLockup (x.querier w.ext) w.storage w.env info poolType
    duration withdraw
  r.messages.dropLast.foldlM (dispatch x callDepth) (w.respond r)

/-- The rewards of a pool are booked when it is staked and something is pending, with the
balances before the claim. -/
inductive Gathers (x : Externals E) (poolType : PoolType) (w : World E) : World E → Prop
  | nothing : Gathers x poolType w w
  | booked (pool : PoolInfo) (pending : List Asset) (ext : E) (s : Storage) (deposit : Nat)
      (perShare : RestrictedVector AssetInfo Decimal) (hstaked : pool.isStaked = true)
      (hpending : (x.querier w.ext).pendingRewards w.storage.config.incentives pool.lpToken =
        .ok pending)
      (hclaim : x.exec w.ext (.claimRewards w.storage.config.incentives [pool.lpToken]) = .ok ext)
      (hbooks : Books (x.querier ext) w.storage s w.env poolType
        (pending.map fun asset =>
          { asset with amount := ((x.querier w.ext).queryPool asset.info).toOption.getD 0 })
        pool deposit perShare) :
      Gathers x poolType w
        { w with
          storage := s
          ext := ext
          trace := w.trace ++ [.claimRewards w.storage.config.incentives [pool.lpToken]] }

theorem Gathers.collects {poolType : PoolType} {w w' : World E} (h : Gathers x poolType w w') :
    Collects x poolType w w' := by
  cases h with
  | nothing => exact Collects.nothing
  | booked pool pending ext s deposit perShare hstaked hpending hclaim hbooks =>
      exact Collects.booked _ _ ext s _ pool deposit perShare hclaim hbooks

theorem gathers_ok {n : Nat} {w w' : World E} {poolType : PoolType} {pool : PoolInfo}
    {msgs : List CosmosMsg} (hpool : w.storage.assetPools.mayLoad poolType = some pool)
    (hmsgs : claimMessages (x.querier w.ext) w.storage poolType pool = .ok msgs)
    (h : msgs.foldlM (dispatch x n) w = .ok w') : Gathers x poolType w w' := by
  unfold claimMessages at hmsgs
  split_ifs at hmsgs with hstaked
  · rw [bind_eq_ok] at hmsgs
    obtain ⟨pending, hpending, hmsgs⟩ := hmsgs
    split_ifs at hmsgs
    · obtain rfl := Except.ok.inj hmsgs
      obtain ⟨ext, s, pool', deposit, perShare, hclaim, hbooks, rfl⟩ := books_ok h
      obtain rfl := Option.some.inj (hpool.symm.trans hbooks.pool_eq)
      exact Gathers.booked pool pending ext s deposit perShare hstaked hpending hclaim hbooks
    · obtain rfl := Except.ok.inj hmsgs
      obtain rfl := Except.ok.inj h
      exact Gathers.nothing
  · obtain rfl := Except.ok.inj hmsgs
    obtain rfl := Except.ok.inj h
    exact Gathers.nothing

/-- A claim up to its reward callback. -/
theorem collected_ok {w w₁ : World E} {info : MessageInfo} {poolType : PoolType} {duration : Nat}
    {withdraw : Bool} (h : w.collected x info poolType duration withdraw = .ok w₁) :
    ∃ r opened collect, StartsClaim w.storage r.storage w.env ⟨poolType, info.sender, duration⟩
      withdraw r.messages opened collect ∧ Gathers x poolType (w.respond r) w₁ := by
  unfold World.collected at h
  rw [bind_eq_ok] at h
  obtain ⟨r, hr, hrun⟩ := h
  obtain ⟨opened, collect, hstarts⟩ := handleClaimRewardsAndUnlockForLockup_ok hr
  obtain ⟨pool, collect', hpool, hcollect, hmsgs⟩ :=
    handleClaimRewardsAndUnlockForLockup_messages hr
  rw [hmsgs, List.dropLast_concat] at hrun
  exact ⟨r, opened, collect, hstarts, gathers_ok hpool hcollect hrun⟩

/-- A claim is what comes before its reward callback, and the callback. -/
theorem execute_collected {w w' : World E} {info : MessageInfo} {poolType : PoolType}
    {duration : Nat} {withdraw : Bool}
    (h : w.execute x info (.claimRewardsAndOptionallyUnlock poolType duration withdraw) =
      .ok w') :
    ∃ w₁, w.collected x info poolType duration withdraw = .ok w₁ ∧
      dispatch x callDepth w₁ (.callback (.withdrawUserLockupRewardsCallback poolType info.sender
        duration withdraw)) = .ok w' := by
  obtain ⟨r, hr, hrun, -⟩ := execute_ok h
  obtain ⟨pool, collect, -, -, hmsgs⟩ := handleClaimRewardsAndUnlockForLockup_messages hr
  rw [hmsgs] at hrun
  obtain ⟨w₁, hcollect, hpay⟩ := foldlM_append_ok.mp hrun
  refine ⟨w₁, ?_, foldlM_singleton_ok.mp hpay⟩
  unfold World.collected
  rw [bind_eq_ok]
  refine ⟨r, hr, ?_⟩
  rw [hmsgs, List.dropLast_concat]
  exact hcollect

/-- Collecting keeps everything but a pool's rewards. -/
theorem Collects.frame {poolType : PoolType} {w w' : World E} (h : Collects x poolType w w') :
    w'.env = w.env ∧ w'.storage.lockupInfo = w.storage.lockupInfo ∧
      w'.storage.userInfo = w.storage.userInfo ∧ w'.storage.config = w.storage.config := by
  cases h with
  | nothing => exact ⟨rfl, rfl, rfl, rfl⟩
  | booked _ _ _ _ _ _ _ _ _ hbooks =>
      obtain rfl := hbooks.storage
      exact ⟨rfl, rfl, rfl, rfl⟩

/-- The lockup for which the reward callback runs has not left. -/
theorem collected_open {w w₁ : World E} {info : MessageInfo} {poolType : PoolType}
    {duration : Nat} {withdraw : Bool} {lockup : LockupInfo}
    (h : w.collected x info poolType duration withdraw = .ok w₁)
    (hlockup : w₁.storage.lockupInfo.mayLoad ⟨poolType, info.sender, duration⟩ = some lockup) :
    lockup.astroportLpTransferred = none := by
  obtain ⟨r, opened, collect, hstarts, hgathers⟩ := collected_ok h
  obtain ⟨-, hlockups, -⟩ := hgathers.collects.frame
  rw [hlockups] at hlockup
  obtain rfl := Option.some.inj (hlockup.symm.trans hstarts.lockup_eq)
  exact hstarts.lockup_open

/-- Collecting keeps the LP token of every pool. -/
theorem Collects.lpTokenOf {p : PoolType} {w w' : World E} (h : Collects x p w w')
    (p' : PoolType) : w'.storage.lpTokenOf p' = w.storage.lpTokenOf p' := by
  cases h with
  | nothing => rfl
  | booked _ _ _ _ _ _ _ _ _ hbooks =>
      have hpools := congrArg Storage.assetPools hbooks.storage
      unfold Storage.lpTokenOf
      dsimp only at hpools ⊢
      rw [hpools, SnapshotMap.mayLoad_save_eq]
      split_ifs with hp
      · rw [hp, hbooks.pool_eq, Option.map_some, Option.map_some]
      · rfl

/-- The messages that collecting sends. -/
theorem Collects.trace {poolType : PoolType} {w w' : World E} (h : Collects x poolType w w') :
    ∃ msgs, w'.trace = w.trace ++ msgs ∧
      ∀ m ∈ msgs, ∃ incentives lpTokens, m = .claimRewards incentives lpTokens := by
  cases h with
  | nothing => exact ⟨[], by simp, by simp⟩
  | booked incentives lpToken =>
      refine ⟨[.claimRewards incentives [lpToken]], rfl, ?_⟩
      intro m hm
      exact ⟨incentives, [lpToken], List.mem_singleton.mp hm⟩

/-- The reward callback of a claim together with the messages it sends. -/
structure Pays (x : Externals E) (w w' : World E) (key : LockupKey) (withdraw : Bool)
    (msgs : List CosmosMsg) (pool : PoolInfo) (lockup lockup' : LockupInfo) (share : Nat)
    (t : Storage) (rewardMsgs exitMsgs ntrnMsgs : List CosmosMsg) : Prop where
  paysOut : PaysOut (x.querier w.ext) w.storage w'.storage w.env.height key withdraw msgs pool
    lockup lockup' share t rewardMsgs exitMsgs ntrnMsgs
  exec : msgs.foldlM x.exec w.ext = .ok w'.ext
  env : w'.env = w.env
  trace : w'.trace = w.trace ++ msgs

section Messages

variable {q : Querier} {s s' : Storage} {msgs : List CosmosMsg}

/-- The messages that pay a lockup's rewards, and the withdrawal of its LP tokens. -/
theorem PaysRewards.mem {key : LockupKey} {lockup lockup' : LockupInfo} {pool : PoolInfo}
    {share : Nat} {withdraw : Bool}
    (h : PaysRewards q s key lockup pool share withdraw lockup' msgs) {m : CosmosMsg}
    (hm : m ∈ msgs) :
    (∃ transfer, m = .transfer transfer) ∨
      withdraw = true ∧ m = .incentivesWithdraw s.config.incentives pool.lpToken share := by
  cases h with
  | unstaked => cases hm
  | staked _ _ pending =>
      rcases List.mem_append.mp hm with hm | hm
      · obtain ⟨asset, -, rfl⟩ := List.mem_map.mp hm
        exact Or.inl ⟨_, rfl⟩
      · split_ifs at hm with hwithdraw
        · exact Or.inr ⟨hwithdraw, List.mem_singleton.mp hm⟩
        · cases hm

/-- A lockup that leaves sends its LP tokens to the user. -/
theorem StoresOrCloses.mem {height : Nat} {key : LockupKey} {pool : PoolInfo}
    {lockup : LockupInfo} {share : Nat} {withdraw : Bool}
    (h : StoresOrCloses s height key pool lockup share withdraw s' msgs) {m : CosmosMsg}
    (hm : m ∈ msgs) : withdraw = true ∧ m = .lpTransfer pool.lpToken key.user share := by
  cases h with
  | stored => cases hm
  | closed => exact ⟨rfl, List.mem_singleton.mp hm⟩

theorem StoresOrCloses.userInfo {height : Nat} {key : LockupKey} {pool : PoolInfo}
    {lockup : LockupInfo} {share : Nat} {withdraw : Bool}
    (h : StoresOrCloses s height key pool lockup share withdraw s' msgs) :
    s'.userInfo = s.userInfo := by
  cases h with
  | stored => rfl
  | closed _ hcloses =>
      obtain rfl := hcloses.storage
      rfl

/-- The messages of the one-time reward: a payment to the user and a burn of his tokens. -/
theorem PaysNtrn.mem {user : Addr} {userInfo : UserInfo}
    (h : PaysNtrn s user userInfo s' msgs) {m : CosmosMsg} (hm : m ∈ msgs) :
    (∃ coin, m = .bankSend user coin) ∨ ∃ credits amount, m = .burnFrom credits user amount := by
  cases h with
  | already => cases hm
  | now airdrop _ hairdrop =>
      rcases List.mem_append.mp hm with hm | hm
      · unfold lockdropRewardMsg at hm
        split_ifs at hm
        · exact Or.inl ⟨_, List.mem_singleton.mp hm⟩
        · cases hm
      · obtain ⟨amount, rfl⟩ := hairdrop m hm
        exact Or.inr ⟨_, amount, rfl⟩

/-- The messages of the reward callback. -/
theorem PaysOut.mem {height : Nat} {key : LockupKey} {withdraw : Bool} {pool : PoolInfo}
    {lockup lockup' : LockupInfo} {share : Nat} {t : Storage}
    {rewardMsgs exitMsgs ntrnMsgs : List CosmosMsg}
    (h : PaysOut q s s' height key withdraw msgs pool lockup lockup' share t rewardMsgs exitMsgs
      ntrnMsgs) {m : CosmosMsg} (hm : m ∈ msgs) :
    (∃ transfer, m = .transfer transfer) ∨
      (withdraw = true ∧ m = .incentivesWithdraw s.config.incentives pool.lpToken share) ∨
      (withdraw = true ∧ m = .lpTransfer pool.lpToken key.user share) ∨
      m ∈ ntrnMsgs := by
  rw [h.messages] at hm
  rcases List.mem_append.mp hm with hm | hm
  · rcases List.mem_append.mp hm with hm | hm
    · rcases h.rewards.mem hm with htransfer | hunstake
      · exact Or.inl htransfer
      · exact Or.inr (Or.inl hunstake)
    · exact Or.inr (Or.inr (Or.inl (h.exits.mem hm)))
  · exact Or.inr (Or.inr (Or.inr hm))

theorem PaysOut.external {height : Nat} {key : LockupKey} {withdraw : Bool} {pool : PoolInfo}
    {lockup lockup' : LockupInfo} {share : Nat} {t : Storage}
    {rewardMsgs exitMsgs ntrnMsgs : List CosmosMsg}
    (h : PaysOut q s s' height key withdraw msgs pool lockup lockup' share t rewardMsgs exitMsgs
      ntrnMsgs) : External msgs := by
  intro m hm c
  rcases h.mem hm with ⟨transfer, rfl⟩ | ⟨-, rfl⟩ | ⟨-, rfl⟩ | hntrn
  · exact CosmosMsg.noConfusion
  · exact CosmosMsg.noConfusion
  · exact CosmosMsg.noConfusion
  · rcases h.ntrn.mem hntrn with ⟨coin, rfl⟩ | ⟨credits, amount, rfl⟩ <;>
      exact CosmosMsg.noConfusion

end Messages

theorem pays_ok {n : Nat} {w w' : World E} (key : LockupKey) {withdraw : Bool}
    (h : dispatch x n w (.callback (.withdrawUserLockupRewardsCallback key.poolType key.user
      key.duration withdraw)) = .ok w') :
    ∃ msgs pool lockup lockup' share t rewardMsgs exitMsgs ntrnMsgs,
      Pays x w w' key withdraw msgs pool lockup lockup' share t rewardMsgs exitMsgs
        ntrnMsgs := by
  obtain ⟨m, r, hr, hrun⟩ := dispatch_callback h
  obtain ⟨pool, lockup, lockup', share, t, rewardMsgs, exitMsgs, ntrnMsgs, hpays⟩ :=
    callbackWithdrawUserRewards_ok hr
  obtain ⟨ext, hexec, rfl⟩ := externals_ok hpays.external hrun
  exact ⟨r.messages, pool, lockup, lockup', share, t, rewardMsgs, exitMsgs, ntrnMsgs, hpays,
    hexec, rfl, rfl⟩

/-! ### Whole transactions -/

/-- The pool's LP tokens for the liquidity of a lockup, and the lockup stored with them. -/
structure Migrates (x : Externals E) (w w' : World E) (key : LockupKey) (funds : List Coin)
    (userInfo : Lockdrop.UserInfo) (lockup : Lockdrop.LockupInfoV2) (stake : Bool)
    (pair : Addr) (ext : E) (msgs : List CosmosMsg) (prev balance : Nat) (pool : PoolInfo)
    (weight : Nat) : Prop where
  pair_eq : (x.querier w.ext).minter pool.lpToken = .ok pair
  prev_eq : (x.querier w.ext).tokenBalance pool.lpToken = .ok prev
  provides : x.exec w.ext (.provideLiquidity pair
    (funds.map fun f => ⟨.nativeToken f.denom, f.amount⟩) funds) = .ok ext
  balance_eq : (x.querier ext).tokenBalance pool.lpToken = .ok balance
  prev_le : prev ≤ balance
  finishes : Finishes w.storage w'.storage w.env.height key pool.lpToken userInfo lockup stake
    msgs balance (balance - prev) pool weight
  exec : msgs.foldlM x.exec ext = .ok w'.ext
  env : w'.env = w.env
  trace : w'.trace = w.trace ++ .provideLiquidity pair
    (funds.map fun f => ⟨.nativeToken f.denom, f.amount⟩) funds :: msgs

/-- A message of the owner: neither a lockup nor a user is concerned. -/
structure Administers (w w' : World E) : Prop where
  xykLockdropContract :
    w'.storage.config.xykLockdropContract = w.storage.config.xykLockdropContract
  lockupRewardsInfo : w'.storage.config.lockupRewardsInfo = w.storage.config.lockupRewardsInfo
  assetPools : w'.storage.assetPools = w.storage.assetPools
  userInfo : w'.storage.userInfo = w.storage.userInfo
  lockupInfo : w'.storage.lockupInfo = w.storage.lockupInfo
  totals : w'.storage.totalUserLockupAmount = w.storage.totalUserLockupAmount
  ext : w'.ext = w.ext
  env : w'.env = w.env
  trace : w'.trace = w.trace

/-- The messages of the owner. -/
def ExecuteMsg.administers : ExecuteMsg → Bool
  | .updateConfig _ => true
  | .proposeNewOwner _ _ => true
  | .dropOwnershipProposal => true
  | .claimOwnership => true
  | _ => false

/-- What the transaction of each message does. -/
inductive Effect (x : Externals E) (w w' : World E) (info : MessageInfo) : ExecuteMsg → Prop
  | administer (msg : ExecuteMsg) (hmsg : msg.administers = true) (h : Administers w w') :
      Effect x w w' info msg
  | claim (poolType : PoolType) (duration : Nat) (withdraw : Bool) (r : Response)
      (w₁ : World E) (opened : LockupInfo) (collect msgs : List CosmosMsg) (pool : PoolInfo)
      (lockup lockup' : LockupInfo) (share : Nat) (t : Storage)
      (rewardMsgs exitMsgs ntrnMsgs : List CosmosMsg)
      (hstarts : StartsClaim w.storage r.storage w.env ⟨poolType, info.sender, duration⟩
        withdraw r.messages opened collect)
      (hcollects : Collects x poolType (w.respond r) w₁)
      (hpays : Pays x w₁ w' ⟨poolType, info.sender, duration⟩ withdraw msgs pool lockup lockup'
        share t rewardMsgs exitMsgs ntrnMsgs) :
      Effect x w w' info (.claimRewardsAndOptionallyUnlock poolType duration withdraw)
  | migrate (key : LockupKey) (userInfo : Lockdrop.UserInfo) (lockup : Lockdrop.LockupInfoV2)
      (stake : Bool) (pair : Addr) (ext : E) (msgs : List CosmosMsg) (prev balance : Nat)
      (pool : PoolInfo) (weight : Nat)
      (hsender : info.sender = w.storage.config.xykLockdropContract)
      (h : Migrates x w w' key info.funds userInfo lockup stake pair ext msgs prev balance pool
        weight) :
      Effect x w w' info (.migrateXYKLiquidity key.poolType key.user key.duration userInfo
        lockup stake)

theorem execute_claim_ok {w w' : World E} {info : MessageInfo} {poolType : PoolType}
    {duration : Nat} {withdraw : Bool} {r : Response}
    (hr : handleClaimRewardsAndUnlockForLockup (x.querier w.ext) w.storage w.env info poolType
      duration withdraw = .ok r)
    (hrun : r.messages.foldlM (dispatch x callDepth) (w.respond r) = .ok w') :
    Effect x w w' info (.claimRewardsAndOptionallyUnlock poolType duration withdraw) := by
  obtain ⟨opened, collect, hstarts⟩ := handleClaimRewardsAndUnlockForLockup_ok hr
  rw [hstarts.messages] at hrun
  obtain ⟨w₁, hcollect, hpay⟩ := foldlM_append_ok.mp hrun
  obtain ⟨msgs, pool, lockup, lockup', share, t, rewardMsgs, exitMsgs, ntrnMsgs, hpays⟩ :=
    pays_ok ⟨poolType, info.sender, duration⟩ (foldlM_singleton_ok.mp hpay)
  exact Effect.claim poolType duration withdraw r w₁ opened collect msgs pool lockup lockup'
    share t rewardMsgs exitMsgs ntrnMsgs hstarts (collects_ok hstarts.collect_eq hcollect) hpays

theorem execute_migrate_ok {w w' : World E} {info : MessageInfo} {key : LockupKey}
    {userInfo : Lockdrop.UserInfo} {lockup : Lockdrop.LockupInfoV2} {stake : Bool} {r : Response}
    (hr : handleMigrateXykLiquidity (x.querier w.ext) w.storage info key.poolType key.user
      key.duration userInfo lockup stake = .ok r)
    (hrun : r.messages.foldlM (dispatch x callDepth) (w.respond r) = .ok w') :
    info.sender = w.storage.config.xykLockdropContract ∧
      ∃ pair ext msgs prev balance pool weight, Migrates x w w' key info.funds userInfo lockup
        stake pair ext msgs prev balance pool weight := by
  unfold handleMigrateXykLiquidity at hr
  simp only [bind_eq_ok, rejectIf_eq_ok, exists_const, not_not, SnapshotMap.load,
    Map.load_eq_ok, Except.ok.injEq] at hr
  obtain ⟨hsender, -, pool, hpool, pair, hpair, prev, hprev, rfl⟩ := hr
  obtain ⟨w₁, h₁, hrun⟩ := foldlM_cons_ok.mp hrun
  obtain ⟨ext, hprovide, rfl⟩ := dispatch_external (fun _ => CosmosMsg.noConfusion) h₁
  obtain ⟨m, r, hr, hrun⟩ := dispatch_callback (foldlM_singleton_ok.mp hrun)
  obtain ⟨balance, pool', weight, hbalance, hle, hfinishes⟩ :=
    callbackFinishLockupMigration_ok hr
  -- the pool is read twice, from the same storage
  obtain rfl : pool' = pool := Option.some.inj (hfinishes.pool_eq.symm.trans hpool)
  have hext : External r.messages := by
    rw [hfinishes.messages]
    intro m hm c
    split_ifs at hm
    · rw [List.mem_singleton.mp hm]
      exact CosmosMsg.noConfusion
    · exact absurd hm List.not_mem_nil
  obtain ⟨ext', hexec, rfl⟩ := externals_ok hext hrun
  refine ⟨hsender, pair, ext, r.messages, prev, balance, pool', weight, hpair, hprev, hprovide,
    hbalance, hle, hfinishes, hexec, rfl, ?_⟩
  simp [World.respond]

/-- A message of somebody else than the contract. -/
theorem execute_effect {w w' : World E} {info : MessageInfo} {msg : ExecuteMsg}
    (h : w.execute x info msg = .ok w') : Effect x w w' info msg := by
  obtain ⟨r, hr, hrun, hsender⟩ := execute_ok h
  cases msg with
  | claimRewardsAndOptionallyUnlock poolType duration withdraw => exact execute_claim_ok hr hrun
  | migrateXYKLiquidity poolType user duration userInfo lockup stake =>
      obtain ⟨hsender, pair, ext, msgs, prev, balance, pool, weight, hmigrates⟩ :=
        @execute_migrate_ok E x w w' info ⟨poolType, user, duration⟩ userInfo lockup stake r hr
          hrun
      exact Effect.migrate ⟨poolType, user, duration⟩ userInfo lockup stake pair ext msgs prev
        balance pool weight hsender hmigrates
  | callback msg =>
      simp only [execute, bind_eq_ok, rejectIf_eq_ok, exists_const, not_not] at hr
      exact absurd hr.1 hsender
  | updateConfig incentivesAddress =>
      simp only [execute, handleUpdateConfig, bind_eq_ok, rejectIf_eq_ok, exists_const] at hr
      obtain ⟨-, hr⟩ := hr
      cases incentivesAddress with
      | none =>
          obtain rfl := Except.ok.inj hr
          obtain rfl := Except.ok.inj hrun
          exact Effect.administer _ rfl ⟨rfl, rfl, rfl, rfl, rfl, rfl, rfl, rfl, rfl⟩
      | some incentives =>
          simp only [bind_eq_ok, Except.ok.injEq] at hr
          obtain ⟨_, -, rfl⟩ := hr
          obtain rfl := Except.ok.inj hrun
          exact Effect.administer _ rfl ⟨rfl, rfl, rfl, rfl, rfl, rfl, rfl, rfl, rfl⟩
  | proposeNewOwner owner expiresIn =>
      simp only [execute, bind_eq_ok, Except.ok.injEq] at hr
      obtain ⟨p, -, rfl⟩ := hr
      obtain rfl := Except.ok.inj hrun
      exact Effect.administer _ rfl ⟨rfl, rfl, rfl, rfl, rfl, rfl, rfl, rfl, rfl⟩
  | dropOwnershipProposal =>
      simp only [execute, bind_eq_ok, Except.ok.injEq] at hr
      obtain ⟨_, -, rfl⟩ := hr
      obtain rfl := Except.ok.inj hrun
      exact Effect.administer _ rfl ⟨rfl, rfl, rfl, rfl, rfl, rfl, rfl, rfl, rfl⟩
  | claimOwnership =>
      simp only [execute, bind_eq_ok, Except.ok.injEq] at hr
      obtain ⟨owner, -, rfl⟩ := hr
      obtain rfl := Except.ok.inj hrun
      exact Effect.administer _ rfl ⟨rfl, rfl, rfl, rfl, rfl, rfl, rfl, rfl, rfl⟩

/-- A message of the owner sets another incentives contract only when no LP tokens are staked
at the present one. -/
theorem administers_incentives {w w' : World E} {info : MessageInfo} {msg : ExecuteMsg}
    (h : w.execute x info msg = .ok w') (hmsg : msg.administers = true) :
    w'.storage.config.incentives = w.storage.config.incentives ∨
      ∀ p pool, w.storage.assetPools.mayLoad p = some pool →
        (x.querier w.ext).deposit w.storage.config.incentives pool.lpToken = .ok 0 := by
  obtain ⟨r, hr, hrun, -⟩ := execute_ok h
  cases msg with
  | updateConfig incentivesAddress =>
      simp only [execute, handleUpdateConfig, bind_eq_ok, rejectIf_eq_ok, exists_const] at hr
      obtain ⟨-, hr⟩ := hr
      cases incentivesAddress with
      | none =>
          obtain rfl := Except.ok.inj hr
          obtain rfl := Except.ok.inj hrun
          exact Or.inl rfl
      | some incentives =>
          rw [bind_eq_ok] at hr
          obtain ⟨_, hcheck, -⟩ := hr
          exact Or.inr fun p pool hpool => checkUnstaked_ok hcheck hpool
  | proposeNewOwner owner expiresIn =>
      simp only [execute, bind_eq_ok, Except.ok.injEq] at hr
      obtain ⟨p, -, rfl⟩ := hr
      obtain rfl := Except.ok.inj hrun
      exact Or.inl rfl
  | dropOwnershipProposal =>
      simp only [execute, bind_eq_ok, Except.ok.injEq] at hr
      obtain ⟨_, -, rfl⟩ := hr
      obtain rfl := Except.ok.inj hrun
      exact Or.inl rfl
  | claimOwnership =>
      simp only [execute, bind_eq_ok, Except.ok.injEq] at hr
      obtain ⟨owner, -, rfl⟩ := hr
      obtain rfl := Except.ok.inj hrun
      exact Or.inl rfl
  | claimRewardsAndOptionallyUnlock => cases hmsg
  | callback => cases hmsg
  | migrateXYKLiquidity => cases hmsg

/-! ### Messages that move LP tokens -/

/-- Whether a message moves LP tokens or liquidity away from the lockdrop. -/
def CosmosMsg.movesLp : CosmosMsg → Bool
  | .provideLiquidity .. => true
  | .sendDeposit .. => true
  | .lpTransfer .. => true
  | _ => false

/-- Nothing, or a message that moves LP tokens and meets `P`. -/
def CosmosMsg.Moves (P : CosmosMsg → Prop) (msg : CosmosMsg) : Prop :=
  msg.movesLp = true → P msg

section Moves

variable {P : CosmosMsg → Prop} {msgs : List CosmosMsg} {w w' : World E} {key : LockupKey}

theorem Collects.moves {poolType : PoolType} (h : Collects x poolType w w') :
    Appends (CosmosMsg.Moves P) w.trace w'.trace := by
  obtain ⟨msgs, htrace, hmsgs⟩ := h.trace
  refine ⟨msgs, htrace, fun m hm => ?_⟩
  obtain ⟨incentives, lpTokens, rfl⟩ := hmsgs m hm
  exact nofun

/-- A claim moves LP tokens only when the owner unlocks. -/
theorem Pays.moves {withdraw : Bool} {pool : PoolInfo} {lockup lockup' : LockupInfo} {share : Nat}
    {t : Storage} {rewardMsgs exitMsgs ntrnMsgs : List CosmosMsg}
    (h : Pays x w w' key withdraw msgs pool lockup lockup' share t rewardMsgs exitMsgs ntrnMsgs)
    (hP : withdraw = true → P (.lpTransfer pool.lpToken key.user share)) :
    Appends (CosmosMsg.Moves P) w.trace w'.trace := by
  refine ⟨msgs, h.trace, fun m hm => ?_⟩
  rcases h.paysOut.mem hm with ⟨transfer, rfl⟩ | ⟨-, rfl⟩ | ⟨hwithdraw, rfl⟩ | hntrn
  · exact nofun
  · exact nofun
  · exact fun _ => hP hwithdraw
  · rcases h.paysOut.ntrn.mem hntrn with ⟨coin, rfl⟩ | ⟨credits, amount, rfl⟩ <;> exact nofun

/-- A migration gives the liquidity to the pool, and may stake the LP tokens. -/
theorem Migrates.moves {funds : List Coin} {userInfo : Lockdrop.UserInfo}
    {lockup : Lockdrop.LockupInfoV2} {stake : Bool} {pair : Addr} {ext : E} {prev balance : Nat}
    {pool : PoolInfo} {weight : Nat}
    (h : Migrates x w w' key funds userInfo lockup stake pair ext msgs prev balance pool weight)
    (hprovide : P (.provideLiquidity pair
      (funds.map fun f => ⟨.nativeToken f.denom, f.amount⟩) funds))
    (hstake : P (.sendDeposit pool.lpToken w.storage.config.incentives balance)) :
    Appends (CosmosMsg.Moves P) w.trace w'.trace := by
  refine ⟨_, h.trace, fun m hm => ?_⟩
  rcases List.mem_cons.mp hm with rfl | hm
  · exact fun _ => hprovide
  · rw [h.finishes.messages] at hm
    split_ifs at hm
    · rw [List.mem_singleton.mp hm]
      exact fun _ => hstake
    · cases hm

end Moves

/-! ### What no transaction changes -/

/-- Two worlds within a transaction: the block and the XYK lockdrop are the same. -/
structure Within (w w' : World E) : Prop where
  env : w'.env = w.env
  xykLockdropContract :
    w'.storage.config.xykLockdropContract = w.storage.config.xykLockdropContract

namespace Within

theorem trans {u v w : World E} (h : Within u v) (h' : Within v w) : Within u w :=
  ⟨h'.env.trans h.env, h'.xykLockdropContract.trans h.xykLockdropContract⟩

theorem of_config {w w' : World E} (henv : w'.env = w.env)
    (hconfig : w'.storage.config = w.storage.config) : Within w w' :=
  ⟨henv, by rw [hconfig]⟩

end Within

theorem Migrates.within {w w' : World E} {key : LockupKey} {funds : List Coin}
    {userInfo : Lockdrop.UserInfo} {lockup : Lockdrop.LockupInfoV2} {stake : Bool} {pair : Addr}
    {ext : E} {msgs : List CosmosMsg} {prev balance : Nat} {pool : PoolInfo} {weight : Nat}
    (h : Migrates x w w' key funds userInfo lockup stake pair ext msgs prev balance pool weight) :
    Within w w' :=
  .of_config h.env h.finishes.config

/-- A migration keeps the LP token of every pool. -/
theorem Migrates.lpTokenOf {w w' : World E} {key : LockupKey} {funds : List Coin}
    {userInfo : Lockdrop.UserInfo} {lockup : Lockdrop.LockupInfoV2} {stake : Bool} {pair : Addr}
    {ext : E} {msgs : List CosmosMsg} {prev balance : Nat} {pool : PoolInfo} {weight : Nat}
    (h : Migrates x w w' key funds userInfo lockup stake pair ext msgs prev balance pool weight)
    (p : PoolType) : w'.storage.lpTokenOf p = w.storage.lpTokenOf p := by
  unfold Storage.lpTokenOf
  rw [h.finishes.assetPools]
  split_ifs with hp
  · rw [hp, h.finishes.pool_eq, Option.map_some, Option.map_some]
  · rfl

theorem Pays.within {w w' : World E} {key : LockupKey} {withdraw : Bool} {msgs : List CosmosMsg}
    {pool : PoolInfo} {lockup lockup' : LockupInfo} {share : Nat} {t : Storage}
    {rewardMsgs exitMsgs ntrnMsgs : List CosmosMsg}
    (h : Pays x w w' key withdraw msgs pool lockup lockup' share t rewardMsgs exitMsgs
      ntrnMsgs) : Within w w' :=
  .of_config h.env h.paysOut.config

theorem World.execute_within {w w' : World E} {info : MessageInfo} {msg : ExecuteMsg}
    (h : w.execute x info msg = .ok w') : Within w w' := by
  cases execute_effect h with
  | administer _ _ hsame => exact ⟨hsame.env, hsame.xykLockdropContract⟩
  | claim poolType duration withdraw r w₁ opened collect msgs pool lockup lockup' share t
      rewardMsgs exitMsgs ntrnMsgs hstarts hcollects hpays =>
      obtain ⟨henv, -, -, hconfig⟩ := hcollects.frame
      exact Within.trans (.of_config henv (hconfig.trans hstarts.sameBooks.config))
        hpays.within
  | migrate _ _ _ _ _ _ _ _ _ _ _ _ hmigrates => exact hmigrates.within

end NeutronTge.LockdropPcl
